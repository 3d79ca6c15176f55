import Pmx.FilterChainCtrl
import Pmx.Osc.Faults

/-!
# Packets with a malformed address

A packet that the parser rejects leaves a line in the log and nothing else, so
the packets behind it are handled as if it had not come.  On an address the
parser cannot digest, the whole loop fails, and with it the packets behind.
-/

namespace Pmx.FilterChainCtrl

open Cxx Osc

variable {capacity : ℕ} {parameters : List (Str × PropertyValue)}

/-- In any cycle, a packet whose address is not accepted is logged and skipped. -/
def LogsAndSkips (address : Str) : Prop :=
  (∀ decoded, parseOscPath address ≠ .ok (.ok decoded)) →
    ∀ {capacity : ℕ} (parameters : List (Str × PropertyValue)) (state : LoopState capacity)
      (packet : OscMessage) (packets : List OscMessage), packet.address = address →
      ∃ error, parseOscPath address = .ok (.error error) ∧
        packetLoop parameters state (packet :: packets) =
          packetLoop parameters (state.logInvalidPath error) packets

theorem packetLoop_cons (state : LoopState capacity) (packet : OscMessage)
    (packets : List OscMessage) :
    packetLoop parameters state (packet :: packets) =
      handlePacket parameters state packet >>= fun next => packetLoop parameters next packets :=
  List.foldlM_cons

theorem handlePacket_of_rejected {packet : OscMessage} {error : Error}
    (hrejected : parseOscPath packet.address = .ok (.error error)) (state : LoopState capacity) :
    handlePacket parameters state packet = .ok (state.logInvalidPath error) := by
  simp [handlePacket, hrejected, bind, Except.bind, pure, Except.pure]

theorem logsAndSkips_of_returnsCleanly {address : Str} (hreturns : ReturnsCleanly address) :
    LogsAndSkips address := by
  intro hrejected capacity parameters state packet packets haddress
  obtain ⟨result, hresult, _⟩ := hreturns
  cases result with
  | ok decoded => exact absurd hresult (hrejected decoded)
  | error error =>
      refine ⟨error, hresult, ?_⟩
      rw [packetLoop_cons, handlePacket_of_rejected (haddress ▸ hresult)]
      rfl

/-- **Malformed addresses.**  The parser returns a path or a well-formed error,
and the packet loop goes on behind a rejected packet, exactly for the digestible
addresses. -/
theorem malformed_address_iff (address : Str) :
    (ReturnsCleanly address ∧ LogsAndSkips address) ↔ Digestible address := by
  constructor
  · rintro ⟨hreturns, _⟩
    exact (returnsCleanly_iff address).mp hreturns
  · intro hdigestible
    have hreturns := (returnsCleanly_iff address).mpr hdigestible
    exact ⟨hreturns, logsAndSkips_of_returnsCleanly hreturns⟩

/-- An address that is cut off behind its channel number ends the loop. -/
theorem truncated_address_raises :
    ¬ (ReturnsCleanly (lit "/I/A/12") ∧ LogsAndSkips (lit "/I/A/12")) := by
  rintro ⟨⟨result, hresult, _⟩, _⟩
  have hraises : parseOscPath (lit "/I/A/12") = .error .outOfRange := by rfl
  rw [hraises] at hresult
  cases hresult

end Pmx.FilterChainCtrl
