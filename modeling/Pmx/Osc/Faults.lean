import Pmx.Osc.Path

/-!
# Which strings the parser copes with

The parser tests the length of a path once, for seven bytes.  Two things can
still go wrong.  A message that adds a `char` to a literal is a piece of the
literal only while the byte is not beyond its end; and behind the channel
number another four bytes are skipped, so that a path cut off there makes
`substr` raise.

`Digestible` collects the strings on which neither happens, and
`returns_iff_digestible` says that these are all strings on which the parser
returns.
-/

namespace Pmx.Osc

open Cxx

/-- The literals of the parser's messages. -/
def messageLiterals : List Str :=
  [lit "osc path too short", lit "invalid channel type ", lit "invalid layer ",
    lit "invalid channel", lit "unknown parameter"]

/-- The strings on which the parser raises nothing and stays inside of its
strings and literals. -/
def Digestible (path : Str) : Prop :=
  path.length < 7 ∨
    (channelTypeOf (byteAt path 1) = none ∧ (byteAt path 1).toNat ≤ 21) ∨
    (channelTypeOf (byteAt path 1) ≠ none ∧ layerOf (byteAt path 3) = none ∧
      (byteAt path 3).toNat ≤ 14) ∨
    (channelTypeOf (byteAt path 1) ≠ none ∧ layerOf (byteAt path 3) ≠ none ∧
      (isDigit (byteAt path 5) = true →
        (if isDigit (byteAt path 6) then 12 else 11) ≤ path.length))

/-- The parser returns, and an error message consists of bytes of its literal
and of the path. -/
def ReturnsCleanly (path : Str) : Prop :=
  ∃ result, parseOscPath path = .ok result ∧
    ∀ error, result = .error error →
      ∃ literal ∈ messageLiterals, ∀ c ∈ error.message, c ∈ literal ∨ c ∈ path

/-- A message of a literal and a byte exists while the byte is not beyond the
end of the literal. -/
theorem exists_map_literalPlus {β : Type} (literal : Str) (hshort : literal.length < 128)
    {c : UInt8} {f : Str → β} :
    (∃ result, (literalPlus literal c).map f = .ok result) ↔ c.toNat ≤ literal.length := by
  rw [← literalPlus_offset hshort]
  unfold literalPlus
  split_ifs with hoffset
  · simp [Except.map, hoffset]
  · simp [Except.map, hoffset]

/-- Position four behind the channel number, for one and for two digits. -/
theorem channelOf_fits {path : Str} {channel consumed : ℕ}
    (h : channelOf path = some (channel, consumed)) :
    isDigit (byteAt path 5) = true ∧
      ((if isDigit (byteAt path 6) then 12 else 11) ≤ path.length ↔
        consumed + 4 ≤ path.length) := by
  unfold channelOf at h
  split_ifs at h with h5 h6
  · cases h
    simp [h5, h6]
  · cases h
    simp [h5, h6]

theorem not_isDigit_of_channelOf {path : Str} (h : channelOf path = none) :
    isDigit (byteAt path 5) = false := by
  unfold channelOf at h
  split_ifs at h with h5 h6
  simpa using h5

/-- **The parser returns exactly on the digestible strings.** -/
theorem returns_iff_digestible (path : Str) :
    (∃ result, parseOscPath path = .ok result) ↔ Digestible path := by
  by_cases hlength : path.length < 7
  · simp [parseOscPath, hlength, Digestible, pure, Except.pure]
  unfold Digestible
  have houtcome := outcome_of_length (not_lt.mp hlength)
  generalize parseOscPath path = parsed at houtcome
  cases houtcome with
  | invalidType htype =>
      have hlit : (lit "invalid channel type ").length = 21 := by decide
      rw [exists_map_literalPlus _ (by decide), hlit]
      simp [htype, hlength]
  | invalidLayer htype hlayer =>
      have hlit : (lit "invalid layer ").length = 14 := by decide
      rw [exists_map_literalPlus _ (by decide), hlit]
      simp [htype, hlayer, hlength]
  | invalidChannel htype hlayer hchannel =>
      simp [htype, hlayer, not_isDigit_of_channelOf hchannel]
  | truncated htype hlayer hchannel hshort =>
      obtain ⟨hdigit, hfits⟩ := channelOf_fits hchannel
      simp [htype, hlayer, hlength, hdigit, hfits, hshort]
  | unknownParameter htype hlayer hchannel hrest =>
      obtain ⟨hdigit, hfits⟩ := channelOf_fits hchannel
      simp [htype, hlayer, hdigit, hfits, hrest]
  | accepted haccepts =>
      obtain ⟨hdigit, hfits⟩ := channelOf_fits haccepts.channel
      simp [haccepts.channelType, haccepts.layer, hdigit, hfits, haccepts.fits]

/-- Every message comes out of its literal alone. -/
theorem message_of_error {path : Str} {error : Error}
    (h : parseOscPath path = .ok (.error error)) :
    ∃ literal ∈ messageLiterals, ∀ c ∈ error.message, c ∈ literal := by
  by_cases hlength : path.length < 7
  · rw [parseOscPath, if_pos hlength] at h
    cases h
    exact ⟨lit "osc path too short", by simp [messageLiterals], fun c hc => hc⟩
  have houtcome := outcome_of_length (not_lt.mp hlength)
  generalize parseOscPath path = parsed at h houtcome
  cases houtcome with
  | invalidType htype =>
      obtain ⟨message, hplus, herror⟩ := map_eq_ok.mp h
      cases herror
      exact ⟨lit "invalid channel type ", by simp [messageLiterals], mem_of_literalPlus hplus⟩
  | invalidLayer htype hlayer =>
      obtain ⟨message, hplus, herror⟩ := map_eq_ok.mp h
      cases herror
      exact ⟨lit "invalid layer ", by simp [messageLiterals], mem_of_literalPlus hplus⟩
  | invalidChannel htype hlayer hchannel =>
      cases h
      exact ⟨lit "invalid channel", by simp [messageLiterals], fun c hc => hc⟩
  | truncated htype hlayer hchannel hshort => cases h
  | unknownParameter htype hlayer hchannel hfits =>
      cases h
      exact ⟨lit "unknown parameter", by simp [messageLiterals], fun c hc => hc⟩
  | accepted haccepts => cases h

theorem returnsCleanly_iff (path : Str) : ReturnsCleanly path ↔ Digestible path := by
  rw [← returns_iff_digestible]
  constructor
  · rintro ⟨result, hresult, _⟩
    exact ⟨result, hresult⟩
  · rintro ⟨result, hresult⟩
    refine ⟨result, hresult, ?_⟩
    rintro error rfl
    obtain ⟨literal, hliteral, hmessage⟩ := message_of_error hresult
    exact ⟨literal, hliteral, fun c hc => Or.inl (hmessage c hc)⟩

/-- A path that ends behind its channel number makes `substr` raise. -/
example : parseOscPath (lit "/I/A/12") = .error .outOfRange := by rfl

end Pmx.Osc
