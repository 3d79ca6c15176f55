import Mathlib.Data.Rat.Defs
import Pmx.Library.Cxx

/-!
# OSC messages

A message is an address with arguments.  Addresses and strings are closed by a
NUL and padded to four bytes, the type tags are a string that starts with a
comma.
-/

namespace Pmx.Osc

open Cxx

/-- An argument of an OSC message. -/
inductive OscArgument
  | float32 (value : ℚ)
  | int32 (value : ℤ)
  | string (value : Str)
  | blob (value : Str)
  deriving DecidableEq

/-- `OSCPP::Server::Message`. -/
structure OscMessage where
  address : Str
  args : List OscArgument
  deriving DecidableEq

/-- `ArgStream::float32` on a fresh stream of the arguments. -/
def OscMessage.float32 (message : OscMessage) : Except Fault ℚ :=
  match message.args with
  | .float32 value :: _ => .ok value
  | _ => .error .uncaught

/-- `openMessage(address, 1).float32(value).closeMessage()`. -/
def floatMessage (address : Str) (value : ℚ) : OscMessage :=
  ⟨address, [.float32 value]⟩

/-- The bytes of a string of `n` bytes. -/
def stringSize (n : ℕ) : ℕ :=
  (n / 4 + 1) * 4

def OscArgument.size : OscArgument → ℕ
  | .float32 _ => 4
  | .int32 _ => 4
  | .string value => stringSize value.length
  | .blob value => 4 + (value.length + 3) / 4 * 4

/-- `packet.size()` behind a single message. -/
def OscMessage.size (message : OscMessage) : ℕ :=
  stringSize message.address.length + stringSize (1 + message.args.length) +
    (message.args.map OscArgument.size).sum

@[simp] theorem float32_floatMessage (address : Str) (value : ℚ) :
    (floatMessage address value).float32 = .ok value := rfl

end Pmx.Osc
