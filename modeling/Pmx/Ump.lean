import Pmx.Osc.Path

/-!
# Universal MIDI Packets

The words of the messages that the controllers send and get.
-/

namespace Pmx.Ump

open Cxx Osc

/-- The words of a message. -/
abbrev UmpMessage := List UInt32

def UmpMessage.size (message : UmpMessage) : ℕ :=
  4 * message.length

/-- `SPA_CONTROL_UMP`. -/
def controlUmp : ℕ := 4

/-- A control of an input sequence, with its value by the length of its body. -/
inductive Body
  | length4 (message : UInt32)
  | length8 (first second : UInt32)
  | other
  deriving DecidableEq

/-- A control of a sequence, with its type. -/
structure Control where
  type : ℕ
  body : Body
  deriving DecidableEq

/-- `message_type`. -/
inductive MessageType
  | sysex7bitStart
  | sysex7bitContinue
  | sysex7bitEnd
  deriving DecidableEq, Repr

/-- The status bits of a message. -/
def MessageType.status : MessageType → UInt32
  | .sysex7bitStart => 0b00010000
  | .sysex7bitContinue => 0b00100000
  | .sysex7bitEnd => 0b00110000

/-- A byte of `result`: zero behind the data. -/
def dataByte (dataBytes : List UInt32) (i : ℕ) : UInt32 :=
  dataBytes[i]?.getD 0

/-- `create_8_byte_message`. -/
def create8ByteMessage (type : MessageType) (dataBytes : List UInt32) :
    Except Error UmpMessage :=
  if dataBytes.length = 0 ∨ 6 < dataBytes.length then
    .error (Error.invalidArgument (lit "data bytes must be between 1 and 6"))
  else
    let secondByte := type.status ||| dataBytes.length.toUInt32
    let result := dataByte dataBytes
    .ok [(0b00110000 : UInt32) <<< 24 ||| secondByte <<< 16 ||| result 0 <<< 8 ||| result 1,
      result 2 <<< 24 ||| result 3 <<< 16 ||| result 4 <<< 8 ||| result 5]

end Pmx.Ump
