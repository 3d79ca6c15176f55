import Pmx.Library.PodBuilder
import Pmx.Osc.Message
import Pmx.Ump

/-!
# pmx-slp-ctrl

The controller stands between a looper with eight loops and a Launchpad.  In
every cycle the signal processor reads the looper's reports over OSC, the pads
that have been pressed and the MIDI clock.  It sends a record command for every
loop whose pad has been pressed, and paints the pads with the states of the
loops.

The pressed pads of a cycle are a set, which is gone with the cycle.  Only five
of the sixteen states of a loop have a colour.
-/

namespace Pmx.SlpCtrl

open Cxx Osc PodBuilder Ump

/-- The state of a loop. -/
inductive State
  | off
  | waitStart
  | recording
  | waitStop
  | playing
  | overdubbing
  | multiplying
  | inserting
  | replacing
  | delay
  | muted
  | scratching
  | oneShot
  | substitute
  | paused
  | unknown
  deriving DecidableEq, Repr

/-- The numbers that `translate_state` knows. -/
def translations : List (ℚ × State) :=
  [(0, .off), (1, .waitStart), (2, .recording), (3, .waitStop), (4, .playing), (5, .overdubbing),
    (6, .multiplying), (7, .inserting), (8, .replacing), (9, .delay), (10, .muted),
    (11, .scratching), (12, .oneShot), (13, .substitute), (14, .paused)]

/-- The state that a number stands for; any other number is Unknown. -/
def translateState (state : ℚ) : State :=
  (translations.lookup state).getD .unknown

/-- What the signal processor keeps: `sooper_loopers`, `known_eighth_per_cycle`
and `ppm_count`. -/
structure Memory where
  groupChannelLoopers : Fin 8 → State
  knownEighthPerCycle : ℚ
  ppmCount : UInt64

/-- All loops are off, `known_eighth_per_cycle` is 64, and no clock has been counted. -/
def initial : Memory :=
  ⟨fun _ => .off, 64, 0⟩

/-! ## Input -/

/-- An OSC message.  `arguments` are what `int32`, `string` and `float32` read
from it, in this order, or the exception that one of them raises. -/
structure Packet where
  address : Str
  arguments : Except Fault (Int32 × Str × ℚ)

/-- `StateUpdate`. -/
structure StateUpdate where
  loopIndex : UInt32
  state : State
  deriving DecidableEq

/-- One packet: the new `known_eighth_per_cycle`, and the state updates so far. -/
def handlePacket (current : ℚ × List StateUpdate) (packet : Packet) :
    Except Fault (ℚ × List StateUpdate) :=
  if packet.address = lit "/sl/global" then do
    let (_, parameterName, value) ← packet.arguments
    return if parameterName = lit "eighth_per_cycle" then (value, current.2) else current
  else if packet.address = lit "/sl/loops" then do
    let (loopIndex, parameterName, value) ← packet.arguments
    return if parameterName = lit "state" then
      (current.1, current.2 ++ [⟨loopIndex.toUInt32, translateState value⟩])
    else current
  else return current

/-- A state update is for a loop that there is. -/
def applyUpdate (loopers : Fin 8 → State) (update : StateUpdate) : Fin 8 → State :=
  if h : update.loopIndex.toNat < 8 then
    Function.update loopers ⟨update.loopIndex.toNat, h⟩ update.state
  else loopers

/-- The packets of an OSC buffer; a buffer that cannot be parsed is left alone. -/
abbrev OscBuffer := Except Str (Vector (Option Packet) 16)

def OscBuffer.packets : OscBuffer → List Packet
  | .ok slots => slots.toList.filterMap id
  | .error _ => []

/-- The OSC input of a cycle. -/
def readSlOsc (memory : Memory) (buffer : Option OscBuffer) : Except Fault Memory :=
  match buffer with
  | none => return memory
  | some buffer => do
      let (known, updates) ←
        buffer.packets.foldlM handlePacket (memory.knownEighthPerCycle, [])
      return { memory with
        groupChannelLoopers := updates.foldl applyUpdate memory.groupChannelLoopers
        knownEighthPerCycle := known }

/-- The first words of the presses, with their loops. -/
def loopCtrlPresses : List (UInt32 × ℕ) :=
  [(1082151168, 0), (1082151424, 1), (1082151680, 2), (1082151936, 3), (1082152192, 4),
    (1082152448, 5), (1082152704, 6), (1082152960, 7)]

/-- `registered_loop_ctrl_presses` and `switch_to_mixer_mode`. -/
structure Presses where
  registered : List ℕ
  switchToMixerMode : Bool

/-- One control of the Launchpad.  Messages that are only printed are left out. -/
def handleLpMini (presses : Presses) (control : Control) : Presses :=
  if control.type ≠ controlUmp then presses
  else
    match control.body with
    | .length8 first second =>
        if second ≠ 0 then presses
        else
          match loopCtrlPresses.lookup first with
          | some loopIndex => { presses with registered := setInsert loopIndex presses.registered }
          | none =>
              if first = 1085298944 then { presses with switchToMixerMode := true } else presses
    | _ => presses

/-- The Launchpad input of a cycle. -/
def readLpMini (controls : Option (List Control)) : Presses :=
  (controls.getD []).foldl handleLpMini ⟨[], false⟩

/-- One control of the MIDI clock. -/
def handleMidiClock (ppmCount : UInt64) (control : Control) : UInt64 :=
  if control.type ≠ controlUmp then ppmCount
  else
    match control.body with
    | .length4 message =>
        if message = 284884992 then 0 else if message = 284688384 then ppmCount + 1 else ppmCount
    | _ => ppmCount

/-! ## Output -/

/-- `SPA_CONTROL_OSC`. -/
def controlOsc : ℕ := 3

/-- The record command for a loop. -/
def hitMessage (loopIndex : ℕ) : OscMessage :=
  ⟨lit "/sl/" ++ decimal loopIndex ++ lit "/hit", [.string (lit "record")]⟩

/-- The message that sets back `eighth_per_cycle`. -/
def eighthPerCycleMessage : OscMessage :=
  ⟨lit "/set", [.string (lit "eighth_per_cycle"), .float32 64]⟩

/-- The messages for the looper. -/
def slOscMessages (memory : Memory) (presses : Presses) : List OscMessage :=
  presses.registered.map hitMessage ++
    if memory.knownEighthPerCycle ≠ 64 then [eighthPerCycleMessage] else []

/-- The status byte and the colour of a state. -/
def colour : State → Option (UInt32 × UInt32)
  | .off => some (0b10010000, 45)
  | .waitStart => some (0b10010010, 9)
  | .recording => some (0b10010000, 5)
  | .waitStop => some (0b10010010, 7)
  | .playing => some (0b10010000, 23)
  | _ => none

/-- The low 32 bits of the `size_t` that is computed are what is sent. -/
def padMessage (loopIndex : Fin 8) (status colour : UInt32) : UmpMessage :=
  [(0b00100000 : UInt32) <<< 24 ||| status <<< 16 |||
    (81 + loopIndex.val.toUInt32) <<< 8 ||| colour]

/-- The pads of the loops that have a colour. -/
def padMessages (loopers : Fin 8 → State) : List UmpMessage :=
  (List.finRange 8).filterMap fun loopIndex =>
    (colour (loopers loopIndex)).map fun entry => padMessage loopIndex entry.1 entry.2

/-- `bar_to_cc_mapping`. -/
def barToCcMapping : List UInt32 :=
  [89, 79, 69, 59, 49, 39, 29, 19]

def barMessage (controller value : UInt32) : UmpMessage :=
  [(0b00100000 : UInt32) <<< 24 ||| (0b10110000 : UInt32) <<< 16 ||| controller <<< 8 ||| value]

/-- The bar LEDs. -/
def barMessages (ppmCount : UInt64) : List UmpMessage :=
  barToCcMapping.zipIdx.map fun entry =>
    barMessage entry.1 (if (ppmCount / 24 / 4 % 8).toNat = entry.2 then 49 else 33)

/-- The set-up of the mixer mode and the switch to it. -/
def mixerSetup : List (MessageType × List UInt32) :=
  [(.sysex7bitStart, [0, 32, 41, 2, 13, 1]), (.sysex7bitContinue, [0, 1, 0, 1, 1, 42]),
    (.sysex7bitContinue, [1, 1, 2, 42, 2]), (.sysex7bitContinue, [1, 3, 42, 3, 1, 4]),
    (.sysex7bitContinue, [42, 4, 1, 5, 49, 5]), (.sysex7bitContinue, [1, 9, 49, 6, 1, 7]),
    (.sysex7bitEnd, [49, 7, 1, 8, 49]), (.sysex7bitStart, [0, 32, 41, 2, 13, 0]),
    (.sysex7bitEnd, [13])]

/-- The results are read without a test for an error, and all have one (`mixerSetup_ok`). -/
def mixerMessages : List UmpMessage :=
  mixerSetup.filterMap fun entry => (create8ByteMessage entry.1 entry.2).toOption

theorem mixerSetup_ok :
    ∀ entry ∈ mixerSetup, (create8ByteMessage entry.1 entry.2).toOption.isSome := by
  decide

/-- The messages for the Launchpad. -/
def lpMiniMessages (memory : Memory) (presses : Presses) : List UmpMessage :=
  padMessages memory.groupChannelLoopers ++ barMessages memory.ppmCount ++
    if presses.switchToMixerMode then mixerMessages else []

/-! ## A cycle -/

/-- The buffers of a cycle, the output buffers by their capacities. -/
structure Cycle where
  slOsc : Option OscBuffer
  lpMini : Option (List Control)
  midiClock : Option (List Control)
  slOscOut : Option ℕ
  lpMiniOut : Option ℕ

/-- The sequences that a cycle publishes. -/
structure Output where
  slOsc : Option (List (Item OscMessage))
  lpMini : Option (List (Item UmpMessage))

/-- One control for each message, in a buffer of a given capacity. -/
def sequence {β : Type} (type : ℕ) (bytes : β → ℕ) (messages : List β) (maxsize : ℕ) :
    List (Item β) :=
  (messages.foldl (addFramed type bytes) (pushSequence maxsize)).pop

theorem values_sequence {β : Type} (type : ℕ) (bytes : β → ℕ) (messages : List β) (maxsize : ℕ) :
    values (sequence type bytes messages maxsize) = ifFits bytes maxsize messages :=
  values_pop_foldl_addFramed maxsize messages

/-- The signal processor. -/
def cycle (memory : Memory) (input : Cycle) : Except Fault (Memory × Output) := do
  let memory ← readSlOsc memory input.slOsc
  let presses := readLpMini input.lpMini
  let memory := { memory with
    ppmCount := (input.midiClock.getD []).foldl handleMidiClock memory.ppmCount }
  return (memory,
    ⟨input.slOscOut.map (sequence controlOsc OscMessage.size (slOscMessages memory presses)),
      input.lpMiniOut.map (sequence controlUmp UmpMessage.size (lpMiniMessages memory presses))⟩)

/-- The outputs of some cycles. -/
def run (memory : Memory) : List Cycle → Except Fault (Memory × List Output)
  | [] => return (memory, [])
  | input :: rest => do
      let (memory, output) ← cycle memory input
      let (memory, outputs) ← run memory rest
      return (memory, output :: outputs)

/-- What a cycle that raises no exception has done. -/
theorem cycle_of_ok {memory memory' : Memory} {input : Cycle} {output : Output}
    (h : cycle memory input = .ok (memory', output)) :
    (∃ read, readSlOsc memory input.slOsc = .ok read ∧
        memory'.groupChannelLoopers = read.groupChannelLoopers) ∧
      output.slOsc = input.slOscOut.map
        (sequence controlOsc OscMessage.size (slOscMessages memory' (readLpMini input.lpMini))) ∧
      output.lpMini = input.lpMiniOut.map
        (sequence controlUmp UmpMessage.size
          (lpMiniMessages memory' (readLpMini input.lpMini))) := by
  obtain ⟨read, hread, hrest⟩ := bind_eq_ok.mp h
  cases hrest
  exact ⟨⟨read, hread, rfl⟩, rfl, rfl⟩

/-- A run is a cycle and a run from the memory behind it. -/
theorem run_cons_of_ok {memory memory' : Memory} {input : Cycle} {rest : List Cycle}
    {outputs : List Output} (h : run memory (input :: rest) = .ok (memory', outputs)) :
    ∃ middle output later, cycle memory input = .ok (middle, output) ∧
      run middle rest = .ok (memory', later) ∧ outputs = output :: later := by
  obtain ⟨⟨middle, output⟩, hcycle, hrest⟩ := bind_eq_ok.mp h
  obtain ⟨⟨_, later⟩, hrun, hlast⟩ := bind_eq_ok.mp hrest
  cases hlast
  exact ⟨middle, output, later, hcycle, hrun, rfl⟩

end Pmx.SlpCtrl
