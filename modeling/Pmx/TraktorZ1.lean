import Mathlib.Data.List.Nodup
import Pmx.Library.DeltaEncoding
import Pmx.Library.PodBuilder
import Pmx.Osc.Message

/-!
# pmx-traktor-z1-router

The device reader turns a buffer of thirty bytes into a report of fourteen
controls.  The signal processor compares every report with the previous one and
publishes the controls that have moved, as OSC messages in a sequence pod.  The
first report is only remembered.

The processor writes one control header for all messages of a report.
-/

namespace Pmx.TraktorZ1

open Cxx Osc PodBuilder DeltaEncoding

/-- `traktor_z1_message`. -/
structure TraktorZ1Message where
  gainL : UInt16
  hiL : UInt16
  midL : UInt16
  lowL : UInt16
  filterL : UInt16
  gainR : UInt16
  hiR : UInt16
  midR : UInt16
  lowR : UInt16
  filterR : UInt16
  cueMix : UInt16
  faderL : UInt16
  faderR : UInt16
  crossFader : UInt16
  deriving DecidableEq, Repr

/-- The controls in the order in which the processor compares them. -/
inductive Field
  | gainL | hiL | midL | lowL | filterL
  | gainR | hiR | midR | lowR | filterR
  | cueMix | faderL | faderR | crossFader
  deriving DecidableEq, Repr

/-- The controls in the order in which they are compared. -/
def Field.all : List Field :=
  [.gainL, .hiL, .midL, .lowL, .filterL, .gainR, .hiR, .midR, .lowR, .filterR, .cueMix,
    .faderL, .faderR, .crossFader]

/-- The address a control is published under. -/
def Field.path : Field → Str
  | .gainL => lit "/L/A/1/MIX/fx_gain"
  | .hiL => lit "/L/A/1/EQU/high"
  | .midL => lit "/L/A/1/EQU/mid"
  | .lowL => lit "/L/A/1/EQU/low"
  | .filterL => lit "/L/A/1/MIX/fx_mix"
  | .gainR => lit "/L/B/1/MIX/fx_gain"
  | .hiR => lit "/L/B/1/EQU/high"
  | .midR => lit "/L/B/1/EQU/mid"
  | .lowR => lit "/L/B/1/EQU/low"
  | .filterR => lit "/L/B/1/MIX/fx_mix"
  | .cueMix => lit "/cue_mix"
  | .faderL => lit "/L/A/1/EQU/master"
  | .faderR => lit "/L/B/1/EQU/master"
  | .crossFader => lit "/cross_fader"

/-- The member for a control. -/
def TraktorZ1Message.get (message : TraktorZ1Message) : Field → UInt16
  | .gainL => message.gainL
  | .hiL => message.hiL
  | .midL => message.midL
  | .lowL => message.lowL
  | .filterL => message.filterL
  | .gainR => message.gainR
  | .hiR => message.hiR
  | .midR => message.midR
  | .lowR => message.lowR
  | .filterR => message.filterR
  | .cueMix => message.cueMix
  | .faderL => message.faderL
  | .faderR => message.faderR
  | .crossFader => message.crossFader

/-! ## The device reader -/

/-- `(buffer[high] << 8) + buffer[low]`. -/
def readWord (buffer : Vector UInt8 30) (low high : Fin 30) : UInt16 :=
  (buffer.get high).toUInt16 <<< 8 + (buffer.get low).toUInt16

/-- A report of thirty bytes; other kinds of reports are skipped. -/
def readReport (buffer : Vector UInt8 30) : Option TraktorZ1Message :=
  -- the identifier of the reports with the controls
  if buffer.get 0 = 1 then
    some {
      gainL := readWord buffer 1 2
      hiL := readWord buffer 3 4
      midL := readWord buffer 5 6
      lowL := readWord buffer 7 8
      filterL := readWord buffer 9 10
      gainR := readWord buffer 11 12
      hiR := readWord buffer 13 14
      midR := readWord buffer 15 16
      lowR := readWord buffer 17 18
      filterR := readWord buffer 19 20
      cueMix := readWord buffer 21 22
      faderL := readWord buffer 23 24
      faderR := readWord buffer 25 26
      crossFader := readWord buffer 27 28 }
  else none

/-! ## The signal processor -/

/-- `previous` and `is_init`. -/
structure State where
  previous : TraktorZ1Message
  isInit : Bool

def initial : State :=
  ⟨⟨0, 0, 0, 0, 0, 0, 0, 0, 0, 0, 0, 0, 0, 0⟩, true⟩

/-- `changes`: an entry for every control, empty where it has not moved. -/
def changes (previous message : TraktorZ1Message) : List (Option (Str × UInt16)) :=
  Field.all.map fun f =>
    if previous.get f ≠ message.get f then some (f.path, message.get f) else none

/-- The OSC message of a change. -/
def oscMessage (change : Str × UInt16) : OscMessage :=
  floatMessage change.1 change.2.toNat

/-- `SPA_CONTROL_OSC`. -/
def controlOsc : ℕ := 3

/-- One control header, and the message of every change behind it. -/
def writeChanges (builder : Builder OscMessage) (changes : List (Option (Str × UInt16))) :
    Builder OscMessage :=
  if changes.any Option.isSome then
    (changes.filterMap id).foldl
      (fun builder change => writeValue builder (oscMessage change).size (oscMessage change))
      (writeControl builder 0 controlOsc)
  else builder

/-- The body of the loop over the queue. -/
def handleReport (current : State × Builder OscMessage) (message : TraktorZ1Message) :
    State × Builder OscMessage :=
  if current.1.isInit then (⟨message, false⟩, current.2)
  else (⟨message, false⟩, writeChanges current.2 (changes current.1.previous message))

/-- The messages that the loop hands to the builder. -/
def reportMessages (state : State) : List TraktorZ1Message → List OscMessage
  | [] => []
  | message :: rest =>
      (if state.isInit then []
        else ((changes state.previous message).filterMap id).map oscMessage) ++
        reportMessages ⟨message, false⟩ rest

/-- A call of the signal processor: the size of the output buffer if there is
one, and the reports in the queue. -/
structure Cycle where
  outBuffer : Option ℕ
  reports : List TraktorZ1Message

/-- The reports that a cycle pops. -/
def Cycle.popped (input : Cycle) : List TraktorZ1Message :=
  match input.outBuffer with
  | none => []
  | some _ => input.reports

/-- The signal processor; the items of the sequence it publishes. -/
def cycle (state : State) (input : Cycle) : State × Option (List (Item OscMessage)) :=
  if input.reports = [] then (state, none)
  else
    match input.outBuffer with
    | none => (state, none)
    | some maxsize =>
        let result := input.reports.foldl handleReport (state, pushSequence maxsize)
        (result.1, some result.2.pop)

/-- The sequences that some cycles publish. -/
def published (state : State) : List Cycle → List (List (Item OscMessage))
  | [] => []
  | input :: rest =>
      (cycle state input).2.toList ++ published (cycle state input).1 rest

/-- The messages that some cycles write. -/
def written (state : State) : List Cycle → List OscMessage
  | [] => []
  | input :: rest => reportMessages state input.popped ++ written (cycle state input).1 rest

/-- The reports that some cycles pop. -/
def popped (cycles : List Cycle) : List TraktorZ1Message :=
  cycles.flatMap Cycle.popped

/-! ## Facts about single reports -/

theorem mem_all (f : Field) : f ∈ Field.all := by
  cases f <;> decide

theorem path_injective : Function.Injective Field.path := by
  intro f g h
  have hnodup : (Field.all.map Field.path).Nodup := by decide
  exact List.inj_on_of_nodup_map hnodup (mem_all f) (mem_all g) h

/-- The changes are the delta of the two reports. -/
theorem filterMap_changes (previous message : TraktorZ1Message) :
    (changes previous message).filterMap id =
      (delta Field.all previous.get message.get).map fun update => (update.1.path, update.2) := by
  unfold changes delta changed
  induction Field.all with
  | nil => rfl
  | cons f rest ih =>
      by_cases hf : previous.get f ≠ message.get f
      · rw [List.map_cons, if_pos hf, List.filterMap_cons_some (f := id) rfl,
          List.filter_cons_of_pos (by simpa using hf), List.map_cons, List.map_cons, ih]
      · rw [List.map_cons, if_neg hf, List.filterMap_cons_none (f := id) rfl,
          List.filter_cons_of_neg (by simpa using hf), ih]

end Pmx.TraktorZ1
