import Pmx.Library.BufferUse
import Pmx.Library.Cxx
import Pmx.Library.PodBuilder

/-!
# pmx-ctrl-pipe

The application forwards the controls of its input to its output.  The signal
processor gets its output buffer first, and the input buffer only then.  An input
pod that is no sequence ends the cycle.

No path gives the input buffer back, and the one for a pod that is no sequence gives
back the output buffer neither.
-/

namespace Pmx.CtrlPipe

open BufferUse Cxx PodBuilder

/-- A port of a filter. -/
inductive Port
  | input (index : ℕ)
  | output (index : ℕ)
  deriving DecidableEq

/-- A pod, with the controls that `SPA_POD_SEQUENCE_FOREACH` finds in it. -/
structure Pod (C : Type) where
  isSequence : Bool
  controls : List C

/-- A control with the bytes of its value. -/
structure Control where
  type : ℕ
  data : List UInt8

/-- The buffers of a cycle: the output buffer by its capacity, the input buffer by
its pod, which may be missing. -/
structure Cycle where
  outBuffer : Option ℕ
  inBuffer : Option (Option (Pod Control))

/-- `spa_pod_builder_control` and `spa_pod_builder_bytes`. -/
def forward (builder : Builder (List UInt8)) (control : Control) : Builder (List UInt8) :=
  addFramed control.type List.length builder control.data

/-- What is published of some controls. -/
def published (maxsize : ℕ) (controls : List Control) : List (Item (List UInt8)) :=
  (controls.foldl forward (pushSequence maxsize)).pop

/-- The signal processor. -/
def signalProcessor (input : Cycle) : Use Port Fault (Option (List (Item (List UInt8)))) := do
  match ← getBuffer (.output 0) input.outBuffer with
  | none => return none
  | some maxsize =>
      match ← getBuffer (.input 0) input.inBuffer with
      | some (some pod) =>
          -- this return comes before `in_buffer.finish()`
          if !pod.isSequence then return none
          else
            finish (.output 0)
            return some (published maxsize pod.controls)
      | _ =>
          finish (.output 0)
          return some (published maxsize [])

/-- A cycle as a step without a state. -/
def step (_ : Unit) (input : Cycle) :
    Use Port Fault (Unit × Option (List (Item (List UInt8)))) :=
  ⟨(signalProcessor input).log, (signalProcessor input).result.map (Prod.mk ())⟩

theorem signalProcessor_ok (input : Cycle) :
    ∃ result, (signalProcessor input).result = .ok result := by
  obtain ⟨_ | maxsize, _ | _ | ⟨_ | _, controls⟩⟩ := input <;> exact ⟨_, rfl⟩

/-- The buffers that a cycle leaves out. -/
def leaves (input : Cycle) : List Port :=
  match input.outBuffer, input.inBuffer with
  | none, _ => []
  | some _, none => []
  | some _, some (some ⟨false, _⟩) => [.input 0, .output 0]
  | some _, some _ => [.input 0]

theorem takes_signalProcessor (input : Cycle) :
    Takes [] (signalProcessor input) (leaves input) := by
  obtain ⟨_ | maxsize, _ | _ | ⟨_ | _, controls⟩⟩ := input <;> rfl

/-- A cycle conserves its buffers just if it gets no input buffer. -/
theorem conserves_iff (input : Cycle) :
    Conserves (signalProcessor input).log ↔ input.outBuffer = none ∨ input.inBuffer = none := by
  rw [(takes_signalProcessor input).conserves_iff]
  obtain ⟨_ | maxsize, _ | _ | ⟨_ | _, controls⟩⟩ := input <;> simp [leaves]

end Pmx.CtrlPipe
