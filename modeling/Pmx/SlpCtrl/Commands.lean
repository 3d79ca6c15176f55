import Pmx.SlpCtrl.Presses

/-!
# Commands for the looper

What the controller wants the looper to do in a cycle depends on the presses of the
cycle, and on the last `eighth_per_cycle` that the looper has ever reported: as long as
that is not 64, every cycle asks for it again.

A buffer of 392 bytes holds the commands of any cycle (`size_commandsOf`).
-/

namespace Pmx.SlpCtrl

open Cxx Osc PodBuilder Ump

/-! ## What is asked for -/

/-- The commands of some cycles. -/
def commands (known : ℚ) : List Cycle → List OscMessage
  | [] => []
  | input :: rest => commandsOf known input ++ commands (lastEighth known input) rest

theorem commands_concat (known : ℚ) (inputs : List Cycle) (input : Cycle) :
    commands known (inputs ++ [input]) =
      commands known inputs ++ commandsOf (inputs.foldl lastEighth known) input := by
  induction inputs generalizing known with
  | nil => exact List.append_nil _
  | cons first rest ih => rw [List.cons_append, commands, ih, commands, List.append_assoc]; rfl

/-! ## Sizes -/

/-- **Room.**  392 bytes are enough for the commands of a cycle. -/
theorem size_commandsOf (known : ℚ) (input : Cycle) :
    16 + framedBytes OscMessage.size (commandsOf known input) ≤ 392 := by
  have hlength : (pressedLoops (input.lpMini.getD [])).length ≤ 8 :=
    (List.length_filter_le _ _).trans_eq List.length_range
  have hreminder : reminderBytes known input ≤ 56 := by
    unfold reminderBytes
    split_ifs <;> omega
  rw [framedBytes_commandsOf]
  omega

theorem size_of_mem_commandsOf {known : ℚ} {input : Cycle} {message : OscMessage}
    (h : message ∈ commandsOf known input) : message.size ≤ 36 := by
  rcases List.mem_append.mp h with hrecord | hreminder
  · obtain ⟨loopIndex, hpressed, rfl⟩ := List.mem_map.mp hrecord
    have hlt := (mem_pressedLoops.mp hpressed).1
    interval_cases loopIndex <;> decide
  · split_ifs at hreminder
    · cases List.mem_singleton.mp hreminder
      decide
    · cases hreminder

theorem size_of_mem_commands {known : ℚ} {inputs : List Cycle} {message : OscMessage}
    (h : message ∈ commands known inputs) : message.size ≤ 36 := by
  induction inputs generalizing known with
  | nil => cases h
  | cons input rest ih =>
      rcases List.mem_append.mp h with hfirst | hrest
      · exact size_of_mem_commandsOf hfirst
      · exact ih hrest

end Pmx.SlpCtrl
