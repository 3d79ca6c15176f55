import Mathlib.Data.List.Infix

/-!
# Transducers

A transducer reads its inputs one after the other, keeps a state and gives some
outputs for each input.  Reading a list in pieces, each piece from the state the
previous one left, is reading the list (`run_chunks`), so that the pieces do not
matter.  The outputs of an input depend on it and on the state that the inputs
before it lead to (`run_output`); where a part of the state is only ever
replaced, this is what the last replacing input has put there
(`run_state_of_switch`).
-/

namespace Transducer

variable {σ τ μ ω ι : Type*}

/-- The state after the inputs, and the outputs for them. -/
def run (step : σ → μ → σ × List ω) (state : σ) : List μ → σ × List ω
  | [] => (state, [])
  | input :: rest =>
      let result := step state input
      let remaining := run step result.1 rest
      (remaining.1, result.2 ++ remaining.2)

variable {step : σ → μ → σ × List ω}

@[simp] theorem run_nil (state : σ) : run step state [] = (state, []) := rfl

theorem run_append (state : σ) (first second : List μ) :
    run step state (first ++ second) =
      ((run step (run step state first).1 second).1,
        (run step state first).2 ++ (run step (run step state first).1 second).2) := by
  induction first generalizing state with
  | nil => rfl
  | cons input first ih => simp [run, ih]

/-- A fold that collects the outputs behind those it has, in whatever record. -/
theorem foldl_eq_run {α : Type*} {f : α → μ → α} (pack : σ → List ω → α)
    (hf : ∀ state outputs input,
      f (pack state outputs) input = pack (step state input).1 (outputs ++ (step state input).2))
    (state : σ) (outputs : List ω) (inputs : List μ) :
    inputs.foldl f (pack state outputs) =
      pack (run step state inputs).1 (outputs ++ (run step state inputs).2) := by
  induction inputs generalizing state outputs with
  | nil => simp
  | cons input rest ih => rw [List.foldl_cons, hf, ih, run, List.append_assoc]

/-- Reading piece by piece is reading the whole list. -/
theorem run_chunks (inputsOf : ι → List μ) (state : σ) (chunks : List ι) :
    run (fun current chunk => run step current (inputsOf chunk)) state chunks =
      run step state (chunks.flatMap inputsOf) := by
  induction chunks generalizing state with
  | nil => rfl
  | cons chunk rest ih => rw [run, ih, List.flatMap_cons, run_append]

theorem run_invariant {P : σ → Prop} (hstep : ∀ state input, P state → P (step state input).1)
    {state : σ} (h : P state) (inputs : List μ) : P (run step state inputs).1 := by
  induction inputs generalizing state with
  | nil => exact h
  | cons input rest ih => exact ih (hstep _ _ h)

/-- Each input gives its outputs in the state that the inputs before it lead to. -/
theorem run_output (state : σ) (inputs : List μ) :
    (run step state inputs).2 =
      (inputs.inits.zip inputs).flatMap fun position =>
        (step (run step state position.1).1 position.2).2 := by
  induction inputs generalizing state with
  | nil => rfl
  | cons input rest ih =>
      have hcons : (run step state (input :: rest)).2 =
          (step state input).2 ++ (run step (step state input).1 rest).2 := rfl
      rw [hcons, ih, List.inits_cons, List.zip_cons_cons, List.flatMap_cons, List.zip_map_left,
        List.flatMap_map]
      rfl

/-- A part of the state that inputs replace is as the last of them has left it. -/
theorem run_state_of_switch (part : σ → τ) (switch : μ → Option τ)
    (hstep : ∀ state input, part (step state input).1 = (switch input).getD (part state))
    (state : σ) (inputs : List μ) :
    part (run step state inputs).1 =
      (inputs.reverse.findSome? switch).getD (part state) := by
  induction inputs generalizing state with
  | nil => rfl
  | cons input rest ih =>
      rw [run, ih, hstep, List.reverse_cons, List.findSome?_append]
      cases rest.reverse.findSome? switch with
      | none => cases hswitch : switch input <;> simp [hswitch]
      | some value => rfl

end Transducer
