import Mathlib.Data.List.Induction

/-!
# Runs of a labelled step function

`step s label` is the state after `label`, or `none` where `label` is not
enabled.  A `Run` records the labels taken, oldest first, and may restrict its
steps: `guard s label` speaks of the state before the step and of the label, so
that "every step of the run met the condition" is a guarded run.

Every safety proof is one use of `Run.invariant`, and every counterexample one
use of `reaches_of_exec`, which turns a trace that evaluates into a run.
-/

namespace Transition

variable {σ α : Type*}

/-- The runs from `start` whose steps all meet `guard`. -/
inductive Run (step : σ → α → Option σ) (guard : σ → α → Prop) (start : σ) :
    List α → σ → Prop
  | nil : Run step guard start [] start
  | snoc {labels : List α} {s s' : σ} {label : α} (run : Run step guard start labels s)
      (meets : guard s label) (next : step s label = some s') :
      Run step guard start (labels ++ [label]) s'

/-- The runs of the step function, without a condition on the steps. -/
abbrev Reaches (step : σ → α → Option σ) (start : σ) : List α → σ → Prop :=
  Run step (fun _ _ => True) start

/-- The labels taken in order. -/
def exec (step : σ → α → Option σ) : σ → List α → Option σ
  | s, [] => some s
  | s, label :: rest => (step s label).bind fun s' => exec step s' rest

variable {step : σ → α → Option σ} {guard : σ → α → Prop} {start : σ}

/-- What holds at the start and survives every guarded step holds after every
guarded run. -/
theorem Run.invariant {I : List α → σ → Prop} (hstart : I [] start)
    (hstep : ∀ labels s label s', I labels s → guard s label → step s label = some s' →
      I (labels ++ [label]) s')
    {labels : List α} {s : σ} (run : Run step guard start labels s) : I labels s := by
  induction run with
  | nil => exact hstart
  | snoc _ meets next ih => exact hstep _ _ _ _ ih meets next

/-- `Run.invariant` for an invariant of the state alone. -/
theorem Run.state_invariant {I : σ → Prop} (hstart : I start)
    (hstep : ∀ s label s', I s → guard s label → step s label = some s' → I s')
    {labels : List α} {s : σ} (run : Run step guard start labels s) : I s :=
  run.invariant (I := fun _ s => I s) hstart fun _ s label s' hI hguard hnext =>
    hstep s label s' hI hguard hnext

theorem Run.mono {guard' : σ → α → Prop} (h : ∀ s label, guard s label → guard' s label)
    {labels : List α} {s : σ} (run : Run step guard start labels s) :
    Run step guard' start labels s := by
  induction run with
  | nil => exact .nil
  | snoc _ meets next ih => exact .snoc ih (h _ _ meets) next

/-- A part of the state has a run of its own, when every step of the run leaves the
part alone or is a step of it. -/
theorem Run.project {τ β : Type*} {step' : τ → β → Option τ} {guard' : τ → β → Prop} (f : σ → τ)
    (h : ∀ labels s label s', Run step guard start labels s → guard s label →
      step s label = some s' →
        f s' = f s ∨ ∃ label', guard' (f s) label' ∧ step' (f s) label' = some (f s'))
    {labels : List α} {s : σ} (run : Run step guard start labels s) :
    ∃ labels', Run step' guard' (f start) labels' (f s) := by
  induction run with
  | nil => exact ⟨[], .nil⟩
  | @snoc labels s s' label run meets next ih =>
      obtain ⟨labels', hrun⟩ := ih
      rcases h labels s label s' run meets next with hsame | ⟨label', hmeets, hnext⟩
      · exact ⟨labels', hsame ▸ hrun⟩
      · exact ⟨labels' ++ [label'], hrun.snoc hmeets hnext⟩

/-- A run goes on with the steps of a part. -/
theorem Run.embed {τ β : Type*} {step' : τ → β → Option τ} {guard' : τ → β → Prop} {part : τ}
    (put : τ → σ) (f : β → α) (hmeets : ∀ t b, guard' t b → guard (put t) (f b))
    (hnext : ∀ t b t', step' t b = some t' → step (put t) (f b) = some (put t'))
    {labels : List α} {more : List β} {t : τ} (run : Run step guard start labels (put part))
    (h : Run step' guard' part more t) :
    Run step guard start (labels ++ more.map f) (put t) := by
  induction h with
  | nil =>
      rw [List.map_nil, List.append_nil]
      exact run
  | snoc _ meets next ih =>
      rw [List.map_append, ← List.append_assoc]
      exact ih.snoc (hmeets _ _ meets) (hnext _ _ _ next)

theorem exec_append (s : σ) (first second : List α) :
    exec step s (first ++ second) = (exec step s first).bind fun s' => exec step s' second := by
  induction first generalizing s with
  | nil => rfl
  | cons label rest ih =>
      simp only [List.cons_append, exec]
      cases step s label with
      | none => rfl
      | some s' => exact ih s'

/-- A trace that evaluates is a run. -/
theorem reaches_of_exec {labels : List α} {s : σ} (h : exec step start labels = some s) :
    Reaches step start labels s := by
  induction labels using List.reverseRecOn generalizing s with
  | nil =>
      cases h
      exact .nil
  | append_singleton labels label ih =>
      rw [exec_append, Option.bind_eq_some_iff] at h
      obtain ⟨middle, hmiddle, hlast⟩ := h
      rw [exec, Option.bind_eq_some_iff] at hlast
      obtain ⟨last, hnext, hlast⟩ := hlast
      cases hlast
      exact .snoc (ih hmiddle) trivial hnext

/-- A run goes on with a trace that evaluates from its last state. -/
theorem Run.extend {labels more : List α} {s s' : σ} (run : Reaches step start labels s)
    (h : exec step s more = some s') : Reaches step start (labels ++ more) s' := by
  induction more generalizing labels s with
  | nil =>
      cases h
      rw [List.append_nil]
      exact run
  | cons label rest ih =>
      rw [exec, Option.bind_eq_some_iff] at h
      obtain ⟨middle, hnext, hrest⟩ := h
      rw [List.append_cons]
      exact ih (run.snoc trivial hnext) hrest

/-- A trace that evaluates with every step passing a test of the guard. -/
theorem run_of_checked {check : σ → α → Bool} (hcheck : ∀ s a, check s a = true → guard s a)
    {labels : List α} {s : σ}
    (h : exec (fun s a => if check s a then step s a else none) start labels = some s) :
    Run step guard start labels s := by
  refine (reaches_of_exec h).invariant (I := fun labels s => Run step guard start labels s) .nil ?_
  intro labels s label s' run _ hnext
  split at hnext
  · rename_i hpassed
    exact run.snoc (hcheck s label hpassed) hnext
  · cases hnext

/-- A test on the last state of a trace, for traces evaluated by the kernel. -/
theorem exists_of_exec {labels : List α} {p : σ → Bool}
    (h : (exec step start labels).map p = some true) :
    ∃ s, Reaches step start labels s ∧ p s = true := by
  obtain ⟨s, hs, hp⟩ := Option.map_eq_some_iff.mp h
  exact ⟨s, reaches_of_exec hs, hp⟩

end Transition
