import Pmx.Library.BoundedFifo
import Pmx.Library.Transition

/-!
# A consumer that sleeps on a condition variable

One producer and one consumer share a bounded queue.  The producer pushes and
then calls `notify_all`, without ever taking the mutex.  The consumer tests the
queue, and when it finds it empty it goes to sleep on the condition variable;
blocking releases the mutex in the same step, and only a notify that happens
while it is blocked wakes it.

A `Program` chooses between the two ways of waiting (with a predicate, which is
a second test under the mutex, or without) and between the two ways of
notifying (once per push, or once after any number of pushes).

The window that matters is the phase `sleeping`, between the last test and the
blocking.  `notLost` says that no notify with a message in the queue falls into
it.  Runs of that kind never strand a message (`not_stranded`), and any other
notify strands one as soon as the consumer takes its next step
(`stranded_of_lost_notify`), so the condition is exact.
-/

namespace WaitNotify

open Transition

/-- `predicate`: `wait(lock, test)` instead of `wait(lock)`.  `batched`: several
pushes may share one notify. -/
structure Program where
  capacity : ℕ
  predicate : Bool
  batched : Bool
  deriving DecidableEq, Repr

/-- Where the consumer is in its loop. -/
inductive Phase
  | testing
  | locking
  | checking
  | sleeping
  | blocked
  | waking
  deriving DecidableEq, Repr

/-- `unnotified`: the producer has pushed and its notify is still to come. -/
structure State (program : Program) (α : Type*) where
  queue : BoundedFifo program.capacity α
  phase : Phase
  mutex : Bool
  unnotified : Bool

/-- The producer pushes a message or notifies; the consumer takes a step. -/
inductive Label (α : Type*)
  | push (message : α)
  | notify
  | consumer

variable {program : Program} {α : Type*}

/-- Without a predicate the consumer holds the mutex from the start. -/
def initial (program : Program) (α : Type*) : State program α where
  queue := .empty
  phase := .testing
  mutex := !program.predicate
  unnotified := false

/-- One step of the consumer.  `blocked` has none: it waits for a notify. -/
def consumerStep (s : State program α) : Option (State program α) :=
  match s.phase with
  | .testing =>
      match s.queue.pop with
      | some (_, rest) => some { s with queue := rest }
      | none => some { s with phase := if program.predicate then .locking else .sleeping }
  | .locking => if s.mutex then none else some { s with phase := .checking, mutex := true }
  | .checking =>
      -- the predicate is looked at under the mutex
      if s.queue.items = [] then some { s with phase := .sleeping }
      else some { s with phase := .testing, mutex := false }
  | .sleeping => some { s with phase := .blocked, mutex := false }
  -- only a notification goes on from here
  | .blocked => none
  | .waking =>
      if s.mutex then none
      else some { s with
        phase := if program.predicate then .checking else .testing, mutex := true }

def step (s : State program α) : Label α → Option (State program α)
  | .push message =>
      -- unless it is batched, a push is followed by its own notification
      if s.unnotified && !program.batched then none
      else some { s with queue := (s.queue.push message).2, unnotified := true }
  | .notify =>
      if s.unnotified then
        some { s with
          phase := if s.phase = .blocked then .waking else s.phase, unnotified := false }
      else none
  | .consumer => consumerStep s

/-- The consumer sleeps on a message that nobody will notify it of. -/
def Stranded (s : State program α) : Prop :=
  s.phase = .blocked ∧ s.queue.items ≠ [] ∧ s.unnotified = false

instance (s : State program α) : Decidable (Stranded s) :=
  inferInstanceAs (Decidable (_ ∧ _ ∧ _))

/-- No notify with a message in the queue between the consumer's last test and
its blocking. -/
def notLost (s : State program α) : Label α → Prop
  | .notify => s.phase = .sleeping → s.queue.items = []
  | _ => True

instance (s : State program α) : DecidablePred (notLost s)
  | .push _ => isTrue trivial
  | .notify => inferInstanceAs (Decidable (s.phase = .sleeping → s.queue.items = []))
  | .consumer => isTrue trivial

/-- A consumer past its last test has either tested the queue as it still is,
or a notify to come. -/
def Covered (s : State program α) : Prop :=
  s.phase = .sleeping ∨ s.phase = .blocked → s.queue.items = [] ∨ s.unnotified = true

/-- The consumer reaches `sleeping` only over an empty queue. -/
theorem covered_consumerStep {s s' : State program α} (hcovered : Covered s)
    (hstep : consumerStep s = some s') : Covered s' := by
  unfold consumerStep at hstep
  cases hphase : s.phase with
  | testing =>
      simp only [hphase] at hstep
      cases hpop : s.queue.pop with
      | none =>
          -- without a predicate this is the last test
          simp only [hpop, Option.some.injEq] at hstep
          subst hstep
          exact fun _ => Or.inl (BoundedFifo.pop_eq_none.mp hpop)
      | some popped =>
          simp only [hpop, Option.some.injEq] at hstep
          subst hstep
          intro hsleep
          simp at hsleep
  | locking =>
      simp only [hphase] at hstep
      split at hstep
      · cases hstep
      · cases hstep
        intro hsleep
        simp at hsleep
  | checking =>
      simp only [hphase] at hstep
      split at hstep
      · rename_i hempty
        cases hstep
        exact fun _ => Or.inl hempty
      · cases hstep
        intro hsleep
        simp at hsleep
  | sleeping =>
      simp only [hphase, Option.some.injEq] at hstep
      subst hstep
      -- what covers a consumer that falls asleep covers it asleep
      exact fun _ => hcovered (Or.inl hphase)
  | blocked => simp [hphase] at hstep
  | waking =>
      simp only [hphase] at hstep
      split at hstep
      · cases hstep
      · cases hstep
        intro hsleep
        by_cases hpredicate : program.predicate = true <;> simp [hpredicate] at hsleep

theorem covered_step {s s' : State program α} {label : Label α} (hcovered : Covered s)
    (hguard : notLost s label) (hstep : step s label = some s') : Covered s' := by
  cases label with
  | push message =>
      simp only [step] at hstep
      split at hstep
      · cases hstep
      · cases hstep
        exact fun _ => Or.inr rfl
  | notify =>
      simp only [step] at hstep
      split at hstep
      · cases hstep
        -- a blocked consumer wakes up, so only the window itself is left
        rintro (hsleep | hblocked)
        · by_cases hphase : s.phase = .blocked
          · simp [hphase] at hsleep
          · simp only [hphase, if_false] at hsleep
            exact Or.inl (hguard hsleep)
        · by_cases hphase : s.phase = .blocked <;> simp [hphase] at hblocked
      · cases hstep
  | consumer => exact covered_consumerStep hcovered hstep

theorem covered_of_run {labels : List (Label α)} {s : State program α}
    (run : Run step notLost (initial program α) labels s) : Covered s :=
  run.state_invariant (fun h => by simp [initial] at h)
    fun _ _ _ => covered_step

/-- A run that loses no notify strands no message. -/
theorem not_stranded {labels : List (Label α)} {s : State program α}
    (run : Run step notLost (initial program α) labels s) : ¬ Stranded s := by
  rintro ⟨hblocked, hqueue, hnotified⟩
  rcases covered_of_run run (Or.inr hblocked) with hempty | hpending
  · exact hqueue hempty
  · rw [hnotified] at hpending
    cases hpending

/-- A lost notify strands the queue as soon as the consumer blocks. -/
theorem stranded_of_lost_notify {s : State program α} (hlost : ¬ notLost s .notify)
    (henabled : s.unnotified = true) :
    ∃ s', exec step s [.notify, .consumer] = some s' ∧ Stranded s' := by
  simp only [notLost, Classical.not_imp] at hlost
  obtain ⟨hphase, hqueue⟩ := hlost
  refine ⟨{ s with phase := .blocked, mutex := false, unnotified := false }, ?_,
    rfl, hqueue, rfl⟩
  simp [exec, step, consumerStep, henabled, hphase]

end WaitNotify
