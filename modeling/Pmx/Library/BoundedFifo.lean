import Mathlib.Data.List.Basic

/-!
# A bounded first-in first-out queue

`push` gives `false` and leaves the queue alone when it is full, `pop` takes the
oldest entry, `drain` takes all.  The bound is a field, so a queue beyond its
capacity cannot be written down.
-/

/-- A queue of at most `capacity` entries, oldest first. -/
structure BoundedFifo (capacity : ℕ) (α : Type*) where
  items : List α
  bounded : items.length ≤ capacity

namespace BoundedFifo

variable {capacity : ℕ} {α : Type*}

instance [DecidableEq α] : DecidableEq (BoundedFifo capacity α) := fun first second =>
  decidable_of_iff (first.items = second.items) <| by
    cases first; cases second; simp

/-- Nothing has been pushed. -/
@[simp] def empty : BoundedFifo capacity α :=
  ⟨[], Nat.zero_le _⟩

/-- Whether a push would find a free slot. -/
def HasRoom (queue : BoundedFifo capacity α) : Prop :=
  queue.items.length < capacity

instance (queue : BoundedFifo capacity α) : Decidable queue.HasRoom :=
  inferInstanceAs (Decidable (queue.items.length < capacity))

/-- The entry is lost when there is no room for it; the flag says whether it was taken. -/
def push (queue : BoundedFifo capacity α) (entry : α) : Bool × BoundedFifo capacity α :=
  if h : queue.items.length < capacity then
    (true, ⟨queue.items ++ [entry], by simpa using Nat.succ_le_of_lt h⟩)
  else (false, queue)

/-- The oldest entry, and the queue without it. -/
def pop (queue : BoundedFifo capacity α) : Option (α × BoundedFifo capacity α) :=
  match h : queue.items with
  | [] => none
  | entry :: rest => some (entry, ⟨rest, by
      have := queue.bounded
      rw [h] at this
      exact Nat.le_of_succ_le this⟩)

/-- The oldest entry, and what is taken out behind it. -/
def drain (queue : BoundedFifo capacity α) : Option (α × List α) :=
  match queue.items with
  | [] => none
  | entry :: behind => some (entry, behind)

theorem items_push (queue : BoundedFifo capacity α) (entry : α) :
    (queue.push entry).2.items =
      if queue.items.length < capacity then queue.items ++ [entry] else queue.items := by
  unfold push
  split <;> rfl

theorem items_push_of_hasRoom {queue : BoundedFifo capacity α} (hroom : queue.HasRoom)
    (entry : α) : (queue.push entry).2.items = queue.items ++ [entry] := by
  rw [items_push]
  exact if_pos hroom

theorem push_of_not_hasRoom {queue : BoundedFifo capacity α} (hfull : ¬ queue.HasRoom)
    (entry : α) : queue.push entry = (false, queue) :=
  dif_neg hfull

theorem pop_eq_none {queue : BoundedFifo capacity α} : queue.pop = none ↔ queue.items = [] := by
  unfold pop
  split <;> simp_all

theorem items_of_pop {queue rest : BoundedFifo capacity α} {entry : α}
    (h : queue.pop = some (entry, rest)) : queue.items = entry :: rest.items := by
  unfold pop at h
  split at h
  · cases h
  · simp only [Option.some.injEq, Prod.mk.injEq] at h
    obtain ⟨rfl, rfl⟩ := h
    assumption

theorem drain_eq_some {queue : BoundedFifo capacity α} {entry : α} {behind : List α} :
    queue.drain = some (entry, behind) ↔ queue.items = entry :: behind := by
  unfold drain
  split <;> rename_i hitems <;> simp [hitems]

theorem drain_eq_none {queue : BoundedFifo capacity α} :
    queue.drain = none ↔ queue.items = [] := by
  unfold drain
  split <;> rename_i hitems <;> simp [hitems]

/-- With one entry there is nothing behind it. -/
theorem drain_of_length_le {queue : BoundedFifo capacity α} {entry : α} {behind : List α}
    (h : queue.drain = some (entry, behind)) (hlength : queue.items.length ≤ 1) :
    queue.items = [entry] ∧ behind = [] := by
  have hitems := drain_eq_some.mp h
  rw [hitems, List.length_cons] at hlength
  have hbehind : behind = [] := List.length_eq_zero_iff.mp (by omega)
  exact ⟨hbehind ▸ hitems, hbehind⟩

end BoundedFifo
