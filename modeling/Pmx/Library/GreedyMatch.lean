import Mathlib.Data.List.Sublists

/-!
# Greedy matching of a subsequence

Someone waits for values in a given order among others that are of no interest:
whenever the next one comes, it is taken off the list.  Taking values greedily
loses nothing: what is left is used up by the values to come exactly when the
expected values are a subsequence of all (`sublist_append_iff_consumeAll`).
-/

namespace GreedyMatch

variable {α : Type*} [DecidableEq α]

/-- What is still expected after a value. -/
def consume : List α → α → List α
  | [], _ => []
  | next :: rest, value => if value = next then rest else next :: rest

/-- What is still expected after some values. -/
def consumeAll (expected values : List α) : List α :=
  values.foldl consume expected

theorem consumeAll_append (expected first second : List α) :
    consumeAll expected (first ++ second) = consumeAll (consumeAll expected first) second :=
  List.foldl_append

/-- Taking the next value when it comes is never too early. -/
theorem sublist_cons_iff_consume (expected : List α) (value : α) (values : List α) :
    expected.Sublist (value :: values) ↔ (consume expected value).Sublist values := by
  cases expected with
  | nil => simp [consume]
  | cons next rest =>
      rw [consume]
      split_ifs with hvalue
      · rw [hvalue, List.cons_sublist_cons]
      · rw [List.sublist_cons_iff]
        constructor
        · rintro (hskip | ⟨tail, hcons, _⟩)
          · exact hskip
          · exact absurd (List.cons.inj hcons).1.symm hvalue
        · exact Or.inl

theorem sublist_append_iff_consumeAll (expected first second : List α) :
    expected.Sublist (first ++ second) ↔ (consumeAll expected first).Sublist second := by
  induction first generalizing expected with
  | nil => rfl
  | cons value rest ih =>
      rw [List.cons_append, sublist_cons_iff_consume, ih]
      rfl

end GreedyMatch
