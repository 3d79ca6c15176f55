import Mathlib.Data.List.Basic
import Mathlib.Data.List.Induction
import Mathlib.Logic.Function.Basic

/-!
# Delta encoding

Records are functions from fields to values.  Between two records the encoder
sends the fields that differ with their new values; replaying these on the old
record gives the new one (`replay_delta`), and replaying all deltas of a
sequence on its first record gives its last (`replay_deltas`).
-/

namespace DeltaEncoding

variable {F V α : Type*}

/-- The pairs of neighbours in a list. -/
def consecutive : List α → List (α × α)
  | first :: second :: rest => (first, second) :: consecutive (second :: rest)
  | _ => []

/-- What is carried over a cut is the record in front of it. -/
theorem consecutive_append (first second : List α) :
    consecutive (first ++ second) =
      consecutive first ++ consecutive (first.getLast?.toList ++ second) := by
  induction first with
  | nil => rfl
  | cons a rest ih =>
      cases rest with
      | nil => rfl
      | cons b rest =>
          rw [List.cons_append, List.cons_append, consecutive, ← List.cons_append, ih,
            consecutive, List.cons_append, List.getLast?_cons_cons]

theorem consecutive_map {β : Type*} (f : α → β) (records : List α) :
    consecutive (records.map f) = (consecutive records).map fun pair => (f pair.1, f pair.2) := by
  induction records with
  | nil => rfl
  | cons a rest ih =>
      cases rest with
      | nil => rfl
      | cons b rest =>
          rw [List.map_cons, List.map_cons, consecutive, ← List.map_cons, ih, consecutive,
            List.map_cons]

/-! ## Replaying -/

variable [DecidableEq F]

/-- A record with some updates, the oldest first. -/
def replay (record : F → V) (updates : List (F × V)) : F → V :=
  updates.foldl (fun current update => Function.update current update.1 update.2) record

@[simp] theorem replay_append (record : F → V) (first second : List (F × V)) :
    replay record (first ++ second) = replay (replay record first) second :=
  List.foldl_append

/-- A field has its new value exactly from its update on. -/
theorem replay_map (record new : F → V) (updated : List F) (f : F) :
    replay record (updated.map fun g => (g, new g)) f =
      if f ∈ updated then new f else record f := by
  induction updated generalizing record with
  | nil => simp [replay]
  | cons g rest ih =>
      have hrest : replay record ((g :: rest).map fun g => (g, new g)) f =
          replay (Function.update record g (new g)) (rest.map fun g => (g, new g)) f := rfl
      rw [hrest, ih]
      by_cases hmem : f ∈ rest
      · simp [hmem]
      · by_cases hf : f = g
        · simp [hf]
        · simp [hmem, hf]

/-- The value that the last update of a field carries. -/
def lastUpdate (f : F) (updates : List (F × V)) : Option V :=
  (updates.reverse.find? fun update => update.1 = f).map Prod.snd

theorem lastUpdate_append (f : F) (first second : List (F × V)) :
    lastUpdate f (first ++ second) = (lastUpdate f second).or (lastUpdate f first) := by
  rw [lastUpdate, lastUpdate, lastUpdate, List.reverse_append, List.find?_append]
  cases second.reverse.find? fun update => update.1 = f <;> rfl

theorem lastUpdate_map (new : F → V) (updated : List F) (f : F) :
    lastUpdate f (updated.map fun g => (g, new g)) =
      if f ∈ updated then some (new f) else none := by
  induction updated with
  | nil => rfl
  | cons g rest ih =>
      have hfirst : lastUpdate f [(g, new g)] = if f = g then some (new f) else none := by
        by_cases hf : f = g
        · simp [lastUpdate, hf]
        · simp [lastUpdate, hf, Ne.symm hf]
      rw [List.map_cons, ← List.singleton_append, lastUpdate_append, ih, hfirst]
      by_cases hmem : f ∈ rest
      · simp [hmem]
      · simp only [List.mem_cons, hmem, or_false, if_false, Option.none_or]

variable [DecidableEq V]

/-- The fields that differ, in the order of `fields`. -/
def changed (fields : List F) (old new : F → V) : List F :=
  fields.filter fun f => old f ≠ new f

/-- The updates from one record to another. -/
def delta (fields : List F) (old new : F → V) : List (F × V) :=
  (changed fields old new).map fun f => (f, new f)

/-- The updates between all consecutive records. -/
def deltas (fields : List F) (records : List (F → V)) : List (F × V) :=
  (consecutive records).flatMap fun pair => delta fields pair.1 pair.2

theorem replay_delta {fields : List F} (hcomplete : ∀ f, f ∈ fields) (old new : F → V) :
    replay old (delta fields old new) = new := by
  funext f
  rw [delta, replay_map]
  by_cases hf : f ∈ changed fields old new
  · rw [if_pos hf]
  · rw [if_neg hf]
    simpa [changed, hcomplete] using hf

theorem lastUpdate_delta {fields : List F} (hcomplete : ∀ f, f ∈ fields) (old new : F → V)
    (f : F) :
    lastUpdate f (delta fields old new) = if old f ≠ new f then some (new f) else none := by
  have hmem : f ∈ changed fields old new ↔ old f ≠ new f := by simp [changed, hcomplete]
  rw [delta, lastUpdate_map]
  exact if_congr hmem rfl rfl

/-- A field that has changed was last updated to what it is in the last record. -/
theorem lastUpdate_deltas {fields : List F} (hcomplete : ∀ f, f ∈ fields)
    (records : List (F → V)) (f : F) :
    (∀ pair ∈ consecutive records, pair.1 f = pair.2 f) ∧
        lastUpdate f (deltas fields records) = none ∨
      (∃ pair ∈ consecutive records, pair.1 f ≠ pair.2 f) ∧
        lastUpdate f (deltas fields records) = records.getLast?.map fun last => last f := by
  induction records using List.reverseRecOn with
  | nil => exact Or.inl ⟨fun _ h => absurd h List.not_mem_nil, rfl⟩
  | append_singleton records new ih =>
      cases hlast : records.getLast? with
      | none =>
          rw [List.getLast?_eq_none_iff.mp hlast]
          exact Or.inl ⟨fun _ h => absurd h List.not_mem_nil, rfl⟩
      | some last =>
          have hpairs : consecutive (records ++ [new]) = consecutive records ++ [(last, new)] := by
            rw [consecutive_append, hlast]
            rfl
          have hdeltas : deltas fields (records ++ [new]) =
              deltas fields records ++ delta fields last new := by
            rw [deltas, hpairs, List.flatMap_append, List.flatMap_singleton, deltas]
          rw [hdeltas, lastUpdate_append, lastUpdate_delta hcomplete, hpairs,
            List.getLast?_concat, Option.map_some]
          have hexists : (∃ pair ∈ consecutive records ++ [(last, new)], pair.1 f ≠ pair.2 f) ↔
              (∃ pair ∈ consecutive records, pair.1 f ≠ pair.2 f) ∨ last f ≠ new f := by
            simp [or_and_right, exists_or]
          rw [List.forall_mem_append, List.forall_mem_singleton, hexists]
          by_cases hchanged : last f ≠ new f
          · refine Or.inr ⟨Or.inr hchanged, ?_⟩
            rw [if_pos hchanged, Option.some_or]
          · rw [if_neg hchanged, Option.none_or]
            rw [not_not] at hchanged
            rcases ih with ⟨hsame, hnone⟩ | ⟨hmoved, hvalue⟩
            · exact Or.inl ⟨⟨hsame, hchanged⟩, hnone⟩
            · refine Or.inr ⟨Or.inl hmoved, ?_⟩
              rw [hvalue, hlast, Option.map_some, hchanged]

theorem replay_deltas {fields : List F} (hcomplete : ∀ f, f ∈ fields) (first : F → V)
    (rest : List (F → V)) :
    replay first (deltas fields (first :: rest)) =
      (first :: rest).getLast (List.cons_ne_nil _ _) := by
  induction rest generalizing first with
  | nil => rfl
  | cons second rest ih =>
      have hcons : deltas fields (first :: second :: rest) =
          delta fields first second ++ deltas fields (second :: rest) := rfl
      rw [hcons, replay_append, replay_delta hcomplete, ih second, List.getLast_cons_cons]

end DeltaEncoding
