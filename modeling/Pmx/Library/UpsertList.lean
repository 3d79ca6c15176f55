import Mathlib.Data.List.Nodup
import Mathlib.Data.List.Induction

/-!
# Upserted lists

A list of keys with values that is searched from the front: an entry that comes
in replaces the first one of its key, and goes to the end where there is none.
After any entries the list holds every key once, in the order of the first
entries (`keys_replay`), with the value of the last (`lookup_replay`).

An entry that is already there changes nothing, so the entries that were not
suffice (`replay_changes`).
-/

namespace UpsertList

variable {K V : Type*} [DecidableEq K]

/-- Puts an entry in the place of the first one of its key, or at the end. -/
def put (store : List (K × V)) (entry : K × V) : List (K × V) :=
  match store with
  | [] => [entry]
  | first :: rest => if first.1 = entry.1 then entry :: rest else first :: put rest entry

/-- Puts some entries in turn. -/
def replay (store entries : List (K × V)) : List (K × V) :=
  entries.foldl put store

@[simp] theorem replay_nil (store : List (K × V)) : replay store [] = store := rfl

@[simp] theorem replay_cons (store : List (K × V)) (entry : K × V) (rest : List (K × V)) :
    replay store (entry :: rest) = replay (put store entry) rest := rfl

theorem replay_append (store first second : List (K × V)) :
    replay store (first ++ second) = replay (replay store first) second :=
  List.foldl_append ..

/-- `put` with the place found by a search. -/
theorem put_eq (store : List (K × V)) (entry : K × V) :
    put store entry =
      match store.findIdx? fun stored => stored.1 = entry.1 with
      | some i => store.set i entry
      | none => store ++ [entry] := by
  induction store with
  | nil => rfl
  | cons first rest ih =>
      rw [put, List.findIdx?_cons]
      by_cases hfirst : first.1 = entry.1
      · simp [hfirst]
      · rw [if_neg hfirst, ih]
        cases rest.findIdx? fun stored => stored.1 = entry.1 <;> simp [hfirst]

variable [BEq K] [LawfulBEq K]

/-! ## Keys -/

theorem keys_put (store : List (K × V)) (entry : K × V) :
    (put store entry).map Prod.fst =
      if entry.1 ∈ store.map Prod.fst then store.map Prod.fst
      else store.map Prod.fst ++ [entry.1] := by
  induction store with
  | nil => simp [put]
  | cons first rest ih =>
      rw [put]
      by_cases hfirst : first.1 = entry.1
      · simp [hfirst]
      · have hne : entry.1 ≠ first.1 := Ne.symm hfirst
        rw [if_neg hfirst, List.map_cons, ih]
        by_cases hrest : entry.1 ∈ rest.map Prod.fst
        · rw [if_pos hrest, List.map_cons, if_pos (List.mem_cons_of_mem _ hrest)]
        · rw [if_neg hrest, List.map_cons, if_neg (by simpa [hne] using hrest), List.cons_append]

theorem nodup_put {store : List (K × V)} (h : (store.map Prod.fst).Nodup) (entry : K × V) :
    ((put store entry).map Prod.fst).Nodup := by
  rw [keys_put]
  split_ifs with hmem
  · exact h
  · exact List.nodup_append.mpr
      ⟨h, List.nodup_singleton _, fun key hkey other hother heq =>
        hmem (List.mem_singleton.mp hother ▸ heq ▸ hkey)⟩

theorem nodup_replay {store : List (K × V)} (h : (store.map Prod.fst).Nodup)
    (entries : List (K × V)) : ((replay store entries).map Prod.fst).Nodup := by
  induction entries generalizing store with
  | nil => exact h
  | cons entry rest ih => exact ih (nodup_put h entry)

/-- Another element behind a list is kept if it is new. -/
theorem eraseDups_concat {α : Type*} [BEq α] [LawfulBEq α] (as : List α) (a : α) :
    (as ++ [a]).eraseDups = if a ∈ as then as.eraseDups else as.eraseDups ++ [a] := by
  rw [List.eraseDups_append]
  by_cases ha : a ∈ as <;> simp [List.removeAll, ha, List.eraseDups_cons]

/-- The keys are those of the entries, in the order of their first. -/
theorem keys_replay (entries : List (K × V)) :
    (replay [] entries).map Prod.fst = (entries.map Prod.fst).eraseDups := by
  induction entries using List.reverseRecOn with
  | nil => rfl
  | append_singleton entries entry ih =>
      have hmem : entry.1 ∈ (entries.map Prod.fst).eraseDups ↔ entry.1 ∈ entries.map Prod.fst :=
        List.mem_eraseDups
      calc (replay [] (entries ++ [entry])).map Prod.fst
          = (put (replay [] entries) entry).map Prod.fst := by
            rw [replay_append, replay_cons, replay_nil]
        _ = if entry.1 ∈ (entries.map Prod.fst).eraseDups then (entries.map Prod.fst).eraseDups
            else (entries.map Prod.fst).eraseDups ++ [entry.1] := by
            rw [keys_put, ih]
        _ = (entries.map Prod.fst ++ [entry.1]).eraseDups := by
            rw [eraseDups_concat, if_congr hmem rfl rfl]
        _ = ((entries ++ [entry]).map Prod.fst).eraseDups := by
            rw [List.map_append, List.map_singleton]

/-! ## Values -/

theorem lookup_cons_eq (first : K × V) (rest : List (K × V)) (key : K) :
    (first :: rest).lookup key = if key = first.1 then some first.2 else rest.lookup key := by
  obtain ⟨k, v⟩ := first
  rw [List.lookup_cons]
  by_cases hkey : key = k
  · rw [beq_iff_eq.mpr hkey, if_pos hkey]
  · rw [beq_false_of_ne hkey, if_neg hkey]

theorem lookup_put (store : List (K × V)) (entry : K × V) (key : K) :
    (put store entry).lookup key = if key = entry.1 then some entry.2 else store.lookup key := by
  induction store with
  | nil => rw [put, lookup_cons_eq]
  | cons first rest ih =>
      rw [put]
      by_cases hfirst : first.1 = entry.1
      · rw [if_pos hfirst, lookup_cons_eq, lookup_cons_eq, hfirst]
        split_ifs <;> rfl
      · rw [if_neg hfirst, lookup_cons_eq, ih, lookup_cons_eq]
        by_cases hkey : key = entry.1
        · rw [if_pos hkey, if_neg (hkey ▸ Ne.symm hfirst), if_pos hkey]
        · rw [if_neg hkey, if_neg hkey]

/-- The value found by a search. -/
theorem lookup_eq (store : List (K × V)) (key : K) :
    store.lookup key =
      (store.findIdx? fun stored => stored.1 = key).bind fun i => store[i]?.map Prod.snd := by
  induction store with
  | nil => rfl
  | cons first rest ih =>
      rw [lookup_cons_eq, List.findIdx?_cons]
      by_cases hfirst : first.1 = key
      · simp [hfirst]
      · rw [if_neg (Ne.symm hfirst), ih]
        cases rest.findIdx? fun stored => stored.1 = key <;> simp [hfirst]

/-- The value of a key is that of its last entry. -/
theorem lookup_replay (store entries : List (K × V)) (key : K) :
    (replay store entries).lookup key = (entries.reverse.lookup key).or (store.lookup key) := by
  induction entries using List.reverseRecOn with
  | nil => rfl
  | append_singleton entries entry ih =>
      calc (replay store (entries ++ [entry])).lookup key
          = if key = entry.1 then some entry.2
            else (entries.reverse.lookup key).or (store.lookup key) := by
            rw [replay_append, replay_cons, replay_nil, lookup_put, ih]
        _ = ((entry :: entries.reverse).lookup key).or (store.lookup key) := by
            rw [lookup_cons_eq]
            by_cases hkey : key = entry.1 <;> simp [hkey]
        _ = ((entries ++ [entry]).reverse.lookup key).or (store.lookup key) := by
            rw [List.reverse_append, List.reverse_singleton, List.singleton_append]

/-! ## Changes -/

/-- An entry that is the first one of its key changes nothing. -/
theorem put_of_lookup {store : List (K × V)} {entry : K × V}
    (h : store.lookup entry.1 = some entry.2) : put store entry = store := by
  induction store with
  | nil => cases h
  | cons first rest ih =>
      rw [put]
      rw [lookup_cons_eq] at h
      by_cases hfirst : first.1 = entry.1
      · rw [if_pos hfirst.symm] at h
        rw [if_pos hfirst, Prod.ext hfirst (Option.some.inj h)]
      · rw [if_neg (Ne.symm hfirst)] at h
        rw [if_neg hfirst, ih h]

variable [DecidableEq V]

/-- The entries that were not there when they came in. -/
def changes (store : List (K × V)) : List (K × V) → List (K × V)
  | [] => []
  | entry :: rest =>
      if store.lookup entry.1 = some entry.2 then changes store rest
      else entry :: changes (put store entry) rest

/-- The changes alone lead to the same list. -/
theorem replay_changes (store entries : List (K × V)) :
    replay store (changes store entries) = replay store entries := by
  induction entries generalizing store with
  | nil => rfl
  | cons entry rest ih =>
      rw [changes]
      by_cases hstored : store.lookup entry.1 = some entry.2
      · rw [if_pos hstored, ih, replay_cons, put_of_lookup hstored]
      · rw [if_neg hstored, replay_cons, ih, replay_cons]

theorem changes_append (store first second : List (K × V)) :
    changes store (first ++ second) =
      changes store first ++ changes (replay store first) second := by
  induction first generalizing store with
  | nil => rfl
  | cons entry rest ih =>
      rw [List.cons_append, changes, changes, replay_cons]
      by_cases hstored : store.lookup entry.1 = some entry.2
      · rw [if_pos hstored, if_pos hstored, ih, put_of_lookup hstored]
      · rw [if_neg hstored, if_neg hstored, ih, List.cons_append]

omit [LawfulBEq K] in
/-- No change repeats what was there. -/
theorem changes_changes (store entries : List (K × V)) :
    changes store (changes store entries) = changes store entries := by
  induction entries generalizing store with
  | nil => rfl
  | cons entry rest ih =>
      rw [changes]
      by_cases hstored : store.lookup entry.1 = some entry.2
      · rw [if_pos hstored, ih]
      · rw [if_neg hstored, changes, if_neg hstored, ih]

end UpsertList
