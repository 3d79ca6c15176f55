import Pmx.Library.SpaPod

/-!
# Parameters of a node

A node reports its parameters in one struct pod, name and value in turn.
`process_node_params_event` collects the names and the values of known types in
two lists and pairs them afterwards by their positions; a value of another type
takes its name away again.

`readFields_eq` is what the two lists hold after any number of fields.  They are
of one length behind every value, and behind a name without a value there is one
name too many, for which `values` is read beyond its end.
-/

namespace Pmx.ProxyWatcher

open Cxx SpaPod

variable {F D : Type}

/-- `pwcpp::property::property_value_type`. -/
inductive PropertyValue (F D : Type)
  | int (value : Int32)
  | long (value : Int64)
  | float (value : F)
  | double (value : D)
  | string (value : Str)
  | bool (value : Bool)
  | none

/-- The switch on the type of a value. -/
def valueOf : Pod F D → Option (PropertyValue F D)
  | .int value => some (.int value)
  | .long value => some (.long value)
  | .float value => some (.float value)
  | .double value => some (.double value)
  | .string body => some (.string (cStr body))
  | _ => none

/-- The locals of the loop. -/
structure Fields (F D : Type) where
  keys : List Str
  values : List (PropertyValue F D)
  count : ℕ

/-- `std::vector::pop_back`. -/
def popBack {α : Type} : List α → Except Fault (List α)
  | [] => .error .indexOutOfBounds
  | entries => .ok entries.dropLast

/-- The body of the loop over the struct. -/
def readField (read : Fields F D) (field : Pod F D) : Except Fault (Fields F D) :=
  if read.count % 2 = 0 then do
    let key ← field.getString
    return ⟨read.keys ++ [key], read.values, read.count + 1⟩
  else
    match valueOf field with
    | some value => return ⟨read.keys, read.values ++ [value], read.count + 1⟩
    -- a value of another type: its key is taken back
    | none => do
        let keys ← popBack read.keys
        return ⟨keys, read.values, read.count + 1⟩

/-- The loop over the names: the value at the position of each. -/
def pairUp {α : Type} : List Str → List α → Except Fault (List (Str × α))
  | [], _ => .ok []
  | key :: keys, value :: values => do
      let rest ← pairUp keys values
      return (key, value) :: rest
  | _ :: _, [] => .error .indexOutOfBounds

/-- `process_node_params_event`: what `update_parameters` is called with, if it is
called. -/
def processNodeParamsEvent (param : Object F D) :
    Except Fault (Option (List (Str × PropertyValue F D))) :=
  match param.findProp .params with
  | none => return none
  | some property => do
      let fields ← property.fields
      let read ← fields.foldlM readField ⟨[], [], 0⟩
      let result ← pairUp read.keys read.values
      return some result

/-! ## Names and values -/

/-- The fields at the even positions are strings. -/
def NamesAreStrings (fields : List (Pod F D)) : Prop :=
  ∀ i field, fields[2 * i]? = some field → ∃ body, field = .string body

/-- Each name with its own value, where the value has one of the five supported types:
`Int`, `Long`, `Float`, `Double` and `String`. -/
def supportedPairs : List (Pod F D) → List (Str × PropertyValue F D)
  | .string key :: .int value :: rest => (cStr key, .int value) :: supportedPairs rest
  | .string key :: .long value :: rest => (cStr key, .long value) :: supportedPairs rest
  | .string key :: .float value :: rest => (cStr key, .float value) :: supportedPairs rest
  | .string key :: .double value :: rest => (cStr key, .double value) :: supportedPairs rest
  | .string key :: .string value :: rest => (cStr key, .string (cStr value)) :: supportedPairs rest
  | .string _ :: _ :: rest => supportedPairs rest
  | _ => []

/-- The switch knows the supported types and no other. -/
theorem supportedPairs_cons (key : Str) (value : Pod F D) (rest : List (Pod F D)) :
    supportedPairs (.string key :: value :: rest) =
      ((valueOf value).map fun found => (cStr key, found)).toList ++ supportedPairs rest := by
  cases value <;> rfl

theorem pairUp_of_pairs {α : Type} (pairs : List (Str × α)) :
    pairUp (pairs.map Prod.fst) (pairs.map Prod.snd) = .ok pairs := by
  induction pairs with
  | nil => rfl
  | cons pair rest ih =>
      rw [List.map_cons, List.map_cons, pairUp, ih]
      rfl

/-- One name too many. -/
theorem pairUp_of_surplus {α : Type} (pairs : List (Str × α)) (key : Str) :
    pairUp (pairs.map Prod.fst ++ [key]) (pairs.map Prod.snd) = .error .indexOutOfBounds := by
  induction pairs with
  | nil => rfl
  | cons pair rest ih =>
      rw [List.map_cons, List.map_cons, List.cons_append, pairUp, ih]
      rfl

@[simp] theorem popBack_append_singleton {α : Type} (entries : List α) (last : α) :
    popBack (entries ++ [last]) = .ok entries := by
  cases entries with
  | nil => rfl
  | cons first rest =>
      rw [List.cons_append, popBack, ← List.cons_append, List.dropLast_concat]
      exact fun h => by cases h

/-- A name and its value, from an even position on. -/
theorem readField_two {read : Fields F D} (heven : read.count % 2 = 0) (key : Str)
    (value : Pod F D) :
    (readField read (.string key) >>= fun next => readField next value) =
      .ok ⟨read.keys ++ ((valueOf value).map fun _ => cStr key).toList,
        read.values ++ (valueOf value).toList, read.count + 2⟩ := by
  have hodd : (read.count + 1) % 2 ≠ 0 := by omega
  simp only [readField, if_pos heven, Pod.getString, bind, Except.bind, pure, Except.pure,
    if_neg hodd]
  cases valueOf value with
  | some found => simp
  | none => simp [popBack_append_singleton]

/-- The two lists after any fields: the supported pairs, and behind them the name
that is still without a value. -/
theorem readFields_eq {fields : List (Pod F D)} (hnames : NamesAreStrings fields)
    (read : Fields F D) (heven : read.count % 2 = 0) :
    ∃ pending : List Str, pending.length = fields.length % 2 ∧
      fields.foldlM readField read =
        .ok ⟨read.keys ++ (supportedPairs fields).map Prod.fst ++ pending,
          read.values ++ (supportedPairs fields).map Prod.snd, read.count + fields.length⟩ := by
  match fields, hnames with
  | [], _ => exact ⟨[], rfl, by simp [supportedPairs, pure, Except.pure]⟩
  | [field], hnames =>
      obtain ⟨key, rfl⟩ := hnames 0 field rfl
      refine ⟨[cStr key], rfl, ?_⟩
      simp [readField, heven, Pod.getString, supportedPairs, bind, Except.bind, pure, Except.pure]
  | field :: value :: rest, hnames =>
      obtain ⟨key, rfl⟩ := hnames 0 field rfl
      have hrest : NamesAreStrings rest := fun i field hfield => hnames (i + 1) field hfield
      obtain ⟨pending, hlength, hfold⟩ := readFields_eq hrest
        ⟨read.keys ++ ((valueOf value).map fun _ => cStr key).toList,
          read.values ++ (valueOf value).toList, read.count + 2⟩
        (show (read.count + 2) % 2 = 0 by omega)
      refine ⟨pending, ?_, ?_⟩
      · rw [hlength]
        simp only [List.length_cons]
        omega
      · have hstep := readField_two heven key value
        rw [List.foldlM_cons]
        simp only [List.foldlM_cons]
        rw [← bind_assoc, hstep]
        show rest.foldlM readField _ = _
        have hcount : read.count + 2 + rest.length =
            read.count + (Pod.string key :: value :: rest).length := by
          simp only [List.length_cons]
          omega
        rw [hfold, hcount]
        cases hvalue : valueOf value with
        | some found => simp [supportedPairs_cons, hvalue]
        | none => simp [supportedPairs_cons, hvalue]
  termination_by fields.length

/-- What is made of a struct: its supported pairs, unless it ends behind a name. -/
theorem processNodeParamsEvent_eq {param : Object F D} {fields : List (Pod F D)}
    (hparams : param.findProp .params = some (.struct fields)) (hnames : NamesAreStrings fields) :
    processNodeParamsEvent param =
      if fields.length % 2 = 0 then .ok (some (supportedPairs fields))
      else .error .indexOutOfBounds := by
  obtain ⟨pending, hlength, hfold⟩ := readFields_eq hnames ⟨[], [], 0⟩ rfl
  simp only [processNodeParamsEvent, hparams, Pod.fields, bind, Except.bind, hfold,
    List.nil_append]
  rcases Nat.mod_two_eq_zero_or_one fields.length with heven | hodd
  · rw [heven] at hlength
    rw [if_pos heven, List.length_eq_zero_iff.mp hlength, List.append_nil, pairUp_of_pairs]
    rfl
  · rw [hodd] at hlength
    obtain ⟨key, rfl⟩ := List.length_eq_one_iff.mp hlength
    rw [if_neg (by omega), pairUp_of_surplus]

/-- **Names are paired with their own values exactly in structs of an even
length.** -/
theorem processNodeParamsEvent_iff_even (param : Object F D) (fields : List (Pod F D))
    (hparams : param.findProp .params = some (.struct fields)) (hnames : NamesAreStrings fields) :
    processNodeParamsEvent param = .ok (some (supportedPairs fields)) ↔
      fields.length % 2 = 0 := by
  rw [processNodeParamsEvent_eq hparams hnames]
  constructor
  · intro h
    by_contra hodd
    rw [if_neg hodd] at h
    cases h
  · intro heven
    rw [if_pos heven]

/-- The five supported types, with a rectangle between them. -/
def someFields : List (Pod ℕ ℕ) :=
  [.string (lit "a"), .int 1, .string (lit "b"), .long 2, .string (lit "c"), .other 10 [],
    .string (lit "d"), .float 3, .string (lit "e"), .double 4, .string (lit "f"),
    .string (lit "text")]

/-- The name of the rectangle is dropped with it. -/
theorem processNodeParamsEvent_iff_even_someFields :
    processNodeParamsEvent ⟨[(.params, .struct someFields)]⟩ =
      .ok (some [(lit "a", .int 1), (lit "b", .long 2), (lit "d", .float 3), (lit "e", .double 4),
        (lit "f", .string (lit "text"))]) := by
  refine (processNodeParamsEvent_iff_even ⟨[(.params, .struct someFields)]⟩ someFields rfl
    ?_).mpr rfl
  intro i field hfield
  match i, hfield with
  | 0, hfield => exact ⟨_, (Option.some.inj hfield).symm⟩
  | 1, hfield => exact ⟨_, (Option.some.inj hfield).symm⟩
  | 2, hfield => exact ⟨_, (Option.some.inj hfield).symm⟩
  | 3, hfield => exact ⟨_, (Option.some.inj hfield).symm⟩
  | 4, hfield => exact ⟨_, (Option.some.inj hfield).symm⟩
  | 5, hfield => exact ⟨_, (Option.some.inj hfield).symm⟩
  | i + 6, hfield => cases hfield

/-- A struct that ends behind a name has the value of that name read beyond the
end. -/
theorem name_without_value :
    NamesAreStrings [(.string (lit "a") : Pod Unit Unit)] ∧
      processNodeParamsEvent (⟨[(.params, .struct [.string (lit "a")])]⟩ : Object Unit Unit) ≠
        .ok (some (supportedPairs [.string (lit "a")])) := by
  constructor
  · intro i field hfield
    match i, hfield with
    | 0, hfield => exact ⟨_, (Option.some.inj hfield).symm⟩
    | i + 1, hfield => cases hfield
  · have hfault : processNodeParamsEvent
        (⟨[(.params, .struct [.string (lit "a")])]⟩ : Object Unit Unit) =
          .error .indexOutOfBounds := rfl
    rw [hfault]
    exact fun h => by cases h

end Pmx.ProxyWatcher
