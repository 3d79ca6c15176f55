import Pmx.ProxyWatcher

/-!
# Setting parameters of a node

`build_set_params_message` puts names and values of any type into a struct, in
the form in which a node reports its parameters.  The names and strings go
through `c_str()`.  `process_node_params_event` takes such an object apart again;
its switch on the type of a value has no case for a boolean and none for an empty
value, so that these are lost.
-/

namespace Pmx.PipewireTools

open Cxx SpaPod ProxyWatcher

variable {F D : Type}

/-- `tools::param_value_variant`. -/
inductive ParamValueVariant (F D : Type)
  | double (value : D)
  | string (value : Str)
  | float (value : F)
  | bool (value : Bool)
  | int (value : Int32)
  | nullopt

namespace ParamValueVariant

/-- The pod built for a value. -/
def pod : ParamValueVariant F D → Pod F D
  | .double value => .double value
  | .string value => .string (cStr value)
  | .int value => .int value
  | .float value => .float value
  | .bool value => .bool value
  | .nullopt => .none

/-- The same value, as the type of a reported parameter. -/
def property : ParamValueVariant F D → PropertyValue F D
  | .double value => .double value
  | .string value => .string value
  | .float value => .float value
  | .bool value => .bool value
  | .int value => .int value
  | .nullopt => .none

/-- A value that is read back: of a type the decoder knows, without a NUL. -/
def Survives : ParamValueVariant F D → Prop
  | .string value => (0 : UInt8) ∉ value
  | .bool _ => False
  | .nullopt => False
  | _ => True

end ParamValueVariant

/-- The struct of all names and values. -/
def structFields (parameters : List (Str × ParamValueVariant F D)) : List (Pod F D) :=
  parameters.flatMap fun parameter => [.string (cStr parameter.1), parameter.2.pod]

/-- The object before it is known to fit. -/
def propsObject (parameters : List (Str × ParamValueVariant F D)) : Object F D :=
  ⟨[(.params, .struct (structFields parameters))]⟩

/-- `build_set_params_message` on a buffer of a size. -/
def buildSetParamsMessage (bufferSize : ℕ) (parameters : List (Str × ParamValueVariant F D)) :
    Option (Object F D) :=
  (propsObject parameters).pop bufferSize

/-! ## Reading the message -/

/-- What the decoder makes of a parameter. -/
def decoded (parameter : Str × ParamValueVariant F D) : Option (Str × PropertyValue F D) :=
  (valueOf parameter.2.pod).map fun value => (cStr (cStr parameter.1), value)

theorem namesAreStrings_structFields (parameters : List (Str × ParamValueVariant F D)) :
    NamesAreStrings (structFields parameters) := by
  induction parameters with
  | nil =>
      intro i field hfield
      simp [structFields] at hfield
  | cons parameter rest ih =>
      intro i field hfield
      cases i with
      | zero => exact ⟨_, (Option.some.inj hfield).symm⟩
      | succ i => exact ih i field hfield

theorem supportedPairs_structFields (parameters : List (Str × ParamValueVariant F D)) :
    supportedPairs (structFields parameters) = parameters.filterMap decoded := by
  induction parameters with
  | nil => rfl
  | cons parameter rest ih =>
      have hcons : structFields (parameter :: rest) =
          .string (cStr parameter.1) :: parameter.2.pod :: structFields rest := rfl
      rw [hcons, supportedPairs_cons, ih, List.filterMap_cons, decoded]
      cases valueOf parameter.2.pod <;> rfl

theorem length_structFields (parameters : List (Str × ParamValueVariant F D)) :
    (structFields parameters).length = 2 * parameters.length := by
  induction parameters with
  | nil => rfl
  | cons parameter rest ih =>
      have hcons : structFields (parameter :: rest) =
          .string (cStr parameter.1) :: parameter.2.pod :: structFields rest := rfl
      rw [hcons, List.length_cons, List.length_cons, ih, List.length_cons]
      omega

/-- Every message is read without a fault, each of its parameters on its own. -/
theorem process_propsObject (parameters : List (Str × ParamValueVariant F D)) :
    processNodeParamsEvent (propsObject parameters) =
      .ok (some (parameters.filterMap decoded)) := by
  rw [processNodeParamsEvent_eq rfl (namesAreStrings_structFields parameters),
    length_structFields, if_pos (by omega), supportedPairs_structFields]

/-- A parameter is read back exactly if it survives. -/
theorem decoded_eq_iff (parameter : Str × ParamValueVariant F D) :
    decoded parameter = some (parameter.1, parameter.2.property) ↔
      (0 : UInt8) ∉ parameter.1 ∧ parameter.2.Survives := by
  obtain ⟨name, value⟩ := parameter
  unfold decoded
  rw [cStr_cStr, ← cStr_eq_self_iff]
  cases value with
  | double value => simp [ParamValueVariant.pod, ParamValueVariant.property, valueOf,
      ParamValueVariant.Survives]
  | string value => simp [ParamValueVariant.pod, ParamValueVariant.property, valueOf,
      ParamValueVariant.Survives, cStr_cStr, cStr_eq_self_iff]
  | float value => simp [ParamValueVariant.pod, ParamValueVariant.property, valueOf,
      ParamValueVariant.Survives]
  | bool value => simp [ParamValueVariant.pod, valueOf, ParamValueVariant.Survives]
  | int value => simp [ParamValueVariant.pod, ParamValueVariant.property, valueOf,
      ParamValueVariant.Survives]
  | nullopt => simp [ParamValueVariant.pod, valueOf, ParamValueVariant.Survives]

/-- A list survives a partial map whole exactly if each entry does. -/
theorem filterMap_eq_map_iff {α β : Type} {f : α → Option β} {g : α → β} {entries : List α} :
    entries.filterMap f = entries.map g ↔ ∀ entry ∈ entries, f entry = some (g entry) := by
  constructor
  · intro h
    induction entries with
    | nil => simp
    | cons entry rest ih =>
        cases hentry : f entry with
        | none =>
            -- an entry that is lost leaves the list too short
            rw [List.filterMap_cons_none hentry] at h
            have hlength := congrArg List.length h
            have hle := List.length_filterMap_le f rest
            simp only [List.length_map, List.length_cons] at hlength
            omega
        | some found =>
            rw [List.filterMap_cons_some hentry, List.map_cons] at h
            obtain ⟨hfound, hrest⟩ := List.cons_eq_cons.mp h
            rw [List.forall_mem_cons]
            exact ⟨by rw [hentry, hfound], ih hrest⟩
  · intro h
    induction entries with
    | nil => rfl
    | cons entry rest ih =>
        obtain ⟨hentry, hrest⟩ := List.forall_mem_cons.mp h
        rw [List.filterMap_cons_some hentry, ih hrest, List.map_cons]

/-- The decoder hands the encoded parameters over as they were. -/
def RoundTrips (parameters : List (Str × ParamValueVariant F D)) : Prop :=
  ∃ object, buildSetParamsMessage 1024 parameters = some object ∧
    processNodeParamsEvent object =
      .ok (some (parameters.map fun parameter => (parameter.1, parameter.2.property)))

/-- **Encoding and decoding are inverse exactly on lists without booleans, empty
values and NULs.** -/
theorem roundTrips_iff_survives (parameters : List (Str × ParamValueVariant F D))
    (hfits : (propsObject parameters).size ≤ 1024) :
    RoundTrips parameters ↔
      ∀ parameter ∈ parameters, (0 : UInt8) ∉ parameter.1 ∧ parameter.2.Survives := by
  have hbuild : buildSetParamsMessage 1024 parameters = some (propsObject parameters) :=
    if_pos hfits
  have hdecode : RoundTrips parameters ↔
      parameters.filterMap decoded =
        parameters.map fun parameter => (parameter.1, parameter.2.property) := by
    unfold RoundTrips
    rw [hbuild]
    simp [process_propsObject]
  rw [hdecode, filterMap_eq_map_iff]
  exact forall₂_congr fun parameter _ => decoded_eq_iff parameter

/-- A double, a string, a float and an integer. -/
theorem roundTrips_iff_survives_four :
    RoundTrips [(lit "drive", .double 1.5), (lit "text", .string (lit "a")),
      (lit "mix", .float 0.5), (lit "node", (.int (-3) : ParamValueVariant ℚ ℚ))] := by
  refine (roundTrips_iff_survives _ (by decide)).mpr ?_
  simp only [List.forall_mem_cons, List.not_mem_nil, false_implies, implies_true, and_true]
  have htext : (0 : UInt8) ∉ lit "a" := by decide
  exact ⟨⟨by decide, trivial⟩, ⟨by decide, htext⟩, ⟨by decide, trivial⟩, by decide, trivial⟩

/-- A boolean between two integers is lost. -/
theorem boolean_is_lost :
    (propsObject [(lit "a", .int 1), (lit "b", .bool true),
        (lit "c", (.int 2 : ParamValueVariant ℚ ℚ))]).size ≤ 1024 ∧
      ¬ RoundTrips [(lit "a", .int 1), (lit "b", .bool true),
        (lit "c", (.int 2 : ParamValueVariant ℚ ℚ))] := by
  constructor
  · decide
  · rintro ⟨object, hbuild, hdecode⟩
    cases hbuild
    rw [process_propsObject] at hdecode
    cases hdecode

end Pmx.PipewireTools
