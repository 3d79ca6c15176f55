import Mathlib.Algebra.Order.BigOperators.Group.List
import Mathlib.Data.List.Count
import Mathlib.Tactic.Linarith

/-!
# Sequence pods in a buffer of fixed size

A sequence pod is a header followed by control headers (offset and type) and
value pods.  The builder writes into a buffer of `size` bytes: a write that
does not fit is dropped, and the offset advances all the same.  The header is
written first, as that of an empty sequence; `pop` enters the size of the whole
only if the whole has fitted.  So a sequence comes out whole, or empty
(`pop_writeAll`).

`decode` reads a sequence by the rule that every control header is followed by
exactly one value pod, and stops at the first item that breaks the rule.
`decode_framed` is its round trip; `length_decode_le_controls` and
`length_decode_le_values` bound what any sequence can decode to.
`values_decode_groupItems_iff` says what becomes of a sequence whose controls stand in
front of whole groups of values, and `values_pop_foldl_addFramed` what becomes of one in
which every value has a control of its own.
-/

namespace PodBuilder

variable {β : Type*}

/-- An item of a sequence pod. -/
inductive Item (β : Type*)
  | control (offset type : ℕ)
  | value (pod : β)
  deriving DecidableEq, Repr

namespace Item

def isControl : Item β → Bool
  | control .. => true
  | value _ => false

def isValue : Item β → Bool
  | control .. => false
  | value _ => true

end Item

/-- `items` are the writes that fitted, oldest first. -/
structure Builder (β : Type*) where
  size : ℕ
  offset : ℕ
  items : List (Item β)
  deriving Repr

/-- The bytes of a value pod with a body of `n` bytes: its header, and the body
padded to eight bytes. -/
def podSize (n : ℕ) : ℕ :=
  8 + (n + 7) / 8 * 8

/-- The builder after the header of the sequence pod. -/
def pushSequence (size : ℕ) : Builder β :=
  ⟨size, 16, []⟩

/-- One write of `bytes` bytes. -/
def write (builder : Builder β) (bytes : ℕ) (item : Item β) : Builder β :=
  { builder with
    offset := builder.offset + bytes
    items :=
      if builder.offset + bytes ≤ builder.size then builder.items ++ [item]
      else builder.items }

/-- `spa_pod_builder_control`. -/
def writeControl (builder : Builder β) (offset type : ℕ) : Builder β :=
  write builder 8 (.control offset type)

/-- A value pod whose body has `n` bytes. -/
def writeValue (builder : Builder β) (n : ℕ) (pod : β) : Builder β :=
  write builder (podSize n) (.value pod)

/-- `spa_pod_builder_pop` of the sequence: what a reader of the buffer finds.  The
header is in place before, and still says that the sequence is empty when the end of
the sequence is not in the buffer. -/
def Builder.pop (builder : Builder β) : List (Item β) :=
  if builder.offset ≤ builder.size then builder.items else []

/-- Reading by the rule: one value pod after every control header. -/
def decode : List (Item β) → List (ℕ × ℕ × β)
  | .control offset type :: .value pod :: rest => (offset, type, pod) :: decode rest
  | _ => []

/-- The items of one control with its value. -/
def frame (entry : ℕ × ℕ × β) : List (Item β) :=
  [.control entry.1 entry.2.1, .value entry.2.2]

/-! ## Decoding -/

@[simp] theorem decode_framed (entries : List (ℕ × ℕ × β)) :
    decode (entries.flatMap frame) = entries := by
  induction entries with
  | nil => rfl
  | cons entry rest ih =>
      rw [List.flatMap_cons]
      simp only [frame, List.cons_append, List.nil_append, decode]
      rw [ih]

/-- Every decoded entry uses up an item of a kind that a framed one has. -/
theorem length_decode_le_countP {kind : Item β → Bool}
    (hkind : ∀ offset type pod,
      0 < List.countP kind [Item.control offset type, Item.value pod])
    (items : List (Item β)) : (decode items).length ≤ items.countP kind := by
  induction items using decode.induct with
  | case1 offset type pod rest ih =>
      have happend : ([Item.control offset type, Item.value pod] ++ rest).countP kind =
          List.countP kind [Item.control offset type, Item.value pod] + rest.countP kind :=
        List.countP_append
      have hframed := hkind offset type pod
      rw [decode, List.length_cons]
      change _ ≤ ([Item.control offset type, Item.value pod] ++ rest).countP kind
      omega
  | case2 items hitems =>
      rw [decode]
      · exact Nat.zero_le _
      · exact hitems

/-- Every decoded entry uses up a control header. -/
theorem length_decode_le_controls (items : List (Item β)) :
    (decode items).length ≤ items.countP Item.isControl :=
  length_decode_le_countP (fun _ _ _ => by simp [Item.isControl]) items

/-- Every decoded entry uses up a value pod. -/
theorem length_decode_le_values (items : List (Item β)) :
    (decode items).length ≤ items.countP Item.isValue :=
  length_decode_le_countP (fun _ _ _ => by simp [Item.isValue]) items

/-! ## Writing -/

/-- Any number of writes, in order. -/
def writeAll (builder : Builder β) (writes : List (ℕ × Item β)) : Builder β :=
  writes.foldl (fun current entry => write current entry.1 entry.2) builder

/-- The bytes of a list of writes. -/
def bytesOf (writes : List (ℕ × Item β)) : ℕ :=
  (writes.map Prod.fst).sum

theorem bytesOf_cons (entry : ℕ × Item β) (rest : List (ℕ × Item β)) :
    bytesOf (entry :: rest) = entry.1 + bytesOf rest := by
  simp [bytesOf]

@[simp] theorem bytesOf_append (first second : List (ℕ × Item β)) :
    bytesOf (first ++ second) = bytesOf first + bytesOf second := by
  simp [bytesOf]

@[simp] theorem size_writeAll (builder : Builder β) (writes : List (ℕ × Item β)) :
    (writeAll builder writes).size = builder.size := by
  induction writes generalizing builder with
  | nil => rfl
  | cons entry rest ih => exact ih _

@[simp] theorem offset_writeAll (builder : Builder β) (writes : List (ℕ × Item β)) :
    (writeAll builder writes).offset = builder.offset + bytesOf writes := by
  induction writes generalizing builder with
  | nil => rfl
  | cons entry rest ih =>
      have hrest : (writeAll builder (entry :: rest)).offset =
          (write builder entry.1 entry.2).offset + bytesOf rest := ih _
      rw [hrest, bytesOf_cons, ← Nat.add_assoc]
      rfl

theorem writeAll_append (builder : Builder β) (first second : List (ℕ × Item β)) :
    writeAll builder (first ++ second) = writeAll (writeAll builder first) second := by
  simp [writeAll]

/-- Writes that fit together are all there. -/
theorem items_writeAll_of_fits {builder : Builder β} {writes : List (ℕ × Item β)}
    (hfits : builder.offset + bytesOf writes ≤ builder.size) :
    (writeAll builder writes).items = builder.items ++ writes.map Prod.snd := by
  induction writes generalizing builder with
  | nil => simp [writeAll]
  | cons entry rest ih =>
      rw [bytesOf_cons] at hfits
      have hfirst : builder.offset + entry.1 ≤ builder.size := by omega
      have hitems : (write builder entry.1 entry.2).items = builder.items ++ [entry.2] :=
        if_pos hfirst
      have hrest : (writeAll (write builder entry.1 entry.2) rest).items =
          (write builder entry.1 entry.2).items ++ rest.map Prod.snd := by
        refine ih ?_
        show builder.offset + entry.1 + bytesOf rest ≤ builder.size
        omega
      rw [List.map_cons, List.append_cons, ← hitems]
      exact hrest

/-- **All or nothing.**  A sequence that does not fit comes out empty. -/
theorem pop_writeAll (size : ℕ) (writes : List (ℕ × Item β)) :
    (writeAll (pushSequence size) writes).pop =
      if 16 + bytesOf writes ≤ size then writes.map Prod.snd else [] := by
  rw [Builder.pop, size_writeAll, offset_writeAll]
  refine if_ctx_congr Iff.rfl (fun hfits => ?_) fun _ => rfl
  rw [items_writeAll_of_fits hfits]
  rfl

/-! ## One control for a group of values

A writer that puts one control header in front of several values loses all of
them but the first. -/

/-- The writes of a group: nothing for an empty one. -/
def groupWrites (type : ℕ) (bytes : β → ℕ) : List β → List (ℕ × Item β)
  | [] => []
  | pod :: pods =>
      (8, .control 0 type) :: (pod :: pods).map fun value => (podSize (bytes value), .value value)

/-- What a sequence written group by group contains in a buffer of `size` bytes. -/
def groupItems (size type : ℕ) (bytes : β → ℕ) (groups : List (List β)) : List (Item β) :=
  (writeAll (pushSequence size) (groups.flatMap (groupWrites type bytes))).pop

/-- Everything that is written fits. -/
def GroupsFit (size type : ℕ) (bytes : β → ℕ) (groups : List (List β)) : Prop :=
  groups.flatten = [] ∨ 16 + bytesOf (groups.flatMap (groupWrites type bytes)) ≤ size

variable {type : ℕ} {bytes : β → ℕ}

theorem countP_isValue_groupWrites (group : List β) :
    ((groupWrites type bytes group).map Prod.snd).countP Item.isValue = group.length := by
  cases group with
  | nil => rfl
  | cons pod pods =>
      have hall : ∀ values : List β, List.countP (Item.isValue ∘ Item.value) values =
          values.length := fun values => List.countP_eq_length.mpr fun _ _ => rfl
      simp only [groupWrites, List.map_cons, List.map_map, List.countP_cons, Item.isValue,
        List.countP_map, Function.comp_def] at hall ⊢
      simp [hall]

theorem countP_isControl_groupWrites (group : List β) :
    ((groupWrites type bytes group).map Prod.snd).countP Item.isControl = min 1 group.length := by
  cases group with
  | nil => rfl
  | cons pod pods =>
      have hnone : ∀ values : List β, List.countP (Item.isControl ∘ Item.value) values = 0 :=
        fun values => List.countP_eq_zero.mpr fun _ _ => by simp [Item.isControl]
      simp only [groupWrites, List.map_cons, List.map_map, List.countP_cons, Item.isControl,
        List.countP_map, Function.comp_def] at hnone ⊢
      simp [hnone]

/-- The count of a kind of items over all groups. -/
theorem countP_groups (kind : Item β → Bool) (groups : List (List β)) :
    ((groups.flatMap (groupWrites type bytes)).map Prod.snd).countP kind =
      (groups.map fun group =>
        ((groupWrites type bytes group).map Prod.snd).countP kind).sum := by
  induction groups with
  | nil => rfl
  | cons group rest ih =>
      rw [List.flatMap_cons, List.map_append, List.countP_append, ih, List.map_cons, List.sum_cons]

theorem groupWrites_of_length_le {group : List β} (h : group.length ≤ 1) :
    (groupWrites type bytes group).map Prod.snd =
      (group.map fun pod => (0, type, pod)).flatMap frame := by
  match group, h with
  | [], _ => rfl
  | [pod], _ => rfl

theorem items_groupItems_of_fit {size : ℕ} {groups : List (List β)}
    (hfit : GroupsFit size type bytes groups) :
    groupItems size type bytes groups =
      (groups.flatMap (groupWrites type bytes)).map Prod.snd := by
  rw [groupItems, pop_writeAll]
  rcases hfit with hempty | hfits
  · have hnothing : groups.flatMap (groupWrites type bytes) = [] := by
      rw [List.flatMap_eq_nil_iff]
      intro group hgroup
      rw [List.flatten_eq_nil_iff.mp hempty group hgroup]
      rfl
    rw [hnothing, List.map_nil, ite_self]
  · exact if_pos hfits

/-- Single values in a buffer that is large enough all come back. -/
theorem decode_groupItems {size : ℕ} {groups : List (List β)}
    (hsingle : ∀ group ∈ groups, group.length ≤ 1) (hfit : GroupsFit size type bytes groups) :
    decode (groupItems size type bytes groups) = groups.flatten.map fun pod => (0, type, pod) := by
  have hframes : (groups.flatMap (groupWrites type bytes)).map Prod.snd =
      (groups.flatten.map fun pod => (0, type, pod)).flatMap frame := by
    clear hfit
    induction groups with
    | nil => rfl
    | cons group rest ih =>
        rw [List.flatMap_cons, List.map_append, List.flatten_cons, List.map_append,
          List.flatMap_append, ih fun g hg => hsingle g (List.mem_cons_of_mem _ hg),
          groupWrites_of_length_le (hsingle group (List.mem_cons_self ..))]
  rw [items_groupItems_of_fit hfit, hframes, decode_framed]

theorem sublist_groupItems (size : ℕ) (groups : List (List β)) :
    (groupItems size type bytes groups).Sublist
      ((groups.flatMap (groupWrites type bytes)).map Prod.snd) := by
  rw [groupItems, pop_writeAll]
  split
  · exact List.Sublist.refl _
  · exact List.nil_sublist _

theorem countP_isValue_groups (type : ℕ) (bytes : β → ℕ) (groups : List (List β)) :
    ((groups.flatMap (groupWrites type bytes)).map Prod.snd).countP Item.isValue =
      groups.flatten.length := by
  simp only [countP_groups, countP_isValue_groupWrites, List.length_flatten]

/-- No sequence decodes to more values than were written. -/
theorem length_decode_groupItems_le (size : ℕ) (groups : List (List β)) :
    (decode (groupItems size type bytes groups)).length ≤ groups.flatten.length := by
  calc (decode (groupItems size type bytes groups)).length
      ≤ (groupItems size type bytes groups).countP Item.isValue := length_decode_le_values _
    _ ≤ ((groups.flatMap (groupWrites type bytes)).map Prod.snd).countP Item.isValue :=
        (sublist_groupItems size groups).countP_le
    _ = groups.flatten.length := countP_isValue_groups type bytes groups

theorem length_le_one_of_sum {groups : List (List β)}
    (h : (groups.map List.length).sum ≤ (groups.map fun group => min 1 group.length).sum) :
    ∀ group ∈ groups, group.length ≤ 1 := by
  induction groups with
  | nil => simp
  | cons group rest ih =>
      have hle : (rest.map fun group => min 1 group.length).sum ≤ (rest.map List.length).sum :=
        List.sum_le_sum fun g _ => Nat.min_le_right 1 g.length
      simp only [List.map_cons, List.sum_cons] at h
      intro g hg
      rcases List.mem_cons.mp hg with rfl | hg
      · omega
      · exact ih (by omega) g hg

/-- Only single values that fit come back in full number. -/
theorem single_of_length_decode {size : ℕ} {groups : List (List β)}
    (h : (decode (groupItems size type bytes groups)).length = groups.flatten.length) :
    (∀ group ∈ groups, group.length ≤ 1) ∧ GroupsFit size type bytes groups := by
  constructor
  · apply length_le_one_of_sum
    calc (groups.map List.length).sum
        = (decode (groupItems size type bytes groups)).length := by rw [h, List.length_flatten]
      _ ≤ (groupItems size type bytes groups).countP Item.isControl :=
          length_decode_le_controls _
      _ ≤ ((groups.flatMap (groupWrites type bytes)).map Prod.snd).countP Item.isControl :=
          (sublist_groupItems size groups).countP_le
      _ = (groups.map fun group => min 1 group.length).sum := by
          simp only [countP_groups, countP_isControl_groupWrites]
  · by_cases hfits : 16 + bytesOf (groups.flatMap (groupWrites type bytes)) ≤ size
    · exact Or.inr hfits
    · -- an overflow leaves nothing
      rw [groupItems, pop_writeAll, if_neg hfits] at h
      exact Or.inl (List.length_eq_zero_iff.mp h.symm)

/-- **Groups.**  A sequence decodes to all values written to it exactly when every
group has at most one value and the buffer is large enough. -/
theorem values_decode_groupItems_iff {size : ℕ} {groups : List (List β)} :
    (decode (groupItems size type bytes groups)).map (fun entry => entry.2.2) = groups.flatten ↔
      (∀ group ∈ groups, group.length ≤ 1) ∧ GroupsFit size type bytes groups := by
  constructor
  · intro h
    apply single_of_length_decode
    rw [← h, List.length_map]
  · rintro ⟨hsingle, hfit⟩
    rw [decode_groupItems hsingle hfit, List.map_map]
    exact List.map_id _

/-! ## One control for each value -/

/-- A control header and its value. -/
def addFramed (type : ℕ) (bytes : β → ℕ) (builder : Builder β) (pod : β) : Builder β :=
  writeValue (writeControl builder 0 type) (bytes pod) pod

/-- The bytes of some values with their control headers. -/
def framedBytes (bytes : β → ℕ) (pods : List β) : ℕ :=
  (pods.map fun pod => 8 + podSize (bytes pod)).sum

/-- The values of a sequence that fits, and none of any other. -/
def ifFits (bytes : β → ℕ) (size : ℕ) (pods : List β) : List β :=
  if 16 + framedBytes bytes pods ≤ size then pods else []

/-- The writes of some values with their control headers. -/
def framedWrites (type : ℕ) (bytes : β → ℕ) (pods : List β) : List (ℕ × Item β) :=
  pods.flatMap fun pod => [(8, .control 0 type), (podSize (bytes pod), .value pod)]

@[simp] theorem framedBytes_nil : framedBytes bytes [] = 0 := rfl

@[simp] theorem framedBytes_cons (pod : β) (rest : List β) :
    framedBytes bytes (pod :: rest) = 8 + podSize (bytes pod) + framedBytes bytes rest := by
  simp [framedBytes]

theorem framedBytes_append (first second : List β) :
    framedBytes bytes (first ++ second) = framedBytes bytes first + framedBytes bytes second := by
  rw [framedBytes, List.map_append, List.sum_append]
  rfl

/-- A single value is there if it fits. -/
theorem ifFits_singleton (size : ℕ) (pod : β) :
    ifFits bytes size [pod] = if 24 + podSize (bytes pod) ≤ size then [pod] else [] := by
  have hbytes : 16 + framedBytes bytes [pod] = 24 + podSize (bytes pod) := by
    rw [framedBytes_cons, framedBytes_nil, Nat.add_zero, ← Nat.add_assoc]
  rw [ifFits, hbytes]

theorem ifFits_of_fits {size : ℕ} {pods : List β} (hfits : 16 + framedBytes bytes pods ≤ size) :
    ifFits bytes size pods = pods :=
  if_pos hfits

theorem ifFits_of_overflow {size : ℕ} {pods : List β}
    (hover : size < 16 + framedBytes bytes pods) : ifFits bytes size pods = [] :=
  if_neg (Nat.not_le.mpr hover)

theorem ifFits_sublist (size : ℕ) (pods : List β) : (ifFits bytes size pods).Sublist pods := by
  unfold ifFits
  split
  · exact List.Sublist.refl _
  · exact List.nil_sublist _

theorem foldl_addFramed (pods : List β) (builder : Builder β) :
    pods.foldl (addFramed type bytes) builder =
      writeAll builder (framedWrites type bytes pods) := by
  induction pods generalizing builder with
  | nil => rfl
  | cons pod rest ih =>
      rw [List.foldl_cons, ih]
      rfl

theorem bytesOf_framedWrites (pods : List β) :
    bytesOf (framedWrites type bytes pods) = framedBytes bytes pods := by
  induction pods with
  | nil => rfl
  | cons pod rest ih =>
      rw [framedBytes_cons, ← ih, framedWrites, List.flatMap_cons, bytesOf_append]
      rfl

theorem map_snd_framedWrites (pods : List β) :
    (framedWrites type bytes pods).map Prod.snd =
      (pods.map fun pod => (0, type, pod)).flatMap frame := by
  rw [framedWrites, List.map_flatMap, List.flatMap_map]
  rfl

@[simp] theorem offset_foldl_addFramed (pods : List β) (builder : Builder β) :
    (pods.foldl (addFramed type bytes) builder).offset =
      builder.offset + framedBytes bytes pods := by
  rw [foldl_addFramed, offset_writeAll, bytesOf_framedWrites]

/-- **Frames.**  A sequence decodes to all values, or to none if it does not fit. -/
theorem decode_pop_foldl_addFramed (size : ℕ) (pods : List β) :
    decode (pods.foldl (addFramed type bytes) (pushSequence size)).pop =
      (ifFits bytes size pods).map fun pod => (0, type, pod) := by
  rw [foldl_addFramed, pop_writeAll, bytesOf_framedWrites, map_snd_framedWrites, ifFits]
  split
  · exact decode_framed _
  · rfl

/-- The values that a sequence decodes to. -/
def values (items : List (Item β)) : List β :=
  (decode items).map fun entry => entry.2.2

/-- What comes back of a sequence of single values. -/
theorem values_pop_foldl_addFramed (size : ℕ) (pods : List β) :
    values (pods.foldl (addFramed type bytes) (pushSequence size)).pop =
      ifFits bytes size pods := by
  rw [values, decode_pop_foldl_addFramed, List.map_map]
  exact List.map_id _

end PodBuilder
