import Pmx.MetadataManager

/-!
# The start of pmx-metadata-manager

`set_initial_metadata` writes the config into a store that may hold keys of an
earlier session, and the config writer starts with the same config.  Every group
is written.  A port is written only if the config has one, so that the key of a
port the config does not have stays as it was.
-/

namespace Pmx.MetadataManager

open Cxx

/-- The store and the config of the writer after the start. -/
def startUp (store : Store) (config : Config) : Store × Config :=
  (setInitialMetadata store config, config)

/-- Store and config agree on the 64 keys, and every group has its key. -/
structure Agree (store : Store) (config : Config) : Prop where
  port : ∀ i : Fin 32, store (portKey i) = config.inputChannels.get i
  group : ∀ i : Fin 32, store (groupKey i) = some (decimal (config.inputChannelGroups.get i).toNat)

/-! ## Keys and values as C strings -/

theorem cStr_portKey (i : Fin 32) : cStr (portKey i) = portKey i :=
  cStr_append_decimal (by decide) _

theorem cStr_groupKey (i : Fin 32) : cStr (groupKey i) = groupKey i :=
  cStr_append_decimal (by decide) _

/-! ## The two loops -/

variable {key : Fin 32 → Str}

theorem setSlot_apply (hcStr : ∀ i, cStr (key i) = key i) (value : Fin 32 → Option Str)
    (store : Store) (j : Fin 32) (other : Str) :
    setSlot key value store j other =
      if other = key j then ((value j).map cStr).or (store other) else store other := by
  unfold setSlot
  cases hvalue : value j with
  | none => simp
  | some text => simp [setMetadataValueAsync, hcStr, Function.update_apply]

/-- A loop leaves all keys alone that are not those of its slots. -/
theorem foldl_setSlot_other (hcStr : ∀ i, cStr (key i) = key i) (value : Fin 32 → Option Str)
    {slots : List (Fin 32)} (store : Store) {other : Str} (hother : ∀ i ∈ slots, other ≠ key i) :
    slots.foldl (setSlot key value) store other = store other := by
  induction slots generalizing store with
  | nil => rfl
  | cons j rest ih =>
      rw [List.foldl_cons, ih _ fun i hi => hother i (List.mem_cons_of_mem _ hi),
        setSlot_apply hcStr, if_neg (hother j (List.mem_cons_self ..))]

/-- It gives them their values, where they have one. -/
theorem foldl_setSlot_key (hkey : Function.Injective key) (hcStr : ∀ i, cStr (key i) = key i)
    (value : Fin 32 → Option Str) {slots : List (Fin 32)} (store : Store) {i : Fin 32}
    (hi : i ∈ slots) :
    slots.foldl (setSlot key value) store (key i) =
      ((value i).map cStr).or (store (key i)) := by
  induction slots generalizing store with
  | nil => cases hi
  | cons j rest ih =>
      rw [List.foldl_cons]
      by_cases hrest : i ∈ rest
      · rw [ih _ hrest, setSlot_apply hcStr]
        -- the later write of the same slot writes the same
        by_cases hij : key i = key j
        · rw [if_pos hij, ← hkey hij]
          cases value i <;> rfl
        · rw [if_neg hij]
      · have hij : i = j := (List.mem_cons.mp hi).resolve_right hrest
        have hother : ∀ k ∈ rest, key i ≠ key k := by
          intro k hk hsame
          rw [hkey hsame] at hrest
          exact hrest hk
        rw [foldl_setSlot_other hcStr value _ hother, setSlot_apply hcStr, hij, if_pos rfl]

theorem setInitialMetadata_port (store : Store) (config : Config) (i : Fin 32) :
    setInitialMetadata store config (portKey i) =
      ((config.inputChannels.get i).map cStr).or (store (portKey i)) := by
  rw [setInitialMetadata,
    foldl_setSlot_other cStr_groupKey _ _ fun j _ => portKey_ne_groupKey i j,
    foldl_setSlot_key portKey_injective cStr_portKey _ _ (List.mem_finRange i)]

theorem setInitialMetadata_group (store : Store) (config : Config) (i : Fin 32) :
    setInitialMetadata store config (groupKey i) =
      some (decimal (config.inputChannelGroups.get i).toNat) := by
  rw [setInitialMetadata,
    foldl_setSlot_key groupKey_injective cStr_groupKey _ _ (List.mem_finRange i),
    Option.map_some, cStr_decimal]
  rfl

/-- **The start** leaves store and config in agreement exactly if the store held no
port that the config does not have, and no port has a NUL in its name. -/
theorem startUp_agree_iff (store : Store) (config : Config) :
    Agree (startUp store config).1 (startUp store config).2 ↔
      (∀ i : Fin 32, config.inputChannels.get i = none → store (portKey i) = none) ∧
        ∀ (i : Fin 32) port, config.inputChannels.get i = some port → (0 : UInt8) ∉ port := by
  show Agree (setInitialMetadata store config) config ↔ _
  constructor
  · rintro ⟨hports, _⟩
    constructor
    · intro i habsent
      have hport := hports i
      rw [setInitialMetadata_port, habsent] at hport
      exact hport
    · intro i port hpresent
      have hport := hports i
      rw [setInitialMetadata_port, hpresent] at hport
      exact cStr_eq_self_iff.mp (Option.some.inj hport)
  · rintro ⟨habsent, hnul⟩
    refine ⟨fun i => ?_, setInitialMetadata_group store config⟩
    rw [setInitialMetadata_port]
    cases hchannel : config.inputChannels.get i with
    | none => exact habsent i hchannel
    | some port =>
        rw [Option.map_some, cStr_eq_self_iff.mpr (hnul i port hchannel)]
        rfl

/-- The port of an earlier session. -/
def leftoverStore : Store :=
  Function.update (fun _ => none) (portKey 0) (some (lit "capture_1"))

/-- It survives the start, although the config has no port for the channel. -/
theorem leftover_port_kept :
    ¬ Agree (startUp leftoverStore defaultConfig).1 (startUp leftoverStore defaultConfig).2 := by
  intro hagree
  have hagree : Agree (setInitialMetadata leftoverStore defaultConfig) defaultConfig := hagree
  have hport := hagree.port 0
  rw [setInitialMetadata_port, get_defaultConfig, leftoverStore, Function.update_self] at hport
  cases hport

end Pmx.MetadataManager
