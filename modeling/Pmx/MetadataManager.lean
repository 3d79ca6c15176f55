import Pmx.Library.Cxx
import Pmx.Library.Transition

/-!
# pmx-metadata-manager

The manager keeps the set-up of the mixer, a port and a group for each of 32
input channels, in a file and in the metadata store of the session.  At the
start it puts the file's content into the store.  From then on its config writer
applies the events of the store to its copy of the config and writes the file
after every batch that has changed it.

An event names its channel in its key.  The writer takes any key with one of the
two prefixes, reads the rest with `std::stoi` and uses one less than the result
as an index, without a check.
-/

namespace Pmx.MetadataManager

open Cxx

/-- `config::config`. -/
@[ext] structure Config where
  inputChannels : Vector (Option Str) 32
  inputChannelGroups : Vector UInt8 32
  deriving DecidableEq

/-- A config without ports; every channel is in the first group. -/
def defaultConfig : Config :=
  ⟨Vector.replicate 32 none, Vector.replicate 32 1⟩

/-- `CHANNEL_PORT_PREFIX`. -/
def channelPortPrefix : Str := lit "channel_port_"

/-- `CHANNEL_GROUP_PREFIX`. -/
def channelGroupPrefix : Str := lit "channel_group_"

/-- The key of the port of the channel in a slot. -/
def portKey (i : Fin 32) : Str :=
  channelPortPrefix ++ decimal (i.val + 1)

/-- The key of the group of the channel in a slot. -/
def groupKey (i : Fin 32) : Str :=
  channelGroupPrefix ++ decimal (i.val + 1)

/-- The entries of the metadata store for subject 0. -/
abbrev Store := Str → Option Str

/-! ## Start -/

/-- `set_metadata_value_async`: the store gets the value up to its first NUL. -/
def setMetadataValueAsync (store : Store) (key value : Str) : Store :=
  Function.update store (cStr key) (some (cStr value))

/-- The body of the two loops of `set_initial_metadata`, for the value of a slot
if there is one. -/
def setSlot (key : Fin 32 → Str) (value : Fin 32 → Option Str) (store : Store) (i : Fin 32) :
    Store :=
  match value i with
  | some text => setMetadataValueAsync store (key i) text
  | none => store

/-- `set_initial_metadata`: the ports that there are, and all groups. -/
def setInitialMetadata (store : Store) (config : Config) : Store :=
  let ports := (List.finRange 32).foldl
    (setSlot portKey fun i => config.inputChannels.get i) store
  (List.finRange 32).foldl
    (setSlot groupKey fun i => some (decimal (config.inputChannelGroups.get i).toNat)) ports

/-! ## Events -/

/-- `metadata_event`. -/
inductive MetadataEvent
  | update (subject : ℕ) (key type value : Str)
  | deletion (subject : ℕ) (key : Str)
  deriving DecidableEq

/-- The slot of a channel: `channel_id - 1` as an index of an array. -/
def slot (channelId : ℤ) : Except Fault (Fin 32) :=
  if h : 1 ≤ channelId ∧ channelId ≤ 32 then .ok ⟨(channelId - 1).toNat, by omega⟩
  else .error .indexOutOfBounds

/-- The channel number behind a prefix. -/
def channelIdOf (keyPrefix key : Str) : Except Fault ℤ := do
  let suffix ← substrFrom key keyPrefix.length
  stoi suffix

/-- `input_channels[i] = port`. -/
def Config.setPort (config : Config) (i : Fin 32) (port : Option Str) : Config :=
  { config with inputChannels := config.inputChannels.set i port }

/-- `input_channel_groups[i] = group`. -/
def Config.setGroup (config : Config) (i : Fin 32) (group : UInt8) : Config :=
  { config with inputChannelGroups := config.inputChannelGroups.set i group }

/-- The body of the loop over a batch: the config, and whether `changed` is set. -/
def applyEvent (config : Config) : MetadataEvent → Except Fault (Config × Bool)
  | .deletion _ key =>
      if startsWith key channelPortPrefix then do
        let channelId ← channelIdOf channelPortPrefix key
        let i ← slot channelId
        return (config.setPort i none, true)
      -- the key of a group is not looked at
      else return (config, false)
  | .update _ key _ value =>
      if startsWith key channelPortPrefix then do
        let channelId ← channelIdOf channelPortPrefix key
        let i ← slot channelId
        match config.inputChannels.get i with
        | some current =>
            if current ≠ value then return (config.setPort i (some value), true)
            else return (config, false)
        | none => return (config.setPort i (some value), true)
      else if startsWith key channelGroupPrefix then do
        let channelId ← channelIdOf channelGroupPrefix key
        let number ← stoi value
        let i ← slot channelId
        -- the number is stored in a byte
        return (config.setGroup i (UInt8.ofInt number), true)
      else return (config, false)

/-- The loop over a batch. -/
def applyBatch (config : Config) (batch : List MetadataEvent) : Except Fault (Config × Bool) :=
  batch.foldlM (fun current event => do
    let (config, changed) ← applyEvent current.1 event
    return (config, current.2 || changed)) (config, false)

/-! ## Slots -/

@[simp] theorem get_defaultConfig (i : Fin 32) : defaultConfig.inputChannels.get i = none :=
  Vector.getElem_replicate i.isLt

@[simp] theorem get_groups_defaultConfig (i : Fin 32) :
    defaultConfig.inputChannelGroups.get i = 1 :=
  Vector.getElem_replicate i.isLt

@[simp] theorem get_setPort (config : Config) (i j : Fin 32) (port : Option Str) :
    (config.setPort i port).inputChannels.get j =
      if i = j then port else config.inputChannels.get j := by
  simp only [← Fin.val_inj]
  exact Vector.getElem_set i.isLt j.isLt

@[simp] theorem get_setGroup (config : Config) (i j : Fin 32) (group : UInt8) :
    (config.setGroup i group).inputChannelGroups.get j =
      if i = j then group else config.inputChannelGroups.get j := by
  simp only [← Fin.val_inj]
  exact Vector.getElem_set i.isLt j.isLt

theorem Config.ext_slots {first second : Config}
    (hports : ∀ i : Fin 32, first.inputChannels.get i = second.inputChannels.get i)
    (hgroups : ∀ i : Fin 32, first.inputChannelGroups.get i = second.inputChannelGroups.get i) :
    first = second :=
  Config.ext (Vector.ext fun i hi => hports ⟨i, hi⟩) (Vector.ext fun i hi => hgroups ⟨i, hi⟩)

theorem setPort_eq_self_iff {config : Config} {i : Fin 32} {port : Option Str} :
    config.setPort i port = config ↔ config.inputChannels.get i = port := by
  constructor
  · intro h
    rw [← h, get_setPort, if_pos rfl]
  · intro h
    refine Config.ext_slots (fun j => ?_) (fun _ => rfl)
    rw [get_setPort]
    split
    · rename_i hij
      rw [← hij, h]
    · rfl

theorem setGroup_eq_self_iff {config : Config} {i : Fin 32} {group : UInt8} :
    config.setGroup i group = config ↔ config.inputChannelGroups.get i = group := by
  constructor
  · intro h
    rw [← h, get_setGroup, if_pos rfl]
  · intro h
    refine Config.ext_slots (fun _ => rfl) (fun j => ?_)
    rw [get_setGroup]
    split
    · rename_i hij
      rw [← hij, h]
    · rfl

/-! ## Keys -/

theorem slot_eq_ok {channelId : ℤ} {i : Fin 32} :
    slot channelId = .ok i ↔ channelId = i.val + 1 := by
  unfold slot
  constructor
  · intro h
    split at h
    · cases h
      show channelId = ((channelId - 1).toNat : ℤ) + 1
      omega
    · cases h
  · intro h
    have := i.isLt
    rw [dif_pos (by omega)]
    congr
    omega

theorem stoi_slot (i : Fin 32) : stoi (decimal (i.val + 1)) = .ok (i.val + 1 : ℤ) := by
  have := i.isLt
  exact stoi_decimal (by omega)

/-- No key has both prefixes. -/
theorem port_ne_group (first second : Str) :
    channelPortPrefix ++ first ≠ channelGroupPrefix ++ second := by
  intro h
  have hbyte := congrArg (fun key : Str => key[8]?) h
  have hshort : 8 < channelPortPrefix.length ∧ 8 < channelGroupPrefix.length := by decide
  simp only [List.getElem?_append_left hshort.1, List.getElem?_append_left hshort.2] at hbyte
  revert hbyte
  decide

theorem not_startsWith_port (suffix : Str) :
    startsWith (channelGroupPrefix ++ suffix) channelPortPrefix = false := by
  rw [Bool.eq_false_iff, ne_eq, startsWith_iff]
  rintro ⟨rest, h⟩
  exact port_ne_group rest suffix h.symm

theorem portKey_ne_groupKey (i j : Fin 32) : portKey i ≠ groupKey j :=
  port_ne_group _ _

theorem portKey_injective : Function.Injective portKey := by
  intro i j h
  have hdecimal := decimal_injective (List.append_cancel_left h)
  exact Fin.ext (by omega)

theorem groupKey_injective : Function.Injective groupKey := by
  intro i j h
  have hdecimal := decimal_injective (List.append_cancel_left h)
  exact Fin.ext (by omega)

/-! ## Events with a prefix -/

theorem applyEvent_delete_port (config : Config) (subject : ℕ) (suffix : Str) :
    applyEvent config (.deletion subject (channelPortPrefix ++ suffix)) =
      (stoi suffix >>= slot).map fun i => (config.setPort i none, true) := by
  simp only [applyEvent, startsWith_append, if_true, channelIdOf, substrFrom_append, bind,
    Except.bind]
  cases stoi suffix with
  | error fault => rfl
  | ok channelId => cases slot channelId <;> rfl

/-- An update of a port leaves the port with the value. -/
theorem applyEvent_update_port (config : Config) (subject : ℕ) (suffix type value : Str) :
    applyEvent config (.update subject (channelPortPrefix ++ suffix) type value) =
      (stoi suffix >>= slot).map fun i =>
        (config.setPort i (some value), decide (config.inputChannels.get i ≠ some value)) := by
  simp only [applyEvent, startsWith_append, if_true, channelIdOf, substrFrom_append, bind,
    Except.bind]
  cases stoi suffix with
  | error fault => rfl
  | ok channelId =>
      dsimp only
      cases slot channelId with
      | error fault => rfl
      | ok i =>
          simp only [Except.map]
          cases hport : config.inputChannels.get i with
          | none => simp [pure, Except.pure]
          | some current =>
              by_cases hsame : current = value
              · have hkept : config.setPort i (some value) = config :=
                  setPort_eq_self_iff.mpr (by rw [hport, hsame])
                simp [hsame, hkept, pure, Except.pure]
              · simp [hsame, pure, Except.pure]

theorem applyEvent_update_group (config : Config) (subject : ℕ) (suffix type value : Str) :
    applyEvent config (.update subject (channelGroupPrefix ++ suffix) type value) =
      (do
        let channelId ← stoi suffix
        let number ← stoi value
        let i ← slot channelId
        return (config.setGroup i (UInt8.ofInt number), true)) := by
  simp only [applyEvent, not_startsWith_port, startsWith_append, if_true, channelIdOf,
    substrFrom_append]
  rfl

/-! ## Batches -/

/-- The flag of a batch is only ever set. -/
theorem foldlM_applyEvent (batch : List MetadataEvent) (config : Config) (flag : Bool) :
    batch.foldlM (fun (current : Config × Bool) event => do
        let (config, changed) ← applyEvent current.1 event
        return (config, current.2 || changed)) (config, flag) =
      (applyBatch config batch).map fun result => (result.1, flag || result.2) := by
  unfold applyBatch
  induction batch generalizing config flag with
  | nil => simp [pure, Except.pure, Except.map]
  | cons event rest ih =>
      rw [List.foldlM_cons, List.foldlM_cons]
      cases hevent : applyEvent config event with
      | error fault => rfl
      | ok result =>
          simp only [bind, Except.bind, pure, Except.pure] at ih ⊢
          rw [ih result.1 (flag || result.2), ih result.1 (false || result.2)]
          cases List.foldlM (m := Except Fault) _ (result.1, false) rest with
          | error fault => rfl
          | ok final => simp [Except.map, Bool.or_assoc]

theorem applyBatch_cons (config : Config) (event : MetadataEvent) (rest : List MetadataEvent) :
    applyBatch config (event :: rest) = do
      let first ← applyEvent config event
      let result ← applyBatch first.1 rest
      return (result.1, first.2 || result.2) := by
  rw [applyBatch, List.foldlM_cons]
  cases applyEvent config event with
  | error fault => rfl
  | ok first =>
      show List.foldlM _ (first.1, false || first.2) rest = _
      rw [foldlM_applyEvent, Bool.false_or]
      show _ = applyBatch first.1 rest >>= _
      cases applyBatch first.1 rest <;> rfl

end Pmx.MetadataManager
