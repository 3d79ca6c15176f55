import Mathlib.Data.List.AList
import Mathlib.Data.List.Dedup
import Mathlib.Data.List.Sort
import Pmx.MetadataManager

/-!
# `GrpcService`

`SetupInputPort` and `ClearInputPort` write the port and the group of a channel
into the metadata, under keys that end in the number of the channel.
`ListInputPortsSetup` goes through the metadata in whatever order it comes and
sorts the channels it finds.

What is listed is what was last written (`listInputPortsSetup_iff`), except that
a port travels as a C string and is cut at its first NUL.
-/

namespace Pmx.GrpcService

open Cxx MetadataManager

/-- The metadata of subject 0. -/
abbrev Metadata := AList fun _ : Str => Str

/-- What an iterator over the metadata yields: a key with its value. -/
abbrev MetadataItem := (_ : Str) × Str

/-! ## Requests -/

/-- `set_metadata_value`. -/
def setMetadataValue (metadata : Metadata) (key value : Str) : Metadata :=
  metadata.insert (cStr key) (cStr value)

/-- `clear_metadata_value`. -/
def clearMetadataValue (metadata : Metadata) (key : Str) : Metadata :=
  metadata.erase (cStr key)

/-- The key of the port of a channel. -/
def channelPortKey (channelId : ℕ) : Str :=
  channelPortPrefix ++ decimal channelId

/-- The key of the group of a channel. -/
def channelGroupKey (channelId : ℕ) : Str :=
  channelGroupPrefix ++ decimal channelId

/-- `SetupInputPort`: the port and the group are written if the request has them. -/
def setupInputPort (metadata : Metadata) (channelId : ℕ) (port : Option Str)
    (groupChannelId : Option ℕ) : Metadata :=
  let metadata :=
    match port with
    | some port => setMetadataValue metadata (channelPortKey channelId) port
    | none => metadata
  match groupChannelId with
  | some group => setMetadataValue metadata (channelGroupKey channelId) (decimal group)
  | none => metadata

/-- `ClearInputPort`: the group stays. -/
def clearInputPort (metadata : Metadata) (channelId : ℕ) : Metadata :=
  clearMetadataValue metadata (channelPortKey channelId)

/-- The requests that write, and the writes of others: a new value for a key, or
its removal. -/
inductive Request
  | setup (channelId : ℕ) (port : Option Str) (groupChannelId : Option ℕ)
  | clear (channelId : ℕ)
  | other (key : Str) (value : Option Str)
  deriving DecidableEq

/-- The metadata after a request or the write of another. -/
def handle (metadata : Metadata) : Request → Metadata
  | .setup channelId port groupChannelId => setupInputPort metadata channelId port groupChannelId
  | .clear channelId => clearInputPort metadata channelId
  | .other key (some value) => metadata.insert key value
  | .other key none => metadata.erase key

/-- The metadata after some requests, from an empty one. -/
def metadataAfter (requests : List Request) : Metadata :=
  requests.foldl handle ∅

/-! ## Listing -/

/-- `channel_id_to_port` and `channel_id_to_group_channel_id`. -/
structure Maps where
  channelIdToPort : AList fun _ : ℕ => Str
  channelIdToGroupChannelId : AList fun _ : ℕ => ℕ

/-- The conversion of an `int` to `size_t`. -/
def sizeOfInt (n : ℤ) : ℕ :=
  (n % 18446744073709551616).toNat

/-- The body of the loop over the metadata. -/
def readItem (maps : Maps) (item : MetadataItem) : Except Fault Maps :=
  if startsWith item.1 channelPortPrefix then do
    let channelId ← channelIdOf channelPortPrefix item.1
    return { maps with
      channelIdToPort := maps.channelIdToPort.insert (sizeOfInt channelId) item.2 }
  else if startsWith item.1 channelGroupPrefix then do
    let channelId ← channelIdOf channelGroupPrefix item.1
    let group ← stoi item.2
    return { maps with
      channelIdToGroupChannelId :=
        maps.channelIdToGroupChannelId.insert (sizeOfInt channelId) (sizeOfInt group) }
  else return maps

/-- An entry of the response. -/
structure Setup where
  channelId : ℕ
  port : Option Str
  groupChannelId : Option ℕ
  deriving DecidableEq

/-- `sorted_keys`. -/
def sortedKeys (maps : Maps) : List ℕ :=
  (maps.channelIdToPort.keys ++ maps.channelIdToGroupChannelId.keys).dedup.insertionSort (· ≤ ·)

/-- `ListInputPortsSetup`: the channels in the order of their ids. -/
def listInputPortsSetup (metadata : List MetadataItem) : Except Fault (List Setup) := do
  let maps ← metadata.foldlM readItem ⟨∅, ∅⟩
  return (sortedKeys maps).map fun key =>
    ⟨key, maps.channelIdToPort.lookup key, maps.channelIdToGroupChannelId.lookup key⟩

/-! ## What was written last -/

/-- The port of a channel after a request. -/
def portAfter (channelId : ℕ) (port : Option Str) : Request → Option Str
  | .setup other (some new) _ => if other = channelId then some new else port
  | .clear other => if other = channelId then none else port
  | _ => port

/-- The last port set for a channel and not cleared since. -/
def lastPort (requests : List Request) (channelId : ℕ) : Option Str :=
  requests.foldl (portAfter channelId) none

/-- The group of a channel after a request. -/
def groupAfter (channelId : ℕ) (group : Option ℕ) : Request → Option ℕ
  | .setup other _ (some new) => if other = channelId then some new else group
  | _ => group

/-- The last group set for a channel. -/
def lastGroup (requests : List Request) (channelId : ℕ) : Option ℕ :=
  requests.foldl (groupAfter channelId) none

/-- Numbers are in the range of an `int`, and others keep to their own keys. -/
def Valid : Request → Prop
  | .setup channelId _ groupChannelId =>
      channelId ≤ 2147483647 ∧ ∀ group ∈ groupChannelId, group ≤ 2147483647
  | .clear channelId => channelId ≤ 2147483647
  | .other key _ =>
      startsWith key channelPortPrefix = false ∧ startsWith key channelGroupPrefix = false

/-! ## The metadata after some requests -/

theorem cStr_channelPortKey (channelId : ℕ) :
    cStr (channelPortKey channelId) = channelPortKey channelId :=
  cStr_append_decimal (by decide) _

theorem cStr_channelGroupKey (channelId : ℕ) :
    cStr (channelGroupKey channelId) = channelGroupKey channelId :=
  cStr_append_decimal (by decide) _

theorem channelPortKey_inj {m n : ℕ} : channelPortKey m = channelPortKey n ↔ m = n := by
  rw [channelPortKey, channelPortKey, List.append_cancel_left_eq, decimal_injective.eq_iff]

theorem channelGroupKey_inj {m n : ℕ} : channelGroupKey m = channelGroupKey n ↔ m = n := by
  rw [channelGroupKey, channelGroupKey, List.append_cancel_left_eq, decimal_injective.eq_iff]

theorem channelPortKey_ne_group (m n : ℕ) : channelPortKey m ≠ channelGroupKey n :=
  port_ne_group _ _

/-- An item that the loop over the metadata can read. -/
inductive Readable : MetadataItem → Prop
  | port (channelId : ℕ) (port : Str) (h : channelId ≤ 2147483647) :
      Readable ⟨channelPortKey channelId, port⟩
  | group (channelId group : ℕ) (h : channelId ≤ 2147483647) (hgroup : group ≤ 2147483647) :
      Readable ⟨channelGroupKey channelId, decimal group⟩
  | other (key value : Str) (hport : startsWith key channelPortPrefix = false)
      (hgroup : startsWith key channelGroupPrefix = false) : Readable ⟨key, value⟩

theorem lookup_insert_eq {α β : Type} [DecidableEq α] (entries : AList fun _ : α => β) (key : α)
    (value : β) (k : α) :
    (entries.insert key value).lookup k = if k = key then some value else entries.lookup k := by
  by_cases hk : k = key
  · subst hk
    rw [AList.lookup_insert, if_pos rfl]
  · rw [AList.lookup_insert_ne hk, if_neg hk]

theorem lookup_erase_eq (metadata : Metadata) (key k : Str) :
    (metadata.erase key).lookup k = if k = key then none else metadata.lookup k := by
  by_cases hk : k = key
  · subst hk
    rw [AList.lookup_erase, if_pos rfl]
  · rw [AList.lookup_erase_ne hk, if_neg hk]

/-- A new value under the key of one channel. -/
theorem update_map_eq {α : Type} {key : ℕ → Str} (hkey : ∀ {m n}, key m = key n ↔ m = n)
    (encode : α → Str) (values : ℕ → Option α) (channelId : ℕ) (value : Option α) (id : ℕ) :
    (Function.update values channelId value id).map encode =
      if key id = key channelId then value.map encode else (values id).map encode := by
  rw [Function.update_apply, apply_ite (Option.map encode)]
  exact if_congr hkey.symm rfl rfl

theorem mem_entries_insert {metadata : Metadata} {key value : Str} {item : MetadataItem}
    (h : item ∈ (metadata.insert key value).entries) :
    item = ⟨key, value⟩ ∨ item ∈ metadata.entries := by
  rw [AList.entries_insert, List.mem_cons] at h
  exact h.imp_right fun hrest => (List.kerase_sublist key metadata.entries).subset hrest

theorem mem_entries_erase {metadata : Metadata} {key : Str} {item : MetadataItem}
    (h : item ∈ (metadata.erase key).entries) : item ∈ metadata.entries :=
  (List.kerase_sublist key metadata.entries).subset h

/-- The metadata holds some ports and groups, and besides them only keys that
are none of the service's. -/
structure Holds (ports : ℕ → Option Str) (groups : ℕ → Option ℕ) (metadata : Metadata) :
    Prop where
  port : ∀ channelId, metadata.lookup (channelPortKey channelId) = (ports channelId).map cStr
  group : ∀ channelId, metadata.lookup (channelGroupKey channelId) = (groups channelId).map decimal
  readable : ∀ item ∈ metadata.entries, Readable item

variable {ports : ℕ → Option Str} {groups : ℕ → Option ℕ} {metadata : Metadata}

theorem Holds.setPort (h : Holds ports groups metadata) {channelId : ℕ}
    (hchannel : channelId ≤ 2147483647) (port : Str) :
    Holds (Function.update ports channelId (some port)) groups
      (setMetadataValue metadata (channelPortKey channelId) port) := by
  unfold setMetadataValue
  rw [cStr_channelPortKey]
  constructor
  case port =>
    intro id
    rw [lookup_insert_eq, h.port, update_map_eq channelPortKey_inj]
    rfl
  case group =>
    intro id
    rw [lookup_insert_eq, if_neg (channelPortKey_ne_group channelId id).symm, h.group]
  case readable =>
    intro item hitem
    rcases mem_entries_insert hitem with rfl | hold
    · exact .port channelId _ hchannel
    · exact h.readable item hold

theorem Holds.clearPort (h : Holds ports groups metadata) (channelId : ℕ) :
    Holds (Function.update ports channelId none) groups (clearInputPort metadata channelId) := by
  unfold clearInputPort clearMetadataValue
  rw [cStr_channelPortKey]
  constructor
  case port =>
    intro id
    rw [lookup_erase_eq, h.port, update_map_eq channelPortKey_inj]
    rfl
  case group =>
    intro id
    rw [lookup_erase_eq, if_neg (channelPortKey_ne_group channelId id).symm, h.group]
  case readable => exact fun item hitem => h.readable item (mem_entries_erase hitem)

theorem Holds.setGroup (h : Holds ports groups metadata) {channelId group : ℕ}
    (hchannel : channelId ≤ 2147483647) (hgroup : group ≤ 2147483647) :
    Holds ports (Function.update groups channelId (some group))
      (setMetadataValue metadata (channelGroupKey channelId) (decimal group)) := by
  unfold setMetadataValue
  rw [cStr_channelGroupKey, cStr_decimal]
  constructor
  case port =>
    intro id
    rw [lookup_insert_eq, if_neg (channelPortKey_ne_group id channelId), h.port]
  case group =>
    intro id
    rw [lookup_insert_eq, h.group, update_map_eq channelGroupKey_inj]
    rfl
  case readable =>
    intro item hitem
    rcases mem_entries_insert hitem with rfl | hold
    · exact .group channelId group hchannel hgroup
    · exact h.readable item hold

/-- A key with neither prefix is no key of the service. -/
theorem other_ne_keys {key : Str} (hport : startsWith key channelPortPrefix = false)
    (hgroup : startsWith key channelGroupPrefix = false) (channelId : ℕ) :
    channelPortKey channelId ≠ key ∧ channelGroupKey channelId ≠ key := by
  constructor
  · rintro rfl
    rw [channelPortKey, startsWith_append] at hport
    cases hport
  · rintro rfl
    rw [channelGroupKey, startsWith_append] at hgroup
    cases hgroup

theorem Holds.setOther (h : Holds ports groups metadata) {key : Str}
    (hport : startsWith key channelPortPrefix = false)
    (hgroup : startsWith key channelGroupPrefix = false) (value : Str) :
    Holds ports groups (metadata.insert key value) := by
  have hkeys := other_ne_keys hport hgroup
  refine ⟨fun id => ?_, fun id => ?_, fun item hitem => ?_⟩
  · rw [lookup_insert_eq, if_neg (hkeys id).1, h.port]
  · rw [lookup_insert_eq, if_neg (hkeys id).2, h.group]
  · rcases mem_entries_insert hitem with rfl | hold
    · exact .other key value hport hgroup
    · exact h.readable item hold

theorem Holds.clearOther (h : Holds ports groups metadata) {key : Str}
    (hport : startsWith key channelPortPrefix = false)
    (hgroup : startsWith key channelGroupPrefix = false) :
    Holds ports groups (metadata.erase key) := by
  have hkeys := other_ne_keys hport hgroup
  refine ⟨fun id => ?_, fun id => ?_, fun item hitem => h.readable item (mem_entries_erase hitem)⟩
  · rw [lookup_erase_eq, if_neg (hkeys id).1, h.port]
  · rw [lookup_erase_eq, if_neg (hkeys id).2, h.group]

theorem portAfter_setup (ports : ℕ → Option Str) (channelId : ℕ) (port : Str)
    (groupChannelId : Option ℕ) :
    (fun id => portAfter id (ports id) (.setup channelId (some port) groupChannelId)) =
      Function.update ports channelId (some port) := by
  funext id
  rw [Function.update_apply, portAfter]
  exact if_congr eq_comm rfl rfl

theorem portAfter_clear (ports : ℕ → Option Str) (channelId : ℕ) :
    (fun id => portAfter id (ports id) (.clear channelId)) =
      Function.update ports channelId none := by
  funext id
  rw [Function.update_apply, portAfter]
  exact if_congr eq_comm rfl rfl

theorem groupAfter_setup (groups : ℕ → Option ℕ) (channelId : ℕ) (port : Option Str)
    (group : ℕ) :
    (fun id => groupAfter id (groups id) (.setup channelId port (some group))) =
      Function.update groups channelId (some group) := by
  funext id
  rw [Function.update_apply, groupAfter]
  exact if_congr eq_comm rfl rfl

/-- One request. -/
theorem Holds.handle (h : Holds ports groups metadata) {request : Request}
    (hvalid : Valid request) :
    Holds (fun id => portAfter id (ports id) request) (fun id => groupAfter id (groups id) request)
      (handle metadata request) := by
  cases request with
  | setup channelId port groupChannelId =>
      obtain ⟨hchannel, hgroups⟩ := hvalid
      -- the port is written first
      have hport : Holds (fun id => portAfter id (ports id) (.setup channelId port groupChannelId))
          groups (match port with
            | some port => setMetadataValue metadata (channelPortKey channelId) port
            | none => metadata) := by
        cases port with
        | none => exact h
        | some port =>
            rw [portAfter_setup]
            exact h.setPort hchannel port
      cases groupChannelId with
      | none => exact hport
      | some group =>
          rw [groupAfter_setup]
          exact hport.setGroup hchannel (hgroups group rfl)
  | clear channelId =>
      rw [portAfter_clear]
      exact h.clearPort channelId
  | other key value =>
      cases value with
      | none => exact h.clearOther hvalid.1 hvalid.2
      | some value => exact h.setOther hvalid.1 hvalid.2 value

theorem holds_metadataAfter {requests : List Request} (hvalid : ∀ r ∈ requests, Valid r) :
    Holds (lastPort requests) (lastGroup requests) (metadataAfter requests) := by
  induction requests using List.reverseRecOn with
  | nil => exact ⟨fun _ => rfl, fun _ => rfl, fun item h => by cases h⟩
  | append_singleton requests request ih =>
      have hbefore := ih fun r hr => hvalid r (List.mem_append_left _ hr)
      have hafter := hbefore.handle (hvalid request (by simp))
      unfold lastPort lastGroup metadataAfter at hafter ⊢
      simpa only [List.foldl_append, List.foldl_cons, List.foldl_nil] using hafter

/-! ## Reading the metadata -/

theorem channelIdOf_key (keyPrefix : Str) {channelId : ℕ} (h : channelId ≤ 2147483647) :
    channelIdOf keyPrefix (keyPrefix ++ decimal channelId) = .ok channelId := by
  rw [channelIdOf, substrFrom_append]
  exact stoi_decimal h

theorem sizeOfInt_natCast {n : ℕ} (h : n ≤ 2147483647) : sizeOfInt n = n := by
  unfold sizeOfInt
  omega

/-- What one item adds to the maps. -/
structure Adds (item : MetadataItem) (maps maps' : Maps) : Prop where
  port : ∀ id, maps'.channelIdToPort.lookup id =
    if channelPortKey id = item.1 then some item.2 else maps.channelIdToPort.lookup id
  group : ∀ id, maps'.channelIdToGroupChannelId.lookup id =
    if channelGroupKey id = item.1 then some (natOfDigits item.2)
    else maps.channelIdToGroupChannelId.lookup id

theorem readItem_adds {item : MetadataItem} (h : Readable item) (maps : Maps) :
    ∃ maps', readItem maps item = .ok maps' ∧ Adds item maps maps' := by
  cases h with
  | port channelId port hchannel =>
      refine ⟨{ maps with channelIdToPort := maps.channelIdToPort.insert channelId port },
        ?_, ?_, ?_⟩
      · simp only [readItem, channelPortKey, startsWith_append, if_true,
          channelIdOf_key _ hchannel, bind, Except.bind, sizeOfInt_natCast hchannel]
        rfl
      · intro id
        rw [if_congr channelPortKey_inj rfl rfl]
        exact lookup_insert_eq ..
      · intro id
        rw [if_neg (channelPortKey_ne_group channelId id).symm]
  | group channelId group hchannel hgroup =>
      refine ⟨{ maps with channelIdToGroupChannelId :=
        maps.channelIdToGroupChannelId.insert channelId group }, ?_, ?_, ?_⟩
      · simp only [readItem, channelGroupKey, not_startsWith_port, startsWith_append,
          channelIdOf_key _ hchannel, stoi_decimal hgroup, bind, Except.bind,
          sizeOfInt_natCast hchannel, sizeOfInt_natCast hgroup]
        rfl
      · intro id
        rw [if_neg (channelPortKey_ne_group id channelId)]
      · intro id
        rw [if_congr channelGroupKey_inj rfl rfl, natOfDigits_decimal]
        exact lookup_insert_eq ..
  | other key value hport hgroup =>
      have hkeys := other_ne_keys hport hgroup
      refine ⟨maps, ?_, ?_, ?_⟩
      · simp only [readItem, hport, hgroup]
        rfl
      · intro id
        rw [if_neg (hkeys id).1]
      · intro id
        rw [if_neg (hkeys id).2]

/-- The loop over the metadata.  No key comes twice, so the order does not
matter. -/
theorem foldlM_readItem {items : List MetadataItem} (hnodup : items.NodupKeys)
    (hreadable : ∀ item ∈ items, Readable item) (maps : Maps) :
    ∃ maps', items.foldlM readItem maps = .ok maps' ∧
      (∀ id, maps'.channelIdToPort.lookup id =
        (items.dlookup (channelPortKey id)).or (maps.channelIdToPort.lookup id)) ∧
      ∀ id, maps'.channelIdToGroupChannelId.lookup id =
        ((items.dlookup (channelGroupKey id)).map natOfDigits).or
          (maps.channelIdToGroupChannelId.lookup id) := by
  induction items generalizing maps with
  | nil => exact ⟨maps, rfl, fun _ => rfl, fun _ => rfl⟩
  | cons item rest ih =>
      obtain ⟨hfresh, hrest⟩ := List.nodupKeys_cons.mp hnodup
      obtain ⟨middle, hmiddle, hadds⟩ := readItem_adds (hreadable item (by simp)) maps
      obtain ⟨maps', hmaps', hports, hgroups⟩ :=
        ih hrest (fun other h => hreadable other (List.mem_cons_of_mem _ h)) middle
      have hlookup : ∀ key, (rest.dlookup key).or (if key = item.1 then some item.2 else none) =
          (item :: rest).dlookup key := by
        intro key
        by_cases hkey : key = item.1
        · subst hkey
          rw [if_pos rfl, List.dlookup_eq_none.mpr hfresh]
          exact (List.dlookup_cons_eq rest item.1 item.2).symm
        · rw [if_neg hkey, Option.or_none, List.dlookup_cons_ne _ item hkey]
      refine ⟨maps', ?_, fun id => ?_, fun id => ?_⟩
      · rw [List.foldlM_cons, hmiddle]
        exact hmaps'
      · rw [hports, hadds.port, ← hlookup]
        split <;> cases rest.dlookup (channelPortKey id) <;> rfl
      · rw [hgroups, hadds.group, ← hlookup]
        split <;> cases rest.dlookup (channelGroupKey id) <;> rfl

/-! ## The response -/

theorem mem_sortedKeys (maps : Maps) (id : ℕ) :
    id ∈ sortedKeys maps ↔ maps.channelIdToPort.lookup id ≠ none ∨
      maps.channelIdToGroupChannelId.lookup id ≠ none := by
  calc id ∈ sortedKeys maps
      ↔ id ∈ maps.channelIdToPort.keys ∨ id ∈ maps.channelIdToGroupChannelId.keys := by
        rw [sortedKeys, List.mem_insertionSort, List.mem_dedup, List.mem_append]
    _ ↔ (maps.channelIdToPort.lookup id).isSome ∨
          (maps.channelIdToGroupChannelId.lookup id).isSome := by
        rw [← AList.mem_keys, ← AList.mem_keys, ← AList.lookup_isSome, ← AList.lookup_isSome]
    _ ↔ maps.channelIdToPort.lookup id ≠ none ∨
          maps.channelIdToGroupChannelId.lookup id ≠ none := by
        rw [Option.isSome_iff_ne_none, Option.isSome_iff_ne_none]

/-- The keys come once each and in increasing order. -/
theorem sortedKeys_increasing (maps : Maps) : (sortedKeys maps).Pairwise (· < ·) := by
  have hsorted : (sortedKeys maps).Pairwise (· ≤ ·) := List.pairwise_insertionSort _ _
  have hnodup : (sortedKeys maps).Pairwise (· ≠ ·) :=
    (List.perm_insertionSort _ _).nodup_iff.mpr (List.nodup_dedup _)
  exact hsorted.imp₂ (fun _ _ hle hne => lt_of_le_of_ne hle hne) hnodup

/-- **Read your writes.**  Whatever the order in which the metadata comes, the
response has the channels in increasing order, and exactly the entries made of
the last port, as a C string, and the last group. -/
theorem listInputPortsSetup_iff {requests : List Request} (hvalid : ∀ r ∈ requests, Valid r)
    {items : List MetadataItem} (hitems : items.Perm (metadataAfter requests).entries) :
    ∃ setups, listInputPortsSetup items = .ok setups ∧
      (setups.map Setup.channelId).Pairwise (· < ·) ∧
      ∀ setup, setup ∈ setups ↔
        (lastPort requests setup.channelId ≠ none ∨ lastGroup requests setup.channelId ≠ none) ∧
          setup.port = (lastPort requests setup.channelId).map cStr ∧
          setup.groupChannelId = lastGroup requests setup.channelId := by
  have hholds := holds_metadataAfter hvalid
  have hnodup : items.NodupKeys :=
    (List.perm_nodupKeys hitems).mpr (metadataAfter requests).nodupKeys
  obtain ⟨maps, hmaps, hports, hgroups⟩ := foldlM_readItem hnodup
    (fun item h => hholds.readable item (hitems.mem_iff.mp h)) ⟨∅, ∅⟩
  have hlookup : ∀ key, items.dlookup key = (metadataAfter requests).lookup key :=
    fun key => List.perm_dlookup key hnodup hitems
  have hport : ∀ id, maps.channelIdToPort.lookup id = (lastPort requests id).map cStr := by
    intro id
    calc maps.channelIdToPort.lookup id
        = items.dlookup (channelPortKey id) := (hports id).trans Option.or_none
      _ = (lastPort requests id).map cStr := by rw [hlookup, hholds.port]
  have hgroup : ∀ id, maps.channelIdToGroupChannelId.lookup id = lastGroup requests id := by
    intro id
    have hdigits : ∀ group : Option ℕ, (group.map decimal).map natOfDigits = group := by
      intro group
      cases group with
      | none => rfl
      | some group => exact congrArg some (natOfDigits_decimal group)
    calc maps.channelIdToGroupChannelId.lookup id
        = (items.dlookup (channelGroupKey id)).map natOfDigits := (hgroups id).trans Option.or_none
      _ = ((lastGroup requests id).map decimal).map natOfDigits := by rw [hlookup, hholds.group]
      _ = lastGroup requests id := hdigits _
  refine ⟨_, by rw [listInputPortsSetup, hmaps]; rfl, ?_, ?_⟩
  · rw [List.map_map]
    exact (List.map_id _).symm ▸ sortedKeys_increasing maps
  · rintro ⟨id, port, group⟩
    simp only [List.mem_map, Setup.mk.injEq, mem_sortedKeys, hport, hgroup]
    constructor
    · rintro ⟨key, hkey, rfl, rfl, rfl⟩
      exact ⟨by simpa using hkey, rfl, rfl⟩
    · rintro ⟨hkey, rfl, rfl⟩
      exact ⟨id, by simpa using hkey, rfl, rfl, rfl⟩

/-- A port is set, replaced, and a group is set for a channel without a port. -/
def session : List Request :=
  [.setup 2 (some (lit "capture_1")) (some 3), .setup 10 none (some 1), .clear 10,
    .other (lit "target.node") (some (lit "x")), .setup 2 (some (lit "capture_2")) none]

theorem listInputPortsSetup_iff_session :
    ∃ setups, listInputPortsSetup (metadataAfter session).entries = .ok setups ∧
      (⟨2, some (lit "capture_2"), some 3⟩ : Setup) ∈ setups ∧
      (⟨10, none, some 1⟩ : Setup) ∈ setups := by
  have hvalid : ∀ r ∈ session, Valid r := by
    simp only [session, List.forall_mem_cons, Valid]
    exact ⟨by simp, by simp, by simp, by decide, by simp, by simp⟩
  obtain ⟨setups, hsetups, _, hmem⟩ := listInputPortsSetup_iff hvalid (List.Perm.refl _)
  refine ⟨setups, hsetups, (hmem _).mpr ?_, (hmem _).mpr ?_⟩ <;> decide

/-- A port with a NUL is not listed as it was set. -/
theorem port_cut_at_nul :
    ¬ ∀ requests, (∀ r ∈ requests, Valid r) →
      ∀ items : List MetadataItem, items.Perm (metadataAfter requests).entries →
        ∃ setups, listInputPortsSetup items = .ok setups ∧
          ∀ setup ∈ setups, setup.port = lastPort requests setup.channelId := by
  intro h
  have hvalid : ∀ r ∈ [Request.setup 1 (some [97, 0, 98]) none], Valid r := by
    simp [Valid]
  obtain ⟨setups, hsetups, hport⟩ := h _ hvalid _ (List.Perm.refl _)
  obtain ⟨setups', hsetups', _, hmem⟩ := listInputPortsSetup_iff hvalid (List.Perm.refl _)
  rw [hsetups] at hsetups'
  cases hsetups'
  have hcut : (⟨1, some [97], none⟩ : Setup) ∈ setups := (hmem _).mpr (by decide)
  exact absurd (hport _ hcut) (by decide)

end Pmx.GrpcService
