import Pmx.GrpcService
import Pmx.MetadataManager.ConfigFile
import Pmx.MetadataManager.Mirror
import Pmx.MetadataManager.Startup

/-!
# The set-up of the channels over restarts

A request to `GrpcService` writes into the metadata store, the store tells the
config writer of `pmx-metadata-manager`, and the writer keeps the file up to
date.  A restart of the session empties the store; the manager then reads the
file and fills the store with it.

As long as nothing restarts while events are still to be applied, restarts do not
show: the service lists what the requests of all sessions have left, on top of
the first file (`listing_of_run`).
-/

namespace Pmx.Settings

open Cxx GrpcService MetadataManager Transition

/-- The type that the values are set with. -/
def jsonType : Str := lit "Spa:String:JSON"

/-- The events of the store for the writes of a request. -/
def eventsOf : Request → List MetadataEvent
  | .setup channelId port groupChannelId =>
      (port.map fun port =>
        MetadataEvent.update 0 (channelPortKey channelId) jsonType (cStr port)).toList ++
      (groupChannelId.map fun group =>
        MetadataEvent.update 0 (channelGroupKey channelId) jsonType (decimal group)).toList
  | .clear channelId => [.deletion 0 (channelPortKey channelId)]
  | .other key (some value) => [.update 0 key jsonType value]
  | .other key none => [.deletion 0 key]

/-- The body of the first loop of `set_initial_metadata`. -/
def startPort (config : Config) (metadata : Metadata) (i : Fin 32) : Metadata :=
  match config.inputChannels.get i with
  | some port => setMetadataValue metadata (portKey i) port
  | none => metadata

/-- The body of its second loop. -/
def startGroup (config : Config) (metadata : Metadata) (i : Fin 32) : Metadata :=
  setMetadataValue metadata (groupKey i) (decimal (config.inputChannelGroups.get i).toNat)

/-- `set_initial_metadata` on an empty store. -/
def startMetadata (config : Config) : Metadata :=
  (List.finRange 32).foldl (startGroup config) ((List.finRange 32).foldl (startPort config) ∅)

/-- The store, the config writer and the file; `requests` are the requests of all
sessions. -/
structure State where
  metadata : Metadata
  queue : List MetadataEvent
  batch : List MetadataEvent
  config : Config
  file : Option Str
  requests : List Request

/-- A request, an iteration of the writer, or a restart of the session. -/
inductive Label
  | request (request : Request)
  | writer
  | restart
  deriving DecidableEq

/-- The start of a session with an empty store. -/
def start (config : Config) (file : Str) (requests : List Request) : State :=
  ⟨startMetadata config, [], [], config, some file, requests⟩

variable (parse : Str → Except Fault ℤ) (load : Str → Except Fault Yaml) (emit : Yaml → Str)

/-- An exception ends the config writer, or the start of the manager. -/
def step (s : State) : Label → Option State
  | .request request => some { s with
      metadata := handle s.metadata request
      queue := s.queue ++ eventsOf request
      requests := s.requests ++ [request] }
  | .writer =>
      match s.queue with
      | event :: rest => some { s with queue := rest, batch := s.batch ++ [event] }
      | [] =>
          match applyBatch s.config s.batch with
          | .ok (config, changed) => some { s with
              batch := []
              config
              file := if changed then some (writeConfig emit config) else s.file }
          | .error _ => none
  -- what was queued or in the batch is gone
  | .restart =>
      match readConfig parse load s.file with
      | .ok (config, text) => some (start config text s.requests)
      | .error _ => none

/-! ## What is wanted -/

/-- A request for one of the channels and a group of one byte, or a write of another. -/
def InRange : Request → Prop
  | .setup channelId _ groupChannelId =>
      (1 ≤ channelId ∧ channelId ≤ 32) ∧ ∀ group ∈ groupChannelId, group ≤ 255
  | .clear channelId => 1 ≤ channelId ∧ channelId ≤ 32
  | .other key _ =>
      startsWith key channelPortPrefix = false ∧ startsWith key channelGroupPrefix = false

instance : DecidablePred InRange
  | .setup channelId _ groupChannelId => inferInstanceAs (Decidable
      ((1 ≤ channelId ∧ channelId ≤ 32) ∧ ∀ group ∈ groupChannelId, group ≤ 255))
  | .clear channelId => inferInstanceAs (Decidable (1 ≤ channelId ∧ channelId ≤ 32))
  | .other key _ => inferInstanceAs (Decidable (startsWith key channelPortPrefix = false ∧
      startsWith key channelGroupPrefix = false))

/-- All events are applied. -/
def Drained (s : State) : Prop :=
  s.queue = [] ∧ s.batch = []

/-- Requests are in range, a written file is loaded as the tree it was written from,
and a restart waits until all events are applied. -/
def Orderly (s : State) : Label → Prop
  | .request request => InRange request
  | .writer => ∀ config, s.queue = [] → applyBatch s.config s.batch = .ok (config, true) →
      load (writeConfig emit config) = .ok (configYaml config)
  | .restart => Drained s

/-- The port of a channel in a config, and none for a number that is no channel. -/
def portOf (config : Config) (channelId : ℕ) : Option Str :=
  if h : 1 ≤ channelId ∧ channelId ≤ 32 then
    config.inputChannels.get ⟨channelId - 1, by omega⟩
  else none

/-- The group of a channel in a config. -/
def groupOf (config : Config) (channelId : ℕ) : Option ℕ :=
  if h : 1 ≤ channelId ∧ channelId ≤ 32 then
    some (config.inputChannelGroups.get ⟨channelId - 1, by omega⟩).toNat
  else none

/-- The port that a channel has after some requests, on top of a config. -/
def portAfterAll (config : Config) (requests : List Request) (channelId : ℕ) : Option Str :=
  requests.foldl (portAfter channelId) (portOf config channelId)

/-- The group of a channel after requests, from what the config had. -/
def groupAfterAll (config : Config) (requests : List Request) (channelId : ℕ) : Option ℕ :=
  requests.foldl (groupAfter channelId) (groupOf config channelId)

/-! ## Channels and slots -/

theorem portOf_slot (config : Config) (i : Fin 32) :
    portOf config (i.val + 1) = config.inputChannels.get i := by
  have := i.isLt
  rw [portOf, dif_pos (by omega)]
  rfl

theorem groupOf_slot (config : Config) (i : Fin 32) :
    groupOf config (i.val + 1) = some (config.inputChannelGroups.get i).toNat := by
  have := i.isLt
  rw [groupOf, dif_pos (by omega)]
  rfl

/-- Every channel has a slot. -/
theorem exists_slot {channelId : ℕ} (h : 1 ≤ channelId ∧ channelId ≤ 32) :
    ∃ i : Fin 32, channelId = i.val + 1 :=
  ⟨⟨channelId - 1, by omega⟩, by simp only; omega⟩

theorem valid_of_inRange {request : Request} (h : InRange request) : Valid request := by
  cases request with
  | setup channelId port groupChannelId =>
      obtain ⟨⟨_, hhigh⟩, hgroup⟩ := h
      exact ⟨by omega, fun group hmem => (hgroup group hmem).trans (by omega)⟩
  | clear channelId => exact Nat.le_trans h.2 (by omega)
  | other key value => exact h

/-- Requests in range leave numbers alone that are no channels. -/
theorem portAfterAll_outside (config : Config) {requests : List Request}
    (h : ∀ r ∈ requests, InRange r) {channelId : ℕ} (hout : ¬ (1 ≤ channelId ∧ channelId ≤ 32)) :
    portAfterAll config requests channelId = none := by
  unfold portAfterAll
  apply List.foldlRecOn (motive := fun port => port = none)
  · rw [portOf, dif_neg hout]
  · intro port hport request hmem
    have hrange := h request hmem
    cases request with
    | setup other new groupChannelId =>
        have hne : other ≠ channelId := fun heq => hout (heq ▸ hrange.1)
        cases new <;> simp [portAfter, hne, hport]
    | clear other =>
        have hne : other ≠ channelId := fun heq => hout (heq ▸ hrange)
        simp [portAfter, hne, hport]
    | other key value => exact hport

theorem groupAfterAll_outside (config : Config) {requests : List Request}
    (h : ∀ r ∈ requests, InRange r) {channelId : ℕ} (hout : ¬ (1 ≤ channelId ∧ channelId ≤ 32)) :
    groupAfterAll config requests channelId = none := by
  unfold groupAfterAll
  apply List.foldlRecOn (motive := fun group => group = none)
  · rw [groupOf, dif_neg hout]
  · intro group hgroup request hmem
    have hrange := h request hmem
    cases request with
    | setup other port new =>
        have hne : other ≠ channelId := fun heq => hout (heq ▸ hrange.1)
        cases new <;> simp [groupAfter, hne, hgroup]
    | clear other => exact hgroup
    | other key value => exact hgroup

/-- Every channel keeps a group. -/
theorem groupAfterAll_slot (config : Config) (requests : List Request) (i : Fin 32) :
    (groupAfterAll config requests (i.val + 1)).isSome := by
  unfold groupAfterAll
  apply List.foldlRecOn (motive := fun group : Option ℕ => group.isSome)
  · rw [groupOf_slot]
    rfl
  · intro group hgroup request _
    cases request with
    | setup other port new =>
        cases new with
        | none => exact hgroup
        | some number =>
            simp only [groupAfter]
            split
            · rfl
            · exact hgroup
    | clear other => exact hgroup
    | other key value => exact hgroup

/-! ## The start -/

/-- Both views of a store have the same entries. -/
def SameEntries (metadata : Metadata) (store : Store) : Prop :=
  ∀ key, metadata.lookup key = store key

theorem SameEntries.set {metadata : Metadata} {store : Store} (h : SameEntries metadata store)
    (key value : Str) :
    SameEntries (setMetadataValue metadata key value) (setMetadataValueAsync store key value) := by
  intro k
  rw [setMetadataValue, lookup_insert_eq, setMetadataValueAsync, Function.update_apply, h k]

theorem SameEntries.startPort {metadata : Metadata} {store : Store}
    (h : SameEntries metadata store) (config : Config) (i : Fin 32) :
    SameEntries (startPort config metadata i)
      (setSlot portKey (fun i => config.inputChannels.get i) store i) := by
  unfold Settings.startPort setSlot
  dsimp only
  cases config.inputChannels.get i with
  | none => exact h
  | some port => exact h.set _ port

theorem SameEntries.startPorts {metadata : Metadata} {store : Store}
    (h : SameEntries metadata store) (config : Config) (slots : List (Fin 32)) :
    SameEntries (slots.foldl (Settings.startPort config) metadata)
      (slots.foldl (setSlot portKey fun i => config.inputChannels.get i) store) := by
  induction slots generalizing metadata store with
  | nil => exact h
  | cons i rest ih => exact ih (h.startPort config i)

theorem SameEntries.startGroups {metadata : Metadata} {store : Store}
    (h : SameEntries metadata store) (config : Config) (slots : List (Fin 32)) :
    SameEntries (slots.foldl (startGroup config) metadata)
      (slots.foldl (setSlot groupKey fun i =>
        some (decimal (config.inputChannelGroups.get i).toNat)) store) := by
  induction slots generalizing metadata store with
  | nil => exact h
  | cons i rest ih => exact ih (h.set _ _)

/-- The loops on the store, key by key. -/
theorem sameEntries_startMetadata (config : Config) :
    SameEntries (startMetadata config) (setInitialMetadata (fun _ => none) config) := by
  have hempty : SameEntries ∅ fun _ => none := fun _ => rfl
  unfold startMetadata setInitialMetadata
  exact (hempty.startPorts config (List.finRange 32)).startGroups config (List.finRange 32)

theorem lookup_startMetadata (config : Config) (key : Str) :
    (startMetadata config).lookup key = setInitialMetadata (fun _ => none) config key :=
  sameEntries_startMetadata config key

theorem readable_startMetadata (config : Config) :
    ∀ item ∈ (startMetadata config).entries, Readable item := by
  have hports : ∀ item ∈ ((List.finRange 32).foldl (startPort config) ∅).entries,
      Readable item := by
    apply List.foldlRecOn
      (motive := fun metadata : Metadata => ∀ item ∈ metadata.entries, Readable item)
    · exact fun item h => by cases h
    · intro metadata h i _
      unfold startPort
      cases config.inputChannels.get i with
      | none => exact h
      | some port =>
          intro item hitem
          rcases mem_entries_insert hitem with rfl | hold
          · rw [cStr_portKey]
            exact .port (i.val + 1) _ (by have := i.isLt; omega)
          · exact h item hold
  unfold startMetadata
  apply List.foldlRecOn
    (motive := fun metadata : Metadata => ∀ item ∈ metadata.entries, Readable item)
  · exact hports
  · intro metadata h i _ item hitem
    rcases mem_entries_insert hitem with rfl | hold
    · rw [cStr_groupKey, cStr_decimal]
      have hbyte := UInt8.toNat_lt (config.inputChannelGroups.get i)
      exact .group (i.val + 1) _ (by have := i.isLt; omega) (by omega)
    · exact h item hold

/-- The store shows a config under the 64 keys. -/
structure Shows (metadata : Metadata) (config : Config) : Prop where
  port : ∀ i : Fin 32, metadata.lookup (portKey i) = (config.inputChannels.get i).map cStr
  group : ∀ i : Fin 32,
    metadata.lookup (groupKey i) = some (decimal (config.inputChannelGroups.get i).toNat)

theorem shows_startMetadata (config : Config) : Shows (startMetadata config) config := by
  refine ⟨fun i => ?_, fun i => ?_⟩
  · rw [lookup_startMetadata, setInitialMetadata_port, Option.or_none]
  · rw [lookup_startMetadata, setInitialMetadata_group]

/-- Behind the start there are no keys but those of the slots. -/
theorem lookup_startMetadata_other (config : Config) {key : Str} (hport : ∀ i, key ≠ portKey i)
    (hgroup : ∀ i, key ≠ groupKey i) : (startMetadata config).lookup key = none := by
  rw [lookup_startMetadata, setInitialMetadata,
    foldl_setSlot_other cStr_groupKey _ _ fun i _ => hgroup i,
    foldl_setSlot_other cStr_portKey _ _ fun i _ => hport i]

/-! ## Writes -/

/-- A write of a request: the port of a slot or none, its group, or another key. -/
inductive Write
  | port (i : Fin 32) (port : Option Str)
  | group (i : Fin 32) (group : ℕ) (isByte : group ≤ 255)
  | other (key : Str) (value : Option Str) (noPort : startsWith key channelPortPrefix = false)
      (noGroup : startsWith key channelGroupPrefix = false)

/-- The event of the store. -/
def Write.event : Write → MetadataEvent
  | .port i (some name) => .update 0 (portKey i) jsonType (cStr name)
  | .port i none => .deletion 0 (portKey i)
  | .group i number _ => .update 0 (groupKey i) jsonType (decimal number)
  | .other key (some value) _ _ => .update 0 key jsonType value
  | .other key none _ _ => .deletion 0 key

/-- What a write does to the metadata. -/
def Write.onMetadata (metadata : Metadata) : Write → Metadata
  | .port i (some name) => setMetadataValue metadata (portKey i) name
  | .port i none => clearMetadataValue metadata (portKey i)
  | .group i number _ => setMetadataValue metadata (groupKey i) (decimal number)
  | .other key (some value) _ _ => metadata.insert key value
  | .other key none _ _ => metadata.erase key

/-- What the same write does to the config, once the writer has handled it. -/
def Write.onConfig (config : Config) : Write → Config
  | .port i name => config.setPort i (name.map cStr)
  | .group i number _ => config.setGroup i (UInt8.ofInt number)
  | .other _ _ _ _ => config

/-- A request in range is up to two writes. -/
theorem exists_writes {request : Request} (h : InRange request) :
    ∃ writes : List Write, eventsOf request = writes.map Write.event ∧
      ∀ metadata, handle metadata request = writes.foldl Write.onMetadata metadata := by
  cases request with
  | setup channelId port groupChannelId =>
      obtain ⟨hchannel, hgroup⟩ := h
      obtain ⟨i, rfl⟩ := exists_slot hchannel
      refine ⟨(port.map fun port => Write.port i (some port)).toList ++
        (groupChannelId.pmap (fun group hbyte => Write.group i group hbyte) hgroup).toList, ?_, ?_⟩
      · cases port <;> cases groupChannelId <;> rfl
      · intro metadata
        cases port <;> cases groupChannelId <;> rfl
  | clear channelId =>
      obtain ⟨i, rfl⟩ := exists_slot h
      exact ⟨[.port i none], rfl, fun _ => rfl⟩
  | other key value =>
      refine ⟨[.other key value h.1 h.2], ?_, fun metadata => ?_⟩
      · cases value <;> rfl
      · cases value <;> rfl

theorem stoi_byte {n : ℕ} (hn : n ≤ 255) : stoi (decimal n) = .ok (n : ℤ) :=
  stoi_decimal (by omega)

/-- The config writer applies the event of a write, and reports every change. -/
theorem applyEvent_write (config : Config) (write : Write) :
    ∃ changed, applyEvent config write.event = .ok (write.onConfig config, changed) ∧
      (changed = false → write.onConfig config = config) := by
  cases write with
  | port i port =>
      cases port with
      | none =>
          refine ⟨true, ?_, fun h => by cases h⟩
          rw [Write.event, portKey, applyEvent_delete_port, slot_of_stoi.mpr (stoi_slot i)]
          rfl
      | some port =>
          refine ⟨decide (config.inputChannels.get i ≠ some (cStr port)), ?_, fun h => ?_⟩
          · rw [Write.event, portKey, applyEvent_update_port, slot_of_stoi.mpr (stoi_slot i)]
            rfl
          · exact setPort_eq_self_iff.mpr (by simpa using h)
  | group i group hbyte =>
      refine ⟨true, ?_, fun h => by cases h⟩
      rw [Write.event, groupKey, applyEvent_update_group, stoi_slot, stoi_byte hbyte]
      show (slot (i.val + 1 : ℤ) >>= _) = _
      rw [slot_eq_ok.mpr rfl]
      rfl
  | other key value hport hgroup =>
      refine ⟨false, ?_, fun _ => rfl⟩
      cases value with
      | none => simp [Write.event, Write.onConfig, applyEvent, hport, pure, Except.pure]
      | some value =>
          simp [Write.event, Write.onConfig, applyEvent, hport, hgroup, pure, Except.pure]

theorem applyBatch_writes (writes : List Write) (config : Config) :
    ∃ changed, applyBatch config (writes.map Write.event) =
        .ok (writes.foldl Write.onConfig config, changed) ∧
      (changed = false → writes.foldl Write.onConfig config = config) := by
  induction writes generalizing config with
  | nil => exact ⟨false, rfl, fun _ => rfl⟩
  | cons write rest ih =>
      obtain ⟨first, hfirst, hfirstKept⟩ := applyEvent_write config write
      obtain ⟨second, hsecond, hsecondKept⟩ := ih (write.onConfig config)
      refine ⟨first || second, ?_, fun hflag => ?_⟩
      · rw [List.map_cons, applyBatch_cons, hfirst]
        show (applyBatch (write.onConfig config) (rest.map Write.event) >>= _) = _
        rw [hsecond]
        rfl
      · rw [Bool.or_eq_false_iff] at hflag
        rw [List.foldl_cons, hsecondKept hflag.2, hfirstKept hflag.1]

/-- What leaves the keys of slots alone keeps what the store shows. -/
theorem Shows.congr {metadata metadata' : Metadata} {config : Config} (h : Shows metadata config)
    (hkeys : ∀ i : Fin 32, metadata'.lookup (portKey i) = metadata.lookup (portKey i) ∧
      metadata'.lookup (groupKey i) = metadata.lookup (groupKey i)) : Shows metadata' config :=
  ⟨fun i => (hkeys i).1.trans (h.port i), fun i => (hkeys i).2.trans (h.group i)⟩

section OneWrite

variable {metadata : Metadata} {config : Config} (h : Shows metadata config) (i : Fin 32)

include h

theorem Shows.setPort (port : Option Str) :
    Shows (Write.onMetadata metadata (.port i port)) (config.setPort i (port.map cStr)) := by
  cases port with
  | none =>
      refine ⟨fun j => ?_, fun j => ?_⟩
      · simp only [Write.onMetadata, clearMetadataValue, cStr_portKey, lookup_erase_eq, get_setPort,
          portKey_injective.eq_iff, h.port, eq_comm]
        split <;> rfl
      · simp only [Write.onMetadata, clearMetadataValue, cStr_portKey, lookup_erase_eq,
          (portKey_ne_groupKey i j).symm, if_false]
        exact h.group j
  | some port =>
      refine ⟨fun j => ?_, fun j => ?_⟩
      · simp only [Write.onMetadata, setMetadataValue, cStr_portKey, lookup_insert_eq, get_setPort,
          portKey_injective.eq_iff, h.port, eq_comm, Option.map_some]
        split
        · rw [Option.map_some, cStr_cStr]
        · rfl
      · simp only [Write.onMetadata, setMetadataValue, cStr_portKey, lookup_insert_eq,
          (portKey_ne_groupKey i j).symm, if_false]
        exact h.group j

theorem Shows.setGroup {group : ℕ} (hbyte : group ≤ 255) :
    Shows (Write.onMetadata metadata (.group i group hbyte))
      (config.setGroup i (UInt8.ofInt group)) := by
  refine ⟨fun j => ?_, fun j => ?_⟩
  · simp only [Write.onMetadata, setMetadataValue, cStr_groupKey, lookup_insert_eq,
      portKey_ne_groupKey j i, if_false]
    exact h.port j
  · simp only [Write.onMetadata, setMetadataValue, cStr_groupKey, cStr_decimal, lookup_insert_eq,
      get_setGroup, groupKey_injective.eq_iff, h.group, eq_comm]
    split
    · rw [UInt8.ofInt, UInt8.toNat_ofNat']
      congr
      omega
    · rfl

end OneWrite

/-- A write keeps store and config together. -/
theorem Shows.write {metadata : Metadata} {config : Config} (h : Shows metadata config)
    (write : Write) : Shows (write.onMetadata metadata) (write.onConfig config) := by
  cases write with
  | port i port => exact h.setPort i port
  | group i group hbyte => exact h.setGroup i hbyte
  | other key value hport hgroup =>
      have hkeys : ∀ i : Fin 32, portKey i ≠ key ∧ groupKey i ≠ key :=
        fun i => other_ne_keys hport hgroup (i.val + 1)
      refine h.congr fun i => ?_
      cases value with
      | none =>
          rw [Write.onMetadata, lookup_erase_eq, if_neg (hkeys i).1, lookup_erase_eq,
            if_neg (hkeys i).2]
          exact ⟨rfl, rfl⟩
      | some value =>
          rw [Write.onMetadata, lookup_insert_eq, if_neg (hkeys i).1, lookup_insert_eq,
            if_neg (hkeys i).2]
          exact ⟨rfl, rfl⟩

theorem Shows.writes {metadata : Metadata} {config : Config} (h : Shows metadata config)
    (writes : List Write) :
    Shows (writes.foldl Write.onMetadata metadata) (writes.foldl Write.onConfig config) := by
  induction writes generalizing metadata config with
  | nil => exact h
  | cons write rest ih => exact ih (h.write write)

/-! ## One step -/

/-- The store holds what the requests have left, and the file the writer's config;
with the pending events applied, the config is what the store shows. -/
structure Consistent (first : Config) (s : State) : Prop where
  holds : Holds (portAfterAll first s.requests) (groupAfterAll first s.requests) s.metadata
  inRange : ∀ request ∈ s.requests, InRange request
  pending : ∃ pending : List Write, s.batch ++ s.queue = pending.map Write.event ∧
    Shows s.metadata (pending.foldl Write.onConfig s.config)
  file : ∃ text, readConfig parse load s.file = .ok (s.config, text)

variable {parse load emit}

/-- What is read once is read again. -/
theorem readConfig_again {file : Option Str} {config : Config} {text : Str}
    (h : readConfig parse load file = .ok (config, text)) :
    readConfig parse load (some text) = .ok (config, text) := by
  obtain ⟨document, hdocument, h⟩ := bind_eq_ok.mp h
  obtain ⟨found, hfound, h⟩ := bind_eq_ok.mp h
  cases h
  simp only [readConfig, Option.getD_some, hdocument, hfound, bind, Except.bind]
  rfl

/-- A start from a config shows what was there before, if it was what the config says. -/
theorem holds_start {ports : ℕ → Option Str} {groups : ℕ → Option ℕ} {config : Config}
    (hports : ∀ i : Fin 32, (ports (i.val + 1)).map cStr = (config.inputChannels.get i).map cStr)
    (hgroups : ∀ i : Fin 32, groups (i.val + 1) = some (config.inputChannelGroups.get i).toNat)
    (houtside : ∀ id, ¬ (1 ≤ id ∧ id ≤ 32) → ports id = none ∧ groups id = none) :
    Holds ports groups (startMetadata config) := by
  have hshows := shows_startMetadata config
  have hother : ∀ {id}, ¬ (1 ≤ id ∧ id ≤ 32) → ∀ i : Fin 32, id ≠ i.val + 1 := by
    intro id hout i heq
    have := i.isLt
    omega
  refine ⟨fun id => ?_, fun id => ?_, readable_startMetadata config⟩
  · by_cases hid : 1 ≤ id ∧ id ≤ 32
    · obtain ⟨i, rfl⟩ := exists_slot hid
      exact (hshows.port i).trans (hports i).symm
    · rw [(houtside id hid).1, Option.map_none]
      exact lookup_startMetadata_other config
        (fun i => channelPortKey_inj.not.mpr (hother hid i)) fun _ => channelPortKey_ne_group _ _
  · by_cases hid : 1 ≤ id ∧ id ≤ 32
    · obtain ⟨i, rfl⟩ := exists_slot hid
      rw [hgroups i]
      exact hshows.group i
    · rw [(houtside id hid).2, Option.map_none]
      exact lookup_startMetadata_other config (fun _ => (channelPortKey_ne_group _ _).symm)
        fun i => channelGroupKey_inj.not.mpr (hother hid i)

theorem consistent_start {config : Config} {file : Option Str} {text : Str}
    (hfile : readConfig parse load file = .ok (config, text)) :
    Consistent parse load config (start config text []) := by
  refine ⟨holds_start ?_ ?_ ?_, fun _ h => absurd h List.not_mem_nil,
    ⟨[], rfl, shows_startMetadata config⟩, text, readConfig_again hfile⟩
  · intro i
    exact congrArg _ (portOf_slot config i)
  · exact groupOf_slot config
  · intro id hid
    exact ⟨dif_neg hid, dif_neg hid⟩

variable {first : Config} {s s' : State}

theorem consistent_request (h : Consistent parse load first s) {request : Request}
    (hrange : InRange request) :
    Consistent parse load first { s with
      metadata := handle s.metadata request
      queue := s.queue ++ eventsOf request
      requests := s.requests ++ [request] } := by
  obtain ⟨pending, hevents, hshows⟩ := h.pending
  obtain ⟨writes, hwrites, hmetadata⟩ := exists_writes hrange
  refine ⟨?_, ?_, ⟨pending ++ writes, ?_, ?_⟩, h.file⟩
  · have hholds := h.holds.handle (valid_of_inRange hrange)
    unfold portAfterAll groupAfterAll at hholds ⊢
    simpa only [List.foldl_append, List.foldl_cons, List.foldl_nil] using hholds
  · rw [List.forall_mem_append, List.forall_mem_singleton]
    exact ⟨h.inRange, hrange⟩
  · rw [List.map_append, ← hevents, hwrites, List.append_assoc]
  · rw [List.foldl_append, hmetadata]
    exact hshows.writes writes

theorem consistent_writer (hparse : ∀ n ≤ 255, parse (decimal n) = .ok (n : ℤ))
    (h : Consistent parse load first s) (horderly : Orderly load emit s .writer)
    (hstep : step parse load emit s .writer = some s') : Consistent parse load first s' := by
  obtain ⟨pending, hevents, hshows⟩ := h.pending
  simp only [step] at hstep
  cases hqueue : s.queue with
  | cons event rest =>
      simp only [hqueue, Option.some.injEq] at hstep
      subst hstep
      refine ⟨h.holds, h.inRange, ⟨pending, ?_, hshows⟩, h.file⟩
      rw [← hevents, hqueue, List.append_assoc]
      rfl
  | nil =>
      obtain ⟨changed, hbatch, hkept⟩ := applyBatch_writes pending s.config
      rw [← hevents, hqueue, List.append_nil] at hbatch
      simp only [hqueue, hbatch, Option.some.injEq] at hstep
      subst hstep
      refine ⟨h.holds, h.inRange, ⟨[], rfl, hshows⟩, ?_⟩
      cases changed with
      | true =>
          have hload := horderly _ hqueue hbatch
          refine ⟨writeConfig emit (pending.foldl Write.onConfig s.config), ?_⟩
          simp only [if_true, readConfig, Option.getD_some, hload,
            readConfigYaml_configYaml hparse, bind, Except.bind]
          rfl
      | false =>
          rw [hkept rfl]
          exact h.file

/-- With all events applied, the config is what the requests have left. -/
theorem config_of_drained (h : Consistent parse load first s) (hdrained : Drained s) (i : Fin 32) :
    (portAfterAll first s.requests (i.val + 1)).map cStr =
        (s.config.inputChannels.get i).map cStr ∧
      groupAfterAll first s.requests (i.val + 1) =
        some (s.config.inputChannelGroups.get i).toNat := by
  obtain ⟨pending, hevents, hshows⟩ := h.pending
  rw [hdrained.1, hdrained.2] at hevents
  rw [List.map_eq_nil_iff.mp hevents.symm] at hshows
  obtain ⟨group, hgroup⟩ := Option.isSome_iff_exists.mp (groupAfterAll_slot first s.requests i)
  have hlookup := (h.holds.group (i.val + 1)).symm.trans (hshows.group i)
  rw [hgroup, Option.map_some, Option.some.injEq] at hlookup
  refine ⟨(h.holds.port (i.val + 1)).symm.trans (hshows.port i), ?_⟩
  rw [hgroup, decimal_injective hlookup]
  rfl

theorem outside_of_consistent (h : Consistent parse load first s) {id : ℕ}
    (hid : ¬ (1 ≤ id ∧ id ≤ 32)) :
    portAfterAll first s.requests id = none ∧ groupAfterAll first s.requests id = none :=
  ⟨portAfterAll_outside first h.inRange hid, groupAfterAll_outside first h.inRange hid⟩

theorem consistent_restart (h : Consistent parse load first s) (hdrained : Drained s)
    (hstep : step parse load emit s .restart = some s') : Consistent parse load first s' := by
  obtain ⟨text, hfile⟩ := h.file
  simp only [step, hfile, Option.some.injEq] at hstep
  subst hstep
  have hconfig := config_of_drained h hdrained
  exact ⟨holds_start (fun i => (hconfig i).1) (fun i => (hconfig i).2)
      fun _ hid => outside_of_consistent h hid,
    h.inRange, ⟨[], rfl, shows_startMetadata s.config⟩, text, readConfig_again hfile⟩

theorem consistent_step (hparse : ∀ n ≤ 255, parse (decimal n) = .ok (n : ℤ)) {label : Label}
    (h : Consistent parse load first s) (horderly : Orderly load emit s label)
    (hstep : step parse load emit s label = some s') : Consistent parse load first s' := by
  cases label with
  | request request =>
      cases hstep
      exact consistent_request h horderly
  | writer => exact consistent_writer hparse h horderly hstep
  | restart => exact consistent_restart h horderly hstep

/-! ## Whole runs -/

/-- What the service lists for a store that holds some ports and groups. -/
theorem listing_of_holds {ports : ℕ → Option Str} {groups : ℕ → Option ℕ} {metadata : Metadata}
    (h : Holds ports groups metadata) {items : List MetadataItem}
    (hitems : items.Perm metadata.entries) {ids : List ℕ} (hsorted : ids.Pairwise (· < ·))
    (hids : ∀ id, id ∈ ids ↔ ports id ≠ none ∨ groups id ≠ none) :
    listInputPortsSetup items =
      .ok (ids.map fun id => ⟨id, (ports id).map cStr, groups id⟩) := by
  have hnodup : items.NodupKeys := (List.perm_nodupKeys hitems).mpr metadata.nodupKeys
  obtain ⟨maps, hmaps, hports, hgroups⟩ := foldlM_readItem hnodup
    (fun item hmem => h.readable item (hitems.mem_iff.mp hmem)) ⟨∅, ∅⟩
  have hlookup : ∀ key, items.dlookup key = metadata.lookup key :=
    fun key => List.perm_dlookup key hnodup hitems
  have hport : ∀ id, maps.channelIdToPort.lookup id = (ports id).map cStr := by
    intro id
    rw [hports, hlookup, h.port]
    exact Option.or_none
  have hgroup : ∀ id, maps.channelIdToGroupChannelId.lookup id = groups id := by
    intro id
    rw [hgroups, hlookup, h.group]
    cases groups id with
    | none => rfl
    | some group => exact congrArg some (natOfDigits_decimal group)
  have hkeys : sortedKeys maps = ids := by
    refine List.Pairwise.eq_of_mem_iff (sortedKeys_increasing maps) hsorted fun id => ?_
    rw [mem_sortedKeys, hport, hgroup, hids]
    simp
  rw [listInputPortsSetup, hmaps]
  simp only [bind, Except.bind, pure, Except.pure, hkeys, hport, hgroup]

/-- **The set-up survives restarts.**  In an orderly run over any number of sessions
the service lists all 32 channels, each with the port and the group that the
requests of all sessions have left, on top of the first file; and when all events
are applied, the file is read as what the service lists, and a restart succeeds. -/
theorem listing_of_run (hparse : ∀ n ≤ 255, parse (decimal n) = .ok (n : ℤ))
    {file : Option Str} {first : Config} {text : Str}
    (hfile : readConfig parse load file = .ok (first, text)) {labels : List Label} {s : State}
    (run : Run (step parse load emit) (Orderly load emit) (start first text []) labels s)
    {items : List MetadataItem} (hitems : items.Perm s.metadata.entries) :
    listInputPortsSetup items = .ok ((List.range' 1 32).map fun id =>
        ⟨id, (portAfterAll first s.requests id).map cStr, groupAfterAll first s.requests id⟩) ∧
      (Drained s → (step parse load emit s .restart).isSome ∧
        ∃ config text, readConfig parse load s.file = .ok (config, text) ∧
          ∀ id, (portOf config id).map cStr = (portAfterAll first s.requests id).map cStr ∧
            groupOf config id = groupAfterAll first s.requests id) := by
  have h : Consistent parse load first s := by
    refine run.state_invariant (I := Consistent parse load first) (consistent_start hfile) ?_
    exact fun _ _ _ h horderly hstep => consistent_step hparse h horderly hstep
  constructor
  · refine listing_of_holds h.holds hitems List.pairwise_lt_range' fun id => ?_
    rw [List.mem_range'_1]
    by_cases hid : 1 ≤ id ∧ id ≤ 32
    · obtain ⟨i, rfl⟩ := exists_slot hid
      have hgroup := groupAfterAll_slot first s.requests i
      exact iff_of_true (by omega) (Or.inr (Option.isSome_iff_ne_none.mp hgroup))
    · exact iff_of_false (by omega) (by simp [outside_of_consistent h hid])
  · intro hdrained
    obtain ⟨text, hfile⟩ := h.file
    refine ⟨by simp [step, hfile], s.config, text, hfile, fun id => ?_⟩
    by_cases hid : 1 ≤ id ∧ id ≤ 32
    · obtain ⟨i, rfl⟩ := exists_slot hid
      obtain ⟨hport, hgroup⟩ := config_of_drained h hdrained i
      rw [portOf_slot, groupOf_slot]
      exact ⟨hport.symm, hgroup.symm⟩
    · obtain ⟨hport, hgroup⟩ := outside_of_consistent h hid
      rw [hport, hgroup, portOf, groupOf, dif_neg hid, dif_neg hid]
      exact ⟨rfl, rfl⟩

/-- A port and a group for the second channel. -/
def secondChannel : Request :=
  .setup 2 (some (lit "capture_1")) (some 3)

def secondChannelConfig : Config :=
  (defaultConfig.setPort ⟨1, by decide⟩ (some (lit "capture_1"))).setGroup ⟨1, by decide⟩ 3

/-- Loading the new file and the one that is written over it. -/
def loadBoth (text : Str) : Except Fault Yaml :=
  if text = writeConfig blockText secondChannelConfig then .ok (configYaml secondChannelConfig)
  else .ok (configYaml defaultConfig)

theorem loadBoth_initialConfig : loadBoth initialConfig = .ok (configYaml defaultConfig) := by
  refine if_neg fun h => ?_
  obtain ⟨rest, hrest⟩ : ∃ rest, writeConfig blockText secondChannelConfig =
      inputChannelsKey ++ lit ":" ++ rest := by
    rw [writeConfig, configYaml, blockText, List.flatMap_cons, List.cons_append]
    exact exists_intercalate_cons _ _ _
  rw [hrest] at h
  have hbyte : byteAt initialConfig 0 = byteAt (inputChannelsKey ++ lit ":" ++ rest) 0 :=
    congrArg (fun text => byteAt text 0) h
  have hfirst : byteAt initialConfig 0 = 10 := rfl
  have hsecond : byteAt (inputChannelsKey ++ lit ":" ++ rest) 0 = 105 := rfl
  rw [hfirst, hsecond] at hbyte
  exact absurd hbyte (by decide)

/-- The channel is set up and listed after a restart. -/
theorem listing_of_run_second_channel : ∃ s : State, s.requests = [secondChannel] ∧
    ∃ setups, listInputPortsSetup s.metadata.entries = .ok setups ∧
      (⟨2, some (lit "capture_1"), some 3⟩ : Setup) ∈ setups := by
  have hparse : ∀ n ≤ 255, stoi (decimal n) = .ok (n : ℤ) := fun _ => stoi_byte
  have hfile := readConfig_of_no_file hparse loadBoth_initialConfig
  have hwritten : loadBoth (writeConfig blockText secondChannelConfig) =
      .ok (configYaml secondChannelConfig) := if_pos rfl
  have hbatch : applyBatch defaultConfig (eventsOf secondChannel) =
      .ok (secondChannelConfig, true) := by
    decide +kernel
  have hread : readConfig stoi loadBoth (some (writeConfig blockText secondChannelConfig)) =
      .ok (secondChannelConfig, writeConfig blockText secondChannelConfig) := by
    simp [readConfig, hwritten, readConfigYaml_configYaml hparse, bind, Except.bind, pure,
      Except.pure]
  -- two events are popped, and the batch is applied and written
  have hpopped : Run (step stoi loadBoth blockText) (Orderly loadBoth blockText)
      (start defaultConfig initialConfig []) [.request secondChannel, .writer, .writer]
      { start defaultConfig initialConfig [] with
        metadata := handle (startMetadata defaultConfig) secondChannel
        batch := eventsOf secondChannel
        requests := [secondChannel] } := by
    refine .snoc (.snoc (.snoc .nil ?_ rfl) ?_ rfl) ?_ rfl
    · exact ⟨by decide, by decide⟩
    · exact fun _ h => by cases h
    · exact fun _ h => by cases h
  have happlied : Run (step stoi loadBoth blockText) (Orderly loadBoth blockText)
      (start defaultConfig initialConfig []) [.request secondChannel, .writer, .writer, .writer]
      { metadata := handle (startMetadata defaultConfig) secondChannel
        queue := []
        batch := []
        config := secondChannelConfig
        file := some (writeConfig blockText secondChannelConfig)
        requests := [secondChannel] } := by
    refine hpopped.snoc ?_ ?_
    · intro config _ hconfig
      cases hbatch.symm.trans hconfig
      exact hwritten
    · simp only [step, start, hbatch, if_true]
  have hrestarted : Run (step stoi loadBoth blockText) (Orderly loadBoth blockText)
      (start defaultConfig initialConfig [])
      [.request secondChannel, .writer, .writer, .writer, .restart]
      (start secondChannelConfig (writeConfig blockText secondChannelConfig) [secondChannel]) :=
    happlied.snoc ⟨rfl, rfl⟩ (by simp only [step, hread])
  obtain ⟨hlisting, _⟩ := listing_of_run hparse hfile hrestarted (List.Perm.refl _)
  refine ⟨_, rfl, _, hlisting, List.mem_map.mpr ⟨2, by decide, ?_⟩⟩
  decide +kernel

end Pmx.Settings
