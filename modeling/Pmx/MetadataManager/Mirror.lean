import Pmx.MetadataManager.Events

/-!
# The config as a mirror of the store

Sets and deletions of the 64 keys reach the config writer as events.  The writer
collects events as long as there are any, applies what it has collected as one
batch, and writes the config if the batch has changed it.

What a batch does is the effect of its events one after another, so the cuts do
not matter, and the file follows the config.  The ports mirror the store.  A
group does so while its key is there; the deletion of the key is ignored, so
that the last number stays where the default should come back.
-/

namespace Pmx.MetadataManager

open Cxx Transition

/-- A stored group: a decimal number in 1..255. -/
structure GroupValue where
  text : Str
  isByte : IsByte text
  pos : 1 ≤ natOfDigits text

/-- A set or a deletion of one of the 64 keys. -/
inductive SlotEvent
  | setPort (i : Fin 32) (type value : Str)
  | clearPort (i : Fin 32)
  | setGroup (i : Fin 32) (type : Str) (value : GroupValue)
  | clearGroup (i : Fin 32)

namespace SlotEvent

/-- What `metadata_changed_callback` pushes for subject 0. -/
def toEvent : SlotEvent → MetadataEvent
  | setPort i type value => .update 0 (portKey i) type value
  | clearPort i => .deletion 0 (portKey i)
  | setGroup i type value => .update 0 (groupKey i) type value.text
  | clearGroup i => .deletion 0 (groupKey i)

/-- The effect on the metadata. -/
def onStore (store : Store) : SlotEvent → Store
  | setPort i _ value => Function.update store (portKey i) (some value)
  | clearPort i => Function.update store (portKey i) none
  | setGroup i _ value => Function.update store (groupKey i) (some value.text)
  | clearGroup i => Function.update store (groupKey i) none

/-- The effect on a config. -/
def onConfig (config : Config) : SlotEvent → Config
  | setPort i _ value => config.setPort i (some value)
  | clearPort i => config.setPort i none
  | setGroup i _ value => config.setGroup i (UInt8.ofInt (natOfDigits value.text))
  | clearGroup _ => config

/-- The last number stored for a group, or the one it started with. -/
def onGroup (i : Fin 32) (current : ℕ) : SlotEvent → ℕ
  | setGroup j _ value => if j = i then natOfDigits value.text else current
  | _ => current

end SlotEvent

/-! ## The config writer -/

/-- `config`, `batch` and the last config written are the writer's; `events` are
all events of the store so far. -/
structure State where
  store : Store
  queue : List MetadataEvent
  batch : List MetadataEvent
  config : Config
  written : Config
  events : List SlotEvent

/-- An event of the store, or an iteration of the writer. -/
inductive Label
  | event (event : SlotEvent)
  | writer

def initial (config : Config) (store : Store) : State :=
  ⟨store, [], [], config, config, []⟩

/-- One iteration of `config_writer_thread`.  An exception ends the thread. -/
def writerStep (s : State) : Option State :=
  match s.queue, s.batch with
  | event :: rest, batch => some { s with queue := rest, batch := batch ++ [event] }
  | [], [] => some s
  | [], batch =>
      match applyBatch s.config batch with
      | .ok (config, changed) => some { s with
          batch := []
          config
          written := if changed then config else s.written }
      -- nothing catches what `stoi` throws
      | .error _ => none

/-- An event changes the metadata and is queued; the writer takes its step. -/
def step (s : State) : Label → Option State
  | .event event => some { s with
      store := event.onStore s.store
      queue := s.queue ++ [event.toEvent]
      events := s.events ++ [event] }
  | .writer => writerStep s

/-- All events are applied. -/
def Drained (s : State) : Prop :=
  s.queue = [] ∧ s.batch = []

/-- The number of a group in the store, 1 if its key is absent. -/
def groupNumber (store : Store) (i : Fin 32) : ℕ :=
  match store (groupKey i) with
  | some text => natOfDigits text
  | none => 1

/-- Config and store agree on all 64 keys. -/
structure Mirrors (config : Config) (store : Store) : Prop where
  port : ∀ i : Fin 32, config.inputChannels.get i = store (portKey i)
  isByte : ∀ i text, store (groupKey i) = some text → IsByte text
  group : ∀ i : Fin 32, (config.inputChannelGroups.get i).toNat = groupNumber store i

/-! ## Batches of such events -/

theorem natOfDigits_of_stoi {value : GroupValue} :
    stoi value.text = .ok (natOfDigits value.text : ℤ) := by
  obtain ⟨hne, hdigits, hle⟩ := value.isByte
  exact stoi_of_digits hne hdigits (by omega)

theorem applyEvent_toEvent (config : Config) (event : SlotEvent) :
    ∃ changed, applyEvent config event.toEvent = .ok (event.onConfig config, changed) ∧
      (changed = false → event.onConfig config = config) := by
  cases event with
  | setPort i type value =>
      refine ⟨decide (config.inputChannels.get i ≠ some value), ?_, ?_⟩
      · rw [SlotEvent.toEvent, portKey, applyEvent_update_port, slot_of_stoi.mpr (stoi_slot i)]
        rfl
      · intro hunchanged
        refine setPort_eq_self_iff.mpr ?_
        simpa using hunchanged
  | clearPort i =>
      refine ⟨true, ?_, fun h => by cases h⟩
      rw [SlotEvent.toEvent, portKey, applyEvent_delete_port, slot_of_stoi.mpr (stoi_slot i)]
      rfl
  | setGroup i type value =>
      refine ⟨true, ?_, fun h => by cases h⟩
      rw [SlotEvent.toEvent, groupKey, applyEvent_update_group, stoi_slot, natOfDigits_of_stoi]
      show (slot (i.val + 1 : ℤ) >>= _) = _
      rw [slot_eq_ok.mpr rfl]
      rfl
  | clearGroup i =>
      refine ⟨false, ?_, fun _ => rfl⟩
      have hother : ¬ startsWith (groupKey i) channelPortPrefix = true := by
        rw [groupKey, not_startsWith_port]
        exact Bool.false_ne_true
      rw [SlotEvent.toEvent, applyEvent, if_neg hother]
      rfl

/-- A batch has the effect of its events one after another, and without the flag
it has none. -/
theorem applyBatch_toEvents (events : List SlotEvent) (config : Config) :
    ∃ changed, applyBatch config (events.map SlotEvent.toEvent) =
        .ok (events.foldl SlotEvent.onConfig config, changed) ∧
      (changed = false → events.foldl SlotEvent.onConfig config = config) := by
  induction events generalizing config with
  | nil => exact ⟨false, rfl, fun _ => rfl⟩
  | cons event rest ih =>
      obtain ⟨first, hfirst, hfirstKept⟩ := applyEvent_toEvent config event
      obtain ⟨second, hsecond, hsecondKept⟩ := ih (event.onConfig config)
      refine ⟨first || second, ?_, ?_⟩
      · rw [List.map_cons, applyBatch_cons, hfirst]
        show (applyBatch (event.onConfig config) (rest.map SlotEvent.toEvent) >>= _) = _
        rw [hsecond]
        rfl
      · intro hflag
        rw [Bool.or_eq_false_iff] at hflag
        rw [List.foldl_cons, hsecondKept hflag.2, hfirstKept hflag.1]

/-! ## One step -/

/-- The config and the last config written are those of the events that have been
applied, and the others are still to come. -/
structure Follows (config : Config) (store : Store) (s : State) : Prop where
  store_eq : s.store = s.events.foldl SlotEvent.onStore store
  written_eq : s.written = s.config
  partition : ∃ applied pending, s.events = applied ++ pending ∧
    s.batch ++ s.queue = pending.map SlotEvent.toEvent ∧
    s.config = applied.foldl SlotEvent.onConfig config

theorem follows_step {config : Config} {store : Store} {s s' : State} {label : Label}
    (hfollows : Follows config store s) (hstep : step s label = some s') :
    Follows config store s' := by
  obtain ⟨hstore, hwritten, applied, pending, hevents, hpending, hconfig⟩ := hfollows
  cases label with
  | event event =>
      cases hstep
      refine ⟨?_, hwritten, applied, pending ++ [event], ?_, ?_, hconfig⟩
      · rw [List.foldl_append, ← hstore]
        rfl
      · rw [hevents, List.append_assoc]
      · rw [List.map_append, ← hpending, List.append_assoc]
        rfl
  | writer =>
      rw [step, writerStep.eq_def] at hstep
      cases hqueue : s.queue with
      | cons event rest =>
          simp only [hqueue, Option.some.injEq] at hstep
          subst hstep
          refine ⟨hstore, hwritten, applied, pending, hevents, ?_, hconfig⟩
          rw [← hpending, hqueue, List.append_assoc]
          rfl
      | nil =>
          cases hbatch : s.batch with
          | nil =>
              simp only [hqueue, hbatch, Option.some.injEq] at hstep
              subst hstep
              exact ⟨hstore, hwritten, applied, pending, hevents, hpending, hconfig⟩
          | cons event rest =>
              -- the batch is everything that is pending
              obtain ⟨changed, hresult, hkept⟩ := applyBatch_toEvents pending s.config
              rw [← hpending, hqueue, List.append_nil, hbatch] at hresult
              simp only [hqueue, hbatch, hresult, Option.some.injEq] at hstep
              subst hstep
              refine ⟨hstore, ?_, s.events, [], by rw [List.append_nil], rfl, ?_⟩
              · cases changed with
                | true => rfl
                | false => exact hwritten.trans (hkept rfl).symm
              · rw [hevents, List.foldl_append, ← hconfig]

theorem follows_of_run {config : Config} {store : Store} {labels : List Label} {s : State}
    (run : Reaches step (initial config store) labels s) : Follows config store s := by
  refine run.state_invariant ⟨rfl, rfl, [], [], rfl, rfl, rfl⟩ ?_
  intro s label s' hfollows _ hstep
  exact follows_step hfollows hstep

/-! ## What the events leave -/

/-- The ports of config and store take every event alike. -/
theorem ports_mirror (events : List SlotEvent) {config : Config} {store : Store}
    (hmirrors : ∀ i : Fin 32, config.inputChannels.get i = store (portKey i)) (i : Fin 32) :
    (events.foldl SlotEvent.onConfig config).inputChannels.get i =
      events.foldl SlotEvent.onStore store (portKey i) := by
  induction events generalizing config store with
  | nil => exact hmirrors i
  | cons event rest ih =>
      rw [List.foldl_cons, List.foldl_cons]
      refine ih fun j => ?_
      cases event with
      | setPort k type value =>
          simp only [SlotEvent.onConfig, SlotEvent.onStore, get_setPort, Function.update_apply,
            portKey_injective.eq_iff, hmirrors, eq_comm]
      | clearPort k =>
          simp only [SlotEvent.onConfig, SlotEvent.onStore, get_setPort, Function.update_apply,
            portKey_injective.eq_iff, hmirrors, eq_comm]
      | setGroup k type value =>
          rw [SlotEvent.onStore, Function.update_of_ne (portKey_ne_groupKey j k)]
          exact hmirrors j
      | clearGroup k =>
          rw [SlotEvent.onStore, Function.update_of_ne (portKey_ne_groupKey j k)]
          exact hmirrors j

/-- A group of the config is the last number stored for it. -/
theorem group_eq_last (events : List SlotEvent) (config : Config) (i : Fin 32) :
    ((events.foldl SlotEvent.onConfig config).inputChannelGroups.get i).toNat =
      events.foldl (SlotEvent.onGroup i) (config.inputChannelGroups.get i).toNat := by
  induction events generalizing config with
  | nil => rfl
  | cons event rest ih =>
      rw [List.foldl_cons, List.foldl_cons, ih]
      congr 1
      cases event with
      | setPort k type value => rfl
      | clearPort k => rfl
      | setGroup k type value =>
          have hbyte := value.isByte.2.2
          rw [SlotEvent.onConfig, get_setGroup, SlotEvent.onGroup]
          split
          · rw [UInt8.ofInt, UInt8.toNat_ofNat']
            omega
          · rfl
      | clearGroup k => rfl

/-- So is a number in the store. -/
theorem stored_eq_last (events : List SlotEvent) {store : Store} {i : Fin 32} {start : ℕ}
    (hstart : ∀ text, store (groupKey i) = some text → IsByte text ∧ natOfDigits text = start)
    {text : Str} (htext : events.foldl SlotEvent.onStore store (groupKey i) = some text) :
    IsByte text ∧ natOfDigits text = events.foldl (SlotEvent.onGroup i) start := by
  induction events generalizing store start with
  | nil => exact hstart text htext
  | cons event rest ih =>
      refine ih ?_ htext
      intro current hcurrent
      cases event with
      | setPort k type value =>
          rw [SlotEvent.onStore, Function.update_of_ne (portKey_ne_groupKey k i).symm] at hcurrent
          exact hstart current hcurrent
      | clearPort k =>
          rw [SlotEvent.onStore, Function.update_of_ne (portKey_ne_groupKey k i).symm] at hcurrent
          exact hstart current hcurrent
      | setGroup k type value =>
          rw [SlotEvent.onGroup]
          by_cases hk : k = i
          · rw [SlotEvent.onStore, hk, Function.update_self, Option.some.injEq] at hcurrent
            rw [if_pos hk, ← hcurrent]
            exact ⟨value.isByte, rfl⟩
          · rw [SlotEvent.onStore,
              Function.update_of_ne (groupKey_injective.ne (Ne.symm hk))] at hcurrent
            rw [if_neg hk]
            exact hstart current hcurrent
      | clearGroup k =>
          -- a deleted key has no number to agree with
          by_cases hk : k = i
          · rw [SlotEvent.onStore, hk, Function.update_self] at hcurrent
            cases hcurrent
          · rw [SlotEvent.onStore,
              Function.update_of_ne (groupKey_injective.ne (Ne.symm hk))] at hcurrent
            exact hstart current hcurrent

/-- After any events, config and store agree exactly if the groups without a key
were last stored as 1. -/
theorem mirrors_foldl_iff {config : Config} {store : Store} (hmirrors : Mirrors config store)
    (events : List SlotEvent) :
    Mirrors (events.foldl SlotEvent.onConfig config) (events.foldl SlotEvent.onStore store) ↔
      ∀ i : Fin 32, events.foldl SlotEvent.onStore store (groupKey i) = none →
        events.foldl (SlotEvent.onGroup i) (config.inputChannelGroups.get i).toNat = 1 := by
  have hstart : ∀ (i : Fin 32) text, store (groupKey i) = some text →
      IsByte text ∧ natOfDigits text = (config.inputChannelGroups.get i).toNat := by
    intro i text htext
    rw [hmirrors.group i, groupNumber, htext]
    exact ⟨hmirrors.isByte i text htext, rfl⟩
  constructor
  · intro hfinal i habsent
    calc events.foldl (SlotEvent.onGroup i) (config.inputChannelGroups.get i).toNat
        = ((events.foldl SlotEvent.onConfig config).inputChannelGroups.get i).toNat :=
          (group_eq_last events config i).symm
      _ = groupNumber (events.foldl SlotEvent.onStore store) i := hfinal.group i
      _ = 1 := by rw [groupNumber, habsent]
  · intro hdefault
    refine ⟨ports_mirror events hmirrors.port, fun i text htext => ?_, fun i => ?_⟩
    · exact (stored_eq_last events (hstart i) htext).1
    · rw [group_eq_last, groupNumber]
      cases htext : events.foldl SlotEvent.onStore store (groupKey i) with
      | none => exact hdefault i htext
      | some text => exact (stored_eq_last events (hstart i) htext).2.symm

/-! ## Whole runs -/

/-- **The mirror.**  The last config written is always the config.  Once all events
are applied, the config is their effect in order, and it mirrors the store
exactly if every group whose key is absent was last stored as 1. -/
theorem mirror_iff {config : Config} {store : Store} (hmirrors : Mirrors config store)
    {labels : List Label} {s : State} (run : Reaches step (initial config store) labels s) :
    (s.written = s.config ∧ (Drained s → Mirrors s.config s.store ∧
        s.config = s.events.foldl SlotEvent.onConfig config)) ↔
      (Drained s → ∀ i : Fin 32, s.store (groupKey i) = none →
        s.events.foldl (SlotEvent.onGroup i) (config.inputChannelGroups.get i).toNat = 1) := by
  obtain ⟨hstore, hwritten, applied, pending, hevents, hpending, hconfig⟩ := follows_of_run run
  have hdrained : Drained s → s.config = s.events.foldl SlotEvent.onConfig config := by
    rintro ⟨hqueue, hbatch⟩
    rw [hqueue, hbatch] at hpending
    have hnone : pending = [] := List.map_eq_nil_iff.mp hpending.symm
    rw [hconfig, hevents, hnone, List.append_nil]
  constructor
  · rintro ⟨_, hmirror⟩ hdone
    have hfinal := (hmirror hdone).1
    rw [hdrained hdone, hstore, mirrors_foldl_iff hmirrors] at hfinal
    rw [hstore]
    exact hfinal
  · intro hdefault
    refine ⟨hwritten, fun hdone => ⟨?_, hdrained hdone⟩⟩
    rw [hdrained hdone, hstore, mirrors_foldl_iff hmirrors, ← hstore]
    exact hdefault hdone

/-- Without keys the store agrees with the default config. -/
theorem mirrors_default : Mirrors defaultConfig fun _ => none := by
  refine ⟨fun i => ?_, fun _ _ h => (by cases h), fun i => ?_⟩
  · exact get_defaultConfig i
  · rw [get_groups_defaultConfig]
    rfl

theorem isByte_decimal {n : ℕ} (hn : n ≤ 255) : IsByte (decimal n) := by
  refine ⟨decimal_ne_nil n, isDigit_of_mem_decimal n, ?_⟩
  rw [natOfDigits_decimal]
  exact hn

/-- The group with a number. -/
def groupValue (n : ℕ) (h : 1 ≤ n ∧ n ≤ 255) : GroupValue where
  text := decimal n
  isByte := isByte_decimal h.2
  pos := by
    rw [natOfDigits_decimal]
    exact h.1

def fifthGroup : GroupValue := groupValue 5 (by decide)

/-- Two batches with sets and deletions of ports and groups; the group that is deleted was
set to the default. -/
def twoBatches (i j : Fin 32) : List Label :=
  [.event (.setGroup i (lit "Spa:String:JSON") fifthGroup),
    .event (.setPort i (lit "Spa:String:JSON") (lit "capture_1")),
    .event (.setGroup j (lit "Spa:String:JSON") (groupValue 1 (by decide))),
    .writer, .writer, .writer, .writer,
    .event (.setPort j (lit "Spa:String:JSON") (lit "capture_2")), .event (.clearPort i),
    .event (.clearGroup j), .writer, .writer, .writer, .writer]

theorem mirror_iff_two_batches : ∃ s : State, Drained s ∧ Mirrors s.config s.store ∧
    s.written = s.config ∧ s.config.inputChannels.get 0 = none ∧
      s.config.inputChannels.get 1 = some (lit "capture_2") ∧
        s.config.inputChannelGroups.get 0 = 5 ∧ s.config.inputChannelGroups.get 1 = 1 := by
  have htrace : (exec step (initial defaultConfig fun _ => none) (twoBatches 0 1)).map
      (fun s => decide ((s.queue = [] ∧ s.batch = []) ∧
        (∀ i : Fin 32, s.store (groupKey i) = none →
          s.events.foldl (SlotEvent.onGroup i) 1 = 1) ∧
        s.config.inputChannels.get 0 = none ∧
        s.config.inputChannels.get 1 = some (lit "capture_2") ∧
        s.config.inputChannelGroups.get 0 = 5 ∧ s.config.inputChannelGroups.get 1 = 1)) =
      some true := by
    decide +kernel
  obtain ⟨s, run, hs⟩ := exists_of_exec htrace
  obtain ⟨hdrained, hgroups, hconfig⟩ := of_decide_eq_true hs
  have hdefault : ∀ i : Fin 32, (defaultConfig.inputChannelGroups.get i).toNat = 1 := by
    intro i
    rw [get_groups_defaultConfig]
    rfl
  have hmirror := (mirror_iff mirrors_default run).mpr fun _ i habsent => by
    rw [hdefault i]
    exact hgroups i habsent
  exact ⟨s, hdrained, (hmirror.2 hdrained).1, hmirror.1, hconfig⟩

/-- The fifth group is set and its key deleted: the config keeps the five. -/
theorem deleted_group_kept :
    ¬ ∀ labels s, Reaches step (initial defaultConfig fun _ => none) labels s → Drained s →
      Mirrors s.config s.store := by
  intro h
  have htrace : (exec step (initial defaultConfig fun _ => none)
      [.event (.setGroup 0 (lit "Spa:String:JSON") fifthGroup), .event (.clearGroup 0), .writer,
        .writer, .writer]).map (fun s => decide ((s.queue = [] ∧ s.batch = []) ∧
          s.store (groupKey 0) = none ∧ s.config.inputChannelGroups.get 0 = 5)) =
      some true := by
    decide
  obtain ⟨s, run, hs⟩ := exists_of_exec htrace
  obtain ⟨hdrained, habsent, hfive⟩ := of_decide_eq_true hs
  have hgroup := (h _ s run hdrained).group 0
  rw [groupNumber, habsent, hfive] at hgroup
  revert hgroup
  decide

end Pmx.MetadataManager
