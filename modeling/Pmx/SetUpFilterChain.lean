import Pmx.FilterGraph
import Pmx.Library.Transition

/-!
# `pmx_set_up_filter_chain.lua`

The script remembers the last node it has seen under each of five names and
tells `pmx-filter-chain-ctrl` the object ids of the other four, in a `Props`
message whose fields are to be read as alternating keys and values.  Every node
that is added pushes an event of its own, and the message is set when that event
is handled.

An unknown node is `nil` in the table that the message is built from: the hole
is not serialised, and the fields behind it move up by one.
-/

namespace Pmx.SetUpFilterChain

open Cxx Transition

/-- The local variables of the script. -/
inductive NodeVar
  | filterChain
  | layerChannels
  | inputChannels
  | groupAChannels
  | groupBChannels
  deriving DecidableEq, Repr

/-- The node name in the interest of the variable's hook. -/
def NodeVar.nodeName : NodeVar → Str
  | .filterChain => lit "pmx-filter-chain-ctrl"
  | .layerChannels => lit "pmx-layer-channels-ins"
  | .inputChannels => lit "pmx-input-channels-ins"
  | .groupAChannels => lit "pmx-group-channels-a-ins"
  | .groupBChannels => lit "pmx-group-channels-b-ins"

/-- A field of a struct pod. -/
inductive Field
  | string (text : Str)
  | int (value : ℕ)
  deriving DecidableEq, Repr

/-- `pending` counts the `update-fc-ids` events that have been pushed and not
handled yet; `sent` are the messages set so far, each with its node. -/
structure State where
  nodes : NodeVar → Option ℕ
  pending : ℕ
  sent : List (ℕ × List Field)

/-- No node has come. -/
def initial : State :=
  ⟨fun _ => none, 0, []⟩

/-- A node is added, or `update_fc_ids` runs. -/
inductive Event
  | nodeAdded (name : Str) (objectId : ℕ)
  | updateFcIds
  deriving DecidableEq, Repr

/-! ## The hooks -/

/-- The body of the five hooks for added nodes. -/
def find (v : NodeVar) (s : State) (objectId : ℕ) : State :=
  { s with
    nodes := Function.update s.nodes v (some objectId)
    pending := s.pending + 1 }

/-- The hook for the node of the program. -/
def findFilterChain : State → ℕ → State := find .filterChain

def findLayerChannels : State → ℕ → State := find .layerChannels

def findInputChannels : State → ℕ → State := find .inputChannels

def findGroupAChannels : State → ℕ → State := find .groupAChannels

def findGroupBChannels : State → ℕ → State := find .groupBChannels

/-- The hooks whose interest names a node. -/
def nodeAdded (s : State) (name : Str) (objectId : ℕ) : State :=
  if name = NodeVar.filterChain.nodeName then findFilterChain s objectId
  else if name = NodeVar.layerChannels.nodeName then findLayerChannels s objectId
  else if name = NodeVar.inputChannels.nodeName then findInputChannels s objectId
  else if name = NodeVar.groupAChannels.nodeName then findGroupAChannels s objectId
  else if name = NodeVar.groupBChannels.nodeName then findGroupBChannels s objectId
  else s

/-- `Pod.Struct`: the entries of the table that are not `nil`, in order. -/
def podStruct (entries : List (Option Field)) : List Field :=
  entries.filterMap id

/-- `params` of the message. -/
def params (nodes : NodeVar → Option ℕ) : List Field :=
  podStruct [
    some (.string (lit "inputChannels")), (nodes .inputChannels).map .int,
    some (.string (lit "groupChannelsA")), (nodes .groupAChannels).map .int,
    some (.string (lit "groupChannelsB")), (nodes .groupBChannels).map .int,
    some (.string (lit "layerChannels")), (nodes .layerChannels).map .int]

/-- `set_filter_chain_parameters`. -/
def setFilterChainParameters (s : State) : State :=
  match s.nodes .filterChain with
  | some filterChain => { s with sent := s.sent ++ [(filterChain, params s.nodes)] }
  | none => s

/-- An event is handled; an `update-fc-ids` event only if one is pending. -/
def step (s : State) : Event → Option State
  | .nodeAdded name objectId => some (nodeAdded s name objectId)
  | .updateFcIds =>
      if s.pending = 0 then none
      else some (setFilterChainParameters { s with pending := s.pending - 1 })

/-! ## What the message is to say -/

/-- The keys of the message and the nodes they stand for. -/
def chainKeys : List (Str × NodeVar) :=
  [(lit "inputChannels", .inputChannels), (lit "groupChannelsA", .groupAChannels),
    (lit "groupChannelsB", .groupBChannels), (lit "layerChannels", .layerChannels)]

/-- The fields as alternating keys and values; a key at the end has no value. -/
def readPairs : List Field → List (Field × Field)
  | key :: value :: rest => (key, value) :: readPairs rest
  | _ => []

/-- The object id of an added node of the variable's name. -/
def addedAs (v : NodeVar) : Event → Option ℕ
  | .nodeAdded name objectId => if name = v.nodeName then some objectId else none
  | .updateFcIds => none

/-- The most recently added node of the variable's name. -/
def lastAdded (events : List Event) (v : NodeVar) : Option ℕ :=
  (events.filterMap (addedAs v)).getLast?

/-- The fields map every key to the last node of its name, and say nothing else. -/
def IsSnapshot (events : List Event) (fields : List Field) : Prop :=
  ∀ entry, entry ∈ readPairs fields ↔
    ∃ key v objectId, (key, v) ∈ chainKeys ∧
      lastAdded events v = some objectId ∧ entry = (.string key, .int objectId)

/-- The last message set on a node. -/
def lastMessage (s : State) (node : ℕ) : Option (List Field) :=
  ((s.sent.filter fun message => message.1 = node).getLast?).map Prod.snd

/-- The last message on the node is the snapshot. -/
def SnapshotSet (events : List Event) (s : State) (node : ℕ) : Prop :=
  ∃ fields, lastMessage s node = some fields ∧ IsSnapshot events fields

/-! ## The variables and the last message -/

theorem nodeName_injective : Function.Injective NodeVar.nodeName := by
  intro v w h
  cases v <;> cases w <;> first | rfl | exact absurd h (by decide)

/-- The hook of the variable that has the name, and no other, handles a node. -/
theorem nodeAdded_cases (s : State) (name : Str) (objectId : ℕ) :
    (∃ v, name = v.nodeName ∧ nodeAdded s name objectId = find v s objectId) ∨
      (∀ v : NodeVar, name ≠ v.nodeName) ∧ nodeAdded s name objectId = s := by
  unfold nodeAdded
  split_ifs with h₁ h₂ h₃ h₄ h₅
  · exact Or.inl ⟨.filterChain, h₁, rfl⟩
  · exact Or.inl ⟨.layerChannels, h₂, rfl⟩
  · exact Or.inl ⟨.inputChannels, h₃, rfl⟩
  · exact Or.inl ⟨.groupAChannels, h₄, rfl⟩
  · exact Or.inl ⟨.groupBChannels, h₅, rfl⟩
  · refine Or.inr ⟨fun v => ?_, rfl⟩
    cases v with
    | filterChain => exact h₁
    | layerChannels => exact h₂
    | inputChannels => exact h₃
    | groupAChannels => exact h₄
    | groupBChannels => exact h₅

/-- A hook changes its own variable only. -/
theorem nodeAdded_nodes (s : State) (name : Str) (objectId : ℕ) (v : NodeVar) :
    (nodeAdded s name objectId).nodes v =
      if name = v.nodeName then some objectId else s.nodes v := by
  rcases nodeAdded_cases s name objectId with ⟨w, rfl, hfound⟩ | ⟨hother, hsame⟩
  · rw [hfound]
    refine (Function.update_apply s.nodes w (some objectId) v).trans ?_
    exact if_congr (eq_comm.trans nodeName_injective.eq_iff.symm) rfl rfl
  · rw [hsame, if_neg (hother v)]

theorem lastAdded_append (events : List Event) (event : Event) (v : NodeVar) :
    lastAdded (events ++ [event]) v =
      (addedAs v event).or (lastAdded events v) := by
  unfold lastAdded
  rw [List.filterMap_append]
  cases h : addedAs v event <;> simp [h]

theorem lastMessage_set (s : State) (node : ℕ) (fields : List Field) :
    lastMessage { s with sent := s.sent ++ [(node, fields)] } node = some fields := by
  simp [lastMessage, List.filter_append]

/-- The variables hold the last nodes, and once no event is pending the last
message has been built from them. -/
structure UpToDate (events : List Event) (s : State) : Prop where
  nodes : ∀ v, s.nodes v = lastAdded events v
  message : s.pending = 0 → ∀ node, s.nodes .filterChain = some node →
    lastMessage s node = some (params s.nodes)

theorem upToDate_nodeAdded {events : List Event} {s : State} (h : UpToDate events s)
    (name : Str) (objectId : ℕ) :
    UpToDate (events ++ [.nodeAdded name objectId]) (nodeAdded s name objectId) := by
  constructor
  · intro v
    rw [nodeAdded_nodes, lastAdded_append, h.nodes, addedAs]
    split <;> rfl
  · intro hpending node hnode
    rcases nodeAdded_cases s name objectId with ⟨v, _, hfound⟩ | ⟨_, hsame⟩
    · -- the hook has pushed an event
      rw [hfound] at hpending
      exact absurd hpending (Nat.succ_ne_zero _)
    · rw [hsame] at hpending hnode ⊢
      exact h.message hpending node hnode

theorem upToDate_update {events : List Event} {s : State} (h : UpToDate events s) :
    UpToDate (events ++ [.updateFcIds])
      (setFilterChainParameters { s with pending := s.pending - 1 }) := by
  have hnodes : ∀ v, s.nodes v = lastAdded (events ++ [.updateFcIds]) v := by
    intro v
    rw [lastAdded_append, h.nodes]
    rfl
  unfold setFilterChainParameters
  cases hctrl : s.nodes .filterChain with
  | none =>
      refine ⟨hnodes, fun _ node hnode => ?_⟩
      rw [hctrl] at hnode
      cases hnode
  | some filterChain =>
      refine ⟨hnodes, fun _ node hnode => ?_⟩
      have hnode : s.nodes .filterChain = some node := hnode
      rw [hctrl] at hnode
      cases hnode
      exact lastMessage_set _ _ _

theorem upToDate_of_run {events : List Event} {s : State}
    (run : Reaches step initial events s) : UpToDate events s := by
  refine run.invariant (I := UpToDate) ⟨fun _ => rfl, fun _ _ h => by cases h⟩ ?_
  intro events s event s' h _ hstep
  cases event with
  | nodeAdded name objectId =>
      cases hstep
      exact upToDate_nodeAdded h name objectId
  | updateFcIds =>
      simp only [step] at hstep
      split at hstep
      · cases hstep
      · cases hstep
        exact upToDate_update h

/-! ## When the message is a snapshot -/

/-- Which entry a snapshot has for a key. -/
def entryOf (events : List Event) (key : Str) (v : NodeVar) : List (Field × Field) :=
  ((lastAdded events v).map fun objectId => (Field.string key, Field.int objectId)).toList

theorem isSnapshot_iff_mem (events : List Event) (fields : List Field) :
    IsSnapshot events fields ↔ ∀ entry, entry ∈ readPairs fields ↔
      entry ∈ chainKeys.flatMap fun keyed => entryOf events keyed.1 keyed.2 := by
  have hentries : ∀ entry, (entry ∈ chainKeys.flatMap fun keyed => entryOf events keyed.1 keyed.2) ↔
      ∃ key v objectId, (key, v) ∈ chainKeys ∧
        lastAdded events v = some objectId ∧ entry = (.string key, .int objectId) := by
    intro entry
    simp only [List.mem_flatMap, entryOf, Option.mem_toList, Option.map_eq_some_iff, Prod.exists]
    constructor
    · rintro ⟨key, v, hmem, objectId, hadded, rfl⟩
      exact ⟨key, v, objectId, hmem, hadded, rfl⟩
    · rintro ⟨key, v, objectId, hmem, hadded, rfl⟩
      exact ⟨key, v, hmem, objectId, hadded, rfl⟩
  simp only [IsSnapshot, hentries]

/-- A snapshot has no key for a value. -/
theorem IsSnapshot.value_int {events : List Event} {fields : List Field}
    (h : IsSnapshot events fields) (key text : Str) :
    (Field.string key, Field.string text) ∉ readPairs fields := by
  intro hmem
  obtain ⟨_, _, _, _, _, hentry⟩ := (h _).mp hmem
  cases hentry

/-- The first missing node puts the next key where its id belongs. -/
theorem exists_shifted {events : List Event}
    (hmissing : lastAdded events .inputChannels = none ∨ lastAdded events .groupAChannels = none ∨
      lastAdded events .groupBChannels = none) :
    ∃ key text,
      (Field.string key, Field.string text) ∈ readPairs (params (lastAdded events)) := by
  cases hinput : lastAdded events .inputChannels with
  | none =>
      refine ⟨lit "inputChannels", lit "groupChannelsA", ?_⟩
      simp [params, podStruct, hinput, readPairs]
  | some _ =>
      cases hgroupA : lastAdded events .groupAChannels with
      | none =>
          refine ⟨lit "groupChannelsA", lit "groupChannelsB", ?_⟩
          simp [params, podStruct, hinput, hgroupA, readPairs]
      | some _ =>
          have hgroupB : lastAdded events .groupBChannels = none := by
            simpa [hinput, hgroupA] using hmissing
          refine ⟨lit "groupChannelsB", lit "layerChannels", ?_⟩
          simp [params, podStruct, hinput, hgroupA, hgroupB, readPairs]

/-- With the first three nodes known, the only hole is behind the last key. -/
theorem isSnapshot_params_iff (events : List Event) :
    IsSnapshot events (params (lastAdded events)) ↔
      lastAdded events .inputChannels ≠ none ∧ lastAdded events .groupAChannels ≠ none ∧
        lastAdded events .groupBChannels ≠ none := by
  constructor
  · intro h
    by_contra hmissing
    simp only [not_and_or, not_not] at hmissing
    obtain ⟨key, text, hshifted⟩ := exists_shifted hmissing
    exact h.value_int key text hshifted
  · rintro ⟨hinput, hgroupA, hgroupB⟩
    obtain ⟨input, hinput⟩ := Option.ne_none_iff_exists'.mp hinput
    obtain ⟨groupA, hgroupA⟩ := Option.ne_none_iff_exists'.mp hgroupA
    obtain ⟨groupB, hgroupB⟩ := Option.ne_none_iff_exists'.mp hgroupB
    rw [isSnapshot_iff_mem]
    intro entry
    cases hlayer : lastAdded events .layerChannels <;>
      simp [params, podStruct, hinput, hgroupA, hgroupB, hlayer, readPairs, chainKeys, entryOf]

/-- **The node ids.**  Once every event is handled, the last message on the most
recent controller is the snapshot exactly when a node of each of the first three
names has been added. -/
theorem snapshotSet_iff {events : List Event} {s : State}
    (run : Reaches step initial events s) (hhandled : s.pending = 0) {node : ℕ}
    (hnode : lastAdded events .filterChain = some node) :
    SnapshotSet events s node ↔
      lastAdded events .inputChannels ≠ none ∧ lastAdded events .groupAChannels ≠ none ∧
        lastAdded events .groupBChannels ≠ none := by
  have hcurrent := upToDate_of_run run
  have hnodes : s.nodes = lastAdded events := funext hcurrent.nodes
  have hmessage := hcurrent.message hhandled node (by rw [hcurrent.nodes, hnode])
  rw [hnodes] at hmessage
  rw [← isSnapshot_params_iff]
  constructor
  · rintro ⟨fields, hlast, hsnapshot⟩
    rw [hmessage] at hlast
    cases hlast
    exact hsnapshot
  · exact fun hsnapshot => ⟨_, hmessage, hsnapshot⟩

/-- All nodes in turn, then the events they have pushed. -/
def completeSession : List Event :=
  [.nodeAdded NodeVar.filterChain.nodeName 30, .nodeAdded NodeVar.inputChannels.nodeName 31,
    .nodeAdded NodeVar.groupAChannels.nodeName 32, .nodeAdded NodeVar.groupBChannels.nodeName 33,
    .nodeAdded NodeVar.layerChannels.nodeName 34, .updateFcIds, .updateFcIds, .updateFcIds,
    .updateFcIds, .updateFcIds]

theorem snapshotSet_iff_complete :
    ∃ s, Reaches step initial completeSession s ∧ SnapshotSet completeSession s 30 := by
  have htrace : (exec step initial completeSession).map (fun s => decide (s.pending = 0)) =
      some true := by decide
  obtain ⟨s, run, hhandled⟩ := exists_of_exec htrace
  refine ⟨s, run, ?_⟩
  have hnode : lastAdded completeSession .filterChain = some 30 := by decide
  exact (snapshotSet_iff run (of_decide_eq_true hhandled) hnode).mpr
    ⟨by decide, by decide, by decide⟩

/-- The controller comes first, and is told that `groupChannelsA` is the id of
`inputChannels`. -/
theorem lone_controller_shifted :
    ¬ ∀ events s node, Reaches step initial events s → s.pending = 0 →
      lastAdded events .filterChain = some node → SnapshotSet events s node := by
  intro h
  have htrace : (exec step initial
      [.nodeAdded NodeVar.filterChain.nodeName 30, .updateFcIds]).map
        (fun s => decide (s.pending = 0)) = some true := by decide
  obtain ⟨s, run, hhandled⟩ := exists_of_exec htrace
  have hnode : lastAdded [.nodeAdded NodeVar.filterChain.nodeName 30, .updateFcIds]
      .filterChain = some 30 := by decide
  obtain ⟨fields, hfields, hsnapshot⟩ := h _ s 30 run (of_decide_eq_true hhandled) hnode
  have hlast : lastMessage s 30 = some [.string (lit "inputChannels"),
      .string (lit "groupChannelsA"), .string (lit "groupChannelsB"),
      .string (lit "layerChannels")] := by
    have hcurrent := upToDate_of_run run
    rw [hcurrent.message (of_decide_eq_true hhandled) 30 (by rw [hcurrent.nodes]; exact hnode),
      funext hcurrent.nodes]
    decide
  rw [hlast] at hfields
  cases hfields
  exact hsnapshot.value_int (lit "inputChannels") (lit "groupChannelsA") (by decide)

end Pmx.SetUpFilterChain
