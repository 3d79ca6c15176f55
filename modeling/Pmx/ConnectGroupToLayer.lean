import Pmx.FilterGraph.Mixers
import Pmx.Library.Lua
import Pmx.Library.Patchbay

/-!
# `pmx_connect_group_to_layer.lua`

The script links the outputs of the two group chains to the inputs of the layer
chain.  It remembers the last node it has seen under each of three names; a new
group is linked to the layer if there is one, and a new layer to the groups that
there are.  Group A gets the inputs 0 and 1 of the layer and group B the inputs 2
and 3.

These are the inputs of the strips A and B of the layer graph, so that the mixers
of the layer put out a mix of what the groups put out, and this is a mix of what
goes into the groups (`output_of_arrivals`).
-/

namespace Pmx.ConnectGroupToLayer

open Cxx SignalGraph FilterGraph FilterGraph.Mixers
open FilterChainCtrl (Side)
open Patchbay (lastOf)

/-- The two sides of the group channels. -/
inductive Group
  | A
  | B
  deriving DecidableEq

/-- The nodes that the script looks for. -/
inductive Channels
  | groupOuts (group : Group)
  | layerIns
  deriving DecidableEq

/-- The node name in the interest of a hook. -/
def Channels.nodeName : Channels → Str
  | .groupOuts .A => lit "pmx-group-channels-a-outs"
  | .groupOuts .B => lit "pmx-group-channels-b-outs"
  | .layerIns => lit "pmx-layer-channels-ins"

/-- A node with its property `object.id`, which is a decimal text. -/
structure Node where
  nodeName : Str
  objectId : Option UInt32
  deriving DecidableEq

/-- A value in the table of a new link. -/
inductive Value
  | string (text : Str)
  | number (value : Lua.Number)

/-- The text that the property gets.  The one of a float is left out. -/
def Value.text : Value → Option Str
  | .string text => some text
  | .number (.integer value) => some (Lua.tostring value)
  | .number .float => none

/-- The properties of a link.  A property that is `nil` is missing. -/
structure Link where
  outputPort : ℕ
  inputPort : ℕ
  outputNode : Option Value
  inputNode : Option Value

/-- The text of an object id. -/
def idText (id : UInt32) : Str :=
  decimal id.toNat

/-- The body of `connect_group_a_to_layer`, inside of its `pcall`.  Without an id
what is printed first cannot be concatenated; the error ends the body. -/
def connectGroupAToLayer (group layer : Node) : List Link :=
  match group.objectId, layer.objectId with
  | some output, some input =>
      [⟨0, 0, (Lua.tonumber (idText output)).map .number,
          (Lua.tonumber (idText input)).map .number⟩,
        ⟨1, 1, (Lua.tonumber (idText output)).map .number,
          (Lua.tonumber (idText input)).map .number⟩]
  | _, _ => []

/-- The body of `connect_group_b_to_layer`, which leaves the ids as they are. -/
def connectGroupBToLayer (group layer : Node) : List Link :=
  match group.objectId, layer.objectId with
  | some output, some input =>
      [⟨0, 2, some (.string (idText output)), some (.string (idText input))⟩,
        ⟨1, 3, some (.string (idText output)), some (.string (idText input))⟩]
  | _, _ => []

/-- The global variables, which hold the last node of each kind, and the links. -/
structure State where
  groupChannelsAOuts : Option Node
  groupChannelsBOuts : Option Node
  layerChannelsIns : Option Node
  links : List Link

/-- All variables are `nil` when the script is loaded. -/
def initial : State :=
  ⟨none, none, none, []⟩

/-- The call of a function for linking, if neither node is `nil`. -/
def connect (function : Node → Node → List Link) (group layer : Option Node) : List Link :=
  match group, layer with
  | some group, some layer => function group layer
  | _, _ => []

/-- The hook for the outputs of group A. -/
def groupChannelsAOutsAdded (s : State) (node : Node) : State :=
  { s with
    groupChannelsAOuts := some node
    links := s.links ++ connect connectGroupAToLayer (some node) s.layerChannelsIns }

/-- The hook for the outputs of group B. -/
def groupChannelsBOutsAdded (s : State) (node : Node) : State :=
  { s with
    groupChannelsBOuts := some node
    links := s.links ++ connect connectGroupBToLayer (some node) s.layerChannelsIns }

/-- The hook for the layer calls both functions, that for group A first. -/
def layerChannelsInsAdded (s : State) (node : Node) : State :=
  { s with
    layerChannelsIns := some node
    links := s.links ++ connect connectGroupAToLayer s.groupChannelsAOuts (some node) ++
      connect connectGroupBToLayer s.groupChannelsBOuts (some node) }

/-- The hooks whose interest names a node. -/
def nodeAdded (s : State) (node : Node) : State :=
  if node.nodeName = Channels.nodeName (.groupOuts .A) then groupChannelsAOutsAdded s node
  else if node.nodeName = Channels.nodeName (.groupOuts .B) then groupChannelsBOutsAdded s node
  else if node.nodeName = Channels.layerIns.nodeName then layerChannelsInsAdded s node
  else s

/-- The state after nodes have come. -/
def run (arrivals : List Node) : State :=
  arrivals.foldl nodeAdded initial

/-! ## Two patch bays -/

/-- The function that links a group. -/
def connectGroupToLayer : Group → Node → Node → List Link
  | .A => connectGroupAToLayer
  | .B => connectGroupBToLayer

/-- The interest of a hook. -/
def isNode (channels : Channels) (node : Node) : Bool :=
  node.nodeName = channels.nodeName

theorem nodeName_injective : Function.Injective Channels.nodeName := by
  intro channels channels' h
  rcases channels with ⟨⟨⟩⟩ | _ <;> rcases channels' with ⟨⟨⟩⟩ | _ <;> first
    | rfl
    | exact absurd h (by decide)

theorem isNode_unique {channels channels' : Channels} {node : Node}
    (h : isNode channels node = true) (h' : isNode channels' node = true) :
    channels = channels' := by
  simp only [isNode, decide_eq_true_eq] at h h'
  exact nodeName_injective (h.symm.trans h')

theorem not_isNode {channels channels' : Channels} (hne : channels ≠ channels') {node : Node}
    (h : isNode channels node = true) : isNode channels' node = false :=
  Bool.eq_false_iff.mpr fun h' => hne (isNode_unique h h')

/-- The last group and the last layer. -/
def rule (group : Group) : Patchbay.Rule Node where
  isSource := isNode (.groupOuts group)
  isTarget := isNode .layerIns
  keepsSources := false
  keepsTargets := false
  disjoint _ h := not_isNode Channels.noConfusion h

/-- The variable for a group. -/
def State.groupOuts (s : State) : Group → Option Node
  | .A => s.groupChannelsAOuts
  | .B => s.groupChannelsBOuts

/-- A link is one of those for a pair of a bay. -/
def LinkOf (bays : Group → Patchbay.Bay Node) (link : Link) : Prop :=
  ∃ group, ∃ pair ∈ (bays group).links, link ∈ connectGroupToLayer group pair.1 pair.2

/-- The variables and the links are those of one patch bay for each group. -/
structure Bays (s : State) (bays : Group → Patchbay.Bay Node) : Prop where
  sources : ∀ group, (s.groupOuts group).toList = (bays group).sources
  targets : ∀ group, s.layerChannelsIns.toList = (bays group).targets
  links : ∀ link, link ∈ s.links ↔ LinkOf bays link

theorem mem_connect {function : Node → Node → List Link} {group layer : Option Node} {link : Link} :
    link ∈ connect function group layer ↔
      ∃ pair ∈ group.toList.product layer.toList, link ∈ function pair.1 pair.2 := by
  cases group <;> cases layer <;> simp [connect, List.product]

/-- The links of both bays after one of them, or both, have linked their tables again. -/
theorem linkOf_append {bays bays' : Group → Patchbay.Bay Node}
    {added : Group → List (Node × Node)}
    (hlinks : ∀ group, (bays' group).links = (bays group).links ++ added group) (link : Link) :
    LinkOf bays' link ↔ LinkOf bays link ∨
      ∃ group, ∃ pair ∈ added group, link ∈ connectGroupToLayer group pair.1 pair.2 := by
  unfold LinkOf
  rw [← exists_or]
  refine exists_congr fun group => ?_
  rw [hlinks, ← exists_or]
  refine exists_congr fun pair => ?_
  rw [List.mem_append, or_and_right]

/-- The hook for a group. -/
def groupAdded (s : State) (group : Group) (node : Node) : State :=
  match group with
  | .A => groupChannelsAOutsAdded s node
  | .B => groupChannelsBOutsAdded s node

theorem nodeAdded_cases (s : State) (node : Node) :
    (∃ group, isNode (.groupOuts group) node = true ∧
        nodeAdded s node = groupAdded s group node) ∨
      (isNode .layerIns node = true ∧ nodeAdded s node = layerChannelsInsAdded s node) ∨
        (∀ channels, isNode channels node = false) ∧ nodeAdded s node = s := by
  unfold nodeAdded
  split_ifs with hA hB hlayer
  · exact Or.inl ⟨.A, decide_eq_true hA, rfl⟩
  · exact Or.inl ⟨.B, decide_eq_true hB, rfl⟩
  · exact Or.inr (Or.inl ⟨decide_eq_true hlayer, rfl⟩)
  · refine Or.inr (Or.inr ⟨fun channels => decide_eq_false ?_, rfl⟩)
    rcases channels with ⟨⟨⟩⟩ | _
    · exact hA
    · exact hB
    · exact hlayer

/-- The bays after a node has been added. -/
def added (bays : Group → Patchbay.Bay Node) (node : Node) (group : Group) : Patchbay.Bay Node :=
  Patchbay.portAdded (rule group) (bays group) node

theorem bays_groupAdded {s : State} {bays : Group → Patchbay.Bay Node} (h : Bays s bays)
    {group : Group} {node : Node} (hnode : isNode (.groupOuts group) node = true) :
    Bays (groupAdded s group node) (added bays node) := by
  -- the bay of the group gets the node as a source, the other one stays
  have hself : added bays node group = Patchbay.sourceAdded (rule group) (bays group) node :=
    Patchbay.portAdded_source hnode _
  have hother : ∀ group', group' ≠ group → added bays node group' = bays group' := by
    intro group' hne
    refine Patchbay.portAdded_other (not_isNode (fun hsame => ?_) hnode)
      (not_isNode Channels.noConfusion hnode) _
    exact hne (Channels.groupOuts.inj hsame).symm
  have hlayer : (groupAdded s group node).layerChannelsIns = s.layerChannelsIns := by
    cases group <;> rfl
  have hlinks : (groupAdded s group node).links =
      s.links ++ connect (connectGroupToLayer group) (some node) s.layerChannelsIns := by
    cases group <;> rfl
  constructor
  case sources =>
    intro group'
    by_cases hgroup : group' = group
    · subst hgroup
      rw [hself]
      cases group' <;> rfl
    · rw [hother group' hgroup, ← h.sources group']
      cases group <;> cases group' <;> first | rfl | exact absurd rfl hgroup
  case targets =>
    intro group'
    rw [hlayer, h.targets group']
    by_cases hgroup : group' = group
    · subst hgroup
      rw [hself]
      rfl
    · rw [hother group' hgroup]
  case links =>
    intro link
    have hadded : ∀ group', (added bays node group').links = (bays group').links ++
        if group' = group then [node].product (bays group).targets else [] := by
      intro group'
      by_cases hgroup : group' = group
      · subst hgroup
        rw [hself, if_pos rfl]
        rfl
      · rw [hother group' hgroup, if_neg hgroup, List.append_nil]
    -- the new links are the ones of the bay of the group
    rw [linkOf_append hadded, hlinks, List.mem_append, h.links, mem_connect, h.targets group]
    refine or_congr_right ⟨fun hpair => ⟨group, by rwa [if_pos rfl]⟩, ?_⟩
    rintro ⟨group', hpair⟩
    by_cases hgroup : group' = group
    · subst hgroup
      rwa [if_pos rfl] at hpair
    · rw [if_neg hgroup] at hpair
      obtain ⟨_, hmem, _⟩ := hpair
      exact absurd hmem List.not_mem_nil

theorem bays_layerAdded {s : State} {bays : Group → Patchbay.Bay Node} (h : Bays s bays)
    {node : Node} (hnode : isNode .layerIns node = true) :
    Bays (layerChannelsInsAdded s node) (added bays node) := by
  have hall : ∀ group, added bays node group =
      Patchbay.targetAdded (rule group) (bays group) node :=
    fun group => Patchbay.portAdded_target hnode _
  constructor
  case sources =>
    intro group
    rw [hall]
    cases group
    · exact h.sources .A
    · exact h.sources .B
  case targets =>
    intro group
    rw [hall]
    rfl
  case links =>
    intro link
    have hadded : ∀ group, (added bays node group).links =
        (bays group).links ++ (s.groupOuts group).toList.product [node] := by
      intro group
      rw [hall, h.sources group]
      rfl
    rw [linkOf_append hadded]
    show link ∈ s.links ++ connect connectGroupAToLayer s.groupChannelsAOuts (some node) ++
      connect connectGroupBToLayer s.groupChannelsBOuts (some node) ↔ _
    rw [List.mem_append, List.mem_append, h.links, mem_connect, mem_connect, or_assoc]
    refine or_congr_right ⟨?_, ?_⟩
    · rintro (hpair | hpair)
      · exact ⟨.A, hpair⟩
      · exact ⟨.B, hpair⟩
    · rintro ⟨_ | _, hpair⟩
      · exact Or.inl hpair
      · exact Or.inr hpair

theorem bays_run (arrivals : List Node) :
    Bays (run arrivals) fun group => Patchbay.run (rule group) arrivals := by
  induction arrivals using List.reverseRecOn with
  | nil =>
      refine ⟨fun group => by cases group <;> rfl, fun _ => rfl, fun link => ?_⟩
      constructor
      · exact fun hlink => absurd hlink List.not_mem_nil
      · rintro ⟨_, _, hpair, _⟩
        exact absurd hpair List.not_mem_nil
  | append_singleton arrivals node ih =>
      have hrun : run (arrivals ++ [node]) = nodeAdded (run arrivals) node := by
        simp [run]
      have hbays : (fun group => Patchbay.run (rule group) (arrivals ++ [node])) =
          added (fun group => Patchbay.run (rule group) arrivals) node :=
        funext fun group => Patchbay.run_append_singleton ..
      rw [hrun, hbays]
      rcases nodeAdded_cases (run arrivals) node with
        ⟨group, hnode, hadded⟩ | ⟨hnode, hadded⟩ | ⟨hnone, hsame⟩
      · rw [hadded]
        exact bays_groupAdded ih hnode
      · rw [hadded]
        exact bays_layerAdded ih hnode
      · have hbaysSame : added (fun group => Patchbay.run (rule group) arrivals) node =
            fun group => Patchbay.run (rule group) arrivals :=
          funext fun group => Patchbay.portAdded_other (hnone _) (hnone _) _
        rw [hsame, hbaysSame]
        exact ih

/-! ## What is linked -/

/-- The link leads from a port of one node to a port of another. -/
def Link.Joins (link : Link) (output : UInt32) (outputPort : ℕ) (input : UInt32)
    (inputPort : ℕ) : Prop :=
  link.outputNode.bind Value.text = some (idText output) ∧ link.outputPort = outputPort ∧
    link.inputNode.bind Value.text = some (idText input) ∧ link.inputPort = inputPort

/-- A link of the script joins two ports. -/
def Linked (s : State) (output : UInt32) (outputPort : ℕ) (input : UInt32)
    (inputPort : ℕ) : Prop :=
  ∃ link ∈ s.links, link.Joins output outputPort input inputPort

/-- The output ports of a group with the input ports of the layer. -/
def portPairs : Group → List (ℕ × ℕ)
  | .A => [(0, 0), (1, 1)]
  | .B => [(0, 2), (1, 3)]

theorem idText_inj {x y : UInt32} : idText x = idText y ↔ x = y := by
  rw [idText, idText, decimal_injective.eq_iff, UInt32.toNat_inj]

/-- What a function puts into the table for an id. -/
def idValue : Group → UInt32 → Option Value
  | .A, id => (Lua.tonumber (idText id)).map .number
  | .B, id => some (.string (idText id))

/-- Both functions name the node by the same text. -/
theorem text_idValue (group : Group) (id : UInt32) :
    (idValue group id).bind Value.text = some (idText id) := by
  cases group with
  | A =>
      have hid : id.toNat ≤ 9223372036854775807 := by
        have := id.toNat_lt
        omega
      rw [idValue, idText, Lua.tonumber_decimal, if_pos hid]
      exact congrArg some (Lua.tostring_natCast _)
  | B => rfl

theorem joins_iff {group : Group} {outs ins output input : UInt32} {ports : ℕ × ℕ}
    {outputPort inputPort : ℕ} :
    (Link.mk ports.1 ports.2 (idValue group outs) (idValue group ins)).Joins output outputPort
        input inputPort ↔
      outs = output ∧ ins = input ∧ ports = (outputPort, inputPort) := by
  rw [Link.Joins, text_idValue, text_idValue, Option.some_inj, Option.some_inj, idText_inj,
    idText_inj, Prod.ext_iff]
  constructor
  · rintro ⟨houtput, houtputPort, hinput, hinputPort⟩
    exact ⟨houtput, hinput, houtputPort, hinputPort⟩
  · rintro ⟨houtput, hinput, houtputPort, hinputPort⟩
    exact ⟨houtput, houtputPort, hinput, hinputPort⟩

theorem joins_connectGroupToLayer (group : Group) (outs ins : Node) (output input : UInt32)
    (outputPort inputPort : ℕ) :
    (∃ link ∈ connectGroupToLayer group outs ins,
        link.Joins output outputPort input inputPort) ↔
      outs.objectId = some output ∧ ins.objectId = some input ∧
        (outputPort, inputPort) ∈ portPairs group := by
  obtain ⟨outsName, outsId⟩ := outs
  obtain ⟨insName, insId⟩ := ins
  cases outsId with
  | none => cases group <;> simp [connectGroupToLayer, connectGroupAToLayer, connectGroupBToLayer]
  | some x =>
      cases insId with
      | none =>
          cases group <;> simp [connectGroupToLayer, connectGroupAToLayer, connectGroupBToLayer]
      | some y =>
          have hlinks : connectGroupToLayer group ⟨outsName, some x⟩ ⟨insName, some y⟩ =
              (portPairs group).map fun ports =>
                ⟨ports.1, ports.2, idValue group x, idValue group y⟩ := by
            cases group <;> rfl
          rw [hlinks]
          constructor
          · rintro ⟨link, hlink, hjoins⟩
            obtain ⟨ports, hports, rfl⟩ := List.mem_map.mp hlink
            obtain ⟨rfl, rfl, rfl⟩ := joins_iff.mp hjoins
            exact ⟨rfl, rfl, hports⟩
          · rintro ⟨houtput, hinput, hports⟩
            exact ⟨_, List.mem_map_of_mem hports,
              joins_iff.mpr ⟨Option.some.inj houtput, Option.some.inj hinput, rfl⟩⟩

/-- A port of one node is linked to a port of another exactly when, at some
time, the two were the last nodes of a group and of the layer, and the ports belong
together. -/
theorem linked_iff {arrivals : List Node} {output input : UInt32} {outputPort inputPort : ℕ} :
    Linked (run arrivals) output outputPort input inputPort ↔
      ∃ group, (outputPort, inputPort) ∈ portPairs group ∧
        ∃ arrived, arrived <+: arrivals ∧
          ∃ outs, lastOf (isNode (.groupOuts group)) arrived = some outs ∧
            ∃ ins, lastOf (isNode .layerIns) arrived = some ins ∧
              outs.objectId = some output ∧ ins.objectId = some input := by
  have hbays := bays_run arrivals
  constructor
  · rintro ⟨link, hlink, hjoins⟩
    obtain ⟨group, ⟨outs, ins⟩, hpair, hmem⟩ := (hbays.links link).mp hlink
    obtain ⟨arrived, harrived, houts, hins⟩ := Patchbay.mem_links.mp hpair
    obtain ⟨houtput, hinput, hports⟩ :=
      (joins_connectGroupToLayer group outs ins _ _ _ _).mp ⟨link, hmem, hjoins⟩
    exact ⟨group, hports, arrived, harrived, outs, (Patchbay.mem_sources_last rfl).mp houts, ins,
      (Patchbay.mem_targets_last rfl).mp hins, houtput, hinput⟩
  · rintro ⟨group, hports, arrived, harrived, outs, houts, ins, hins, houtput, hinput⟩
    obtain ⟨link, hmem, hjoins⟩ :=
      (joins_connectGroupToLayer group outs ins _ _ _ _).mpr ⟨houtput, hinput, hports⟩
    have hpair : (outs, ins) ∈ (Patchbay.run (rule group) arrivals).links :=
      Patchbay.mem_links.mpr ⟨arrived, harrived, (Patchbay.mem_sources_last rfl).mpr houts,
        (Patchbay.mem_targets_last rfl).mpr hins⟩
    exact ⟨link, (hbays.links link).mpr ⟨group, _, hpair, hmem⟩, hjoins⟩

/-! ## The nodes that came last -/

/-- An object id means one node. -/
def IdsIdentify (arrivals : List Node) : Prop :=
  ∀ first ∈ arrivals, ∀ second ∈ arrivals, ∀ id, first.objectId = some id →
    second.objectId = some id → first = second

/-- The last nodes of the groups and of the layer, with their ids. -/
structure Current (arrivals : List Node) (groupId : Group → UInt32) (layerId : UInt32) : Prop where
  groups : ∀ group, ∃ outs, lastOf (isNode (.groupOuts group)) arrivals = some outs ∧
    outs.objectId = some (groupId group)
  layer : ∃ ins, lastOf (isNode .layerIns) arrivals = some ins ∧ ins.objectId = some layerId

/-- Between the last nodes there are the four links and no others. -/
theorem linked_current {arrivals : List Node} (hids : IdsIdentify arrivals)
    {groupId : Group → UInt32} {layerId : UInt32} (hcurrent : Current arrivals groupId layerId)
    {group : Group} {outputPort inputPort : ℕ} :
    Linked (run arrivals) (groupId group) outputPort layerId inputPort ↔
      (outputPort, inputPort) ∈ portPairs group := by
  obtain ⟨outs, houts, houtsId⟩ := hcurrent.groups group
  obtain ⟨ins, hins, hinsId⟩ := hcurrent.layer
  rw [linked_iff]
  constructor
  · rintro ⟨group', hports, arrived, harrived, outs', houts', _, _, hid, _⟩
    obtain ⟨hmem, hgroup⟩ := Patchbay.of_lastOf houts
    obtain ⟨hmem', hgroup'⟩ := Patchbay.of_lastOf houts'
    -- the node with this id is the one that came last
    have hsame : outs' = outs :=
      hids outs' (harrived.subset hmem') outs hmem _ hid houtsId
    rw [hsame] at hgroup'
    rwa [← Channels.groupOuts.inj (isNode_unique hgroup' hgroup)]
  · exact fun hports =>
      ⟨group, hports, arrivals, List.prefix_rfl, outs, houts, ins, hins, houtsId, hinsId⟩

/-! ## What the layer puts out -/

/-- An input port of the layer node that one port of the last groups is linked to
carries the signal of that port.  The ports of a node are numbered like the inputs
and outputs of its graph. -/
def Carries {S : Type} (s : State) (groupId : Group → UInt32) (layerId : UInt32)
    (groupOutput : Group → MixPort → S) (layerExternal : MixPort → S) : Prop :=
  ∀ inputPort q, layerGraph.inputs[inputPort]? = some q →
    ∀ group outputPort source, groupGraph.outputs[outputPort]? = some source →
      (∀ group' outputPort', Linked s (groupId group') outputPort' layerId inputPort ↔
        group' = group ∧ outputPort' = outputPort) →
      layerExternal q = groupOutput group source

/-- The group that a strip of the layer is for. -/
def groupOf (strip : ℕ) : Group :=
  if strip = 1 then .A else .B

/-- The output port of a group for a side. -/
def sidePort : Side → ℕ
  | .left => 0
  | .right => 1

theorem mixed_congr {S : Type} {plugin : MixNode → (MixPortName → S) → MixPortName → S}
    {silence : S} {count : ℕ} {signals signals' : ℕ → Side → S}
    (h : ∀ strip, 1 ≤ strip → strip ≤ count → signals strip = signals' strip) (side : Side) :
    mixed plugin silence count signals side = mixed plugin silence count signals' side := by
  unfold mixed
  congr 1
  funext name
  cases name with
  | plugin name => rfl
  | mixOut => rfl
  | mixIn strip =>
      rw [mixerInputs, mixerInputs]
      split_ifs with hstrip
      · rw [h strip hstrip.1 hstrip.2]
      · rfl

theorem layerExternal_eq {S : Type} {arrivals : List Node} (hids : IdsIdentify arrivals)
    {groupId : Group → UInt32} {layerId : UInt32} (hcurrent : Current arrivals groupId layerId)
    {groupOutput : Group → MixPort → S} {layerExternal : MixPort → S}
    (hcarries : Carries (run arrivals) groupId layerId groupOutput layerExternal) {strip : ℕ}
    (hlower : 1 ≤ strip) (hupper : strip ≤ 2) (side : Side) :
    layerExternal (stripInput strip side) = groupOutput (groupOf strip) (mixerOutput side) := by
  have hinput : layerGraph.inputs[2 * (strip - 1) + sidePort side]? =
      some (stripInput strip side) := by
    interval_cases strip <;> cases side <;> rfl
  have houtput : groupGraph.outputs[sidePort side]? = some (mixerOutput side) := by
    cases side <;> rfl
  refine hcarries _ _ hinput _ _ _ houtput fun group' outputPort' => ?_
  rw [linked_current hids hcurrent]
  interval_cases strip <;> cases side <;> cases group' <;>
    simp [portPairs, groupOf, sidePort]

/-- **Mix.**  With a layer and two groups there, in whatever order and however often the
nodes came, each side of the layer is a mix of what the two groups put out on that
side, and this is a mix of what goes into the strips of the group. -/
theorem output_of_arrivals {S : Type} {arrivals : List Node} (hids : IdsIdentify arrivals)
    {groupId : Group → UInt32} {layerId : UInt32} (hcurrent : Current arrivals groupId layerId)
    {plugin : Group → MixNode → (MixPortName → S) → MixPortName → S}
    {layerPlugin : MixNode → (MixPortName → S) → MixPortName → S} {silence : S}
    {external input output : Group → MixPort → S}
    {layerExternal layerInput layerOutput : MixPort → S}
    (hgroups : ∀ group, Solves groupGraph (plugin group) silence (external group) (input group)
      (output group))
    (hlayer : Solves layerGraph layerPlugin silence layerExternal layerInput layerOutput)
    (hcarries : Carries (run arrivals) groupId layerId output layerExternal) (side : Side) :
    layerOutput (mixerOutput side) =
      mixed layerPlugin silence 2
        (fun strip side => mixed (plugin (groupOf strip)) silence 4
          (fun channel side => external (groupOf strip) (stripInput channel side)) side) side := by
  rw [output_mixer hlayer]
  refine mixed_congr (fun strip hlower hupper => funext fun side => ?_) side
  rw [layerExternal_eq hids hcurrent hcarries hlower hupper, output_mixer (hgroups _)]

/-- Inputs that carry the signals of the groups in the order of the strips. -/
theorem carries_of_strips {S : Type} {arrivals : List Node} (hids : IdsIdentify arrivals)
    {groupId : Group → UInt32} {layerId : UInt32} (hcurrent : Current arrivals groupId layerId)
    {groupOutput : Group → MixPort → S} {layerExternal : MixPort → S}
    (h : ∀ strip side, 1 ≤ strip → strip ≤ 2 →
      layerExternal (stripInput strip side) = groupOutput (groupOf strip) (mixerOutput side)) :
    Carries (run arrivals) groupId layerId groupOutput layerExternal := by
  intro inputPort q hq group outputPort source hsource hlinked
  have hports := (linked_current hids hcurrent).mp ((hlinked group outputPort).mpr ⟨rfl, rfl⟩)
  cases group <;> simp only [portPairs, List.mem_cons, Prod.mk.injEq, List.not_mem_nil,
    or_false] at hports <;> obtain ⟨rfl, rfl⟩ | ⟨rfl, rfl⟩ := hports <;> cases hq <;> cases hsource
  · exact h 1 .left (by decide) (by decide)
  · exact h 1 .right (by decide) (by decide)
  · exact h 2 .left (by decide) (by decide)
  · exact h 2 .right (by decide) (by decide)

/-- A plugin that puts out the sum of its inputs, at every output. -/
def sumPlugin (_ : MixNode) (inputs : MixPortName → ℕ) (_ : MixPortName) : ℕ :=
  inputs (.plugin .inL) + inputs (.plugin .inR) + inputs (.plugin .audioIn1) +
    inputs (.plugin .audioIn2) + inputs (.mixIn 1) + inputs (.mixIn 2) + inputs (.mixIn 3) +
      inputs (.mixIn 4)

theorem idsIdentify_of_nodup {arrivals : List Node}
    (h : (arrivals.map Node.objectId).Nodup) : IdsIdentify arrivals :=
  fun _ hfirst _ hsecond _ hid hid' =>
    List.inj_on_of_nodup_map h hfirst hsecond (hid.trans hid'.symm)

/-- Group B comes after the layer. -/
def threeNodes : List Node :=
  [⟨Channels.nodeName (.groupOuts .A), some 40⟩, ⟨Channels.layerIns.nodeName, some 42⟩,
    ⟨Channels.nodeName (.groupOuts .B), some 41⟩]

theorem output_of_arrivals_sum :
    ∃ layerExternal layerInput layerOutput : MixPort → ℕ,
      Solves layerGraph sumPlugin 0 layerExternal layerInput layerOutput ∧
        layerOutput (mixerOutput .left) = 128 := by
  obtain ⟨input, output, hgroup⟩ := exists_solves_mix 4 sumPlugin 0 fun _ => 1
  obtain ⟨layerInput, layerOutput, hlayer⟩ := exists_solves_mix 2 sumPlugin 0 fun _ => 16
  have hids : IdsIdentify threeNodes := idsIdentify_of_nodup (by decide)
  have hcurrent : Current threeNodes (fun group => if group = .A then 40 else 41) 42 := by
    constructor
    · intro group
      cases group
      · exact ⟨_, rfl, rfl⟩
      · exact ⟨_, rfl, rfl⟩
    · exact ⟨_, rfl, rfl⟩
  have hsixteen : ∀ side, output (mixerOutput side) = 16 := by
    intro side
    rw [output_mixer hgroup]
    cases side <;> rfl
  refine ⟨_, layerInput, layerOutput, hlayer, ?_⟩
  rw [output_of_arrivals hids hcurrent (fun _ => hgroup) hlayer
    (carries_of_strips hids hcurrent fun strip side _ _ => (hsixteen side).symm)]
  rfl

end Pmx.ConnectGroupToLayer
