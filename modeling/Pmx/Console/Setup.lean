import Pmx.Osc.Path
import Pmx.PipewireTools
import Pmx.ProxyCollection
import Pmx.ProxyWatcher.Registry
import Pmx.SetUpFilterChain

/-!
# The command `setup`

`setup` does by hand what `pmx_set_up_filter_chain.lua` does when a node is added: it
looks for the controller of the filter chains and for the four chains, and sets the
ids of the chains as parameters of the controller.  A chain that is not there has an
empty value, so that no key takes the place of an id.

The collection of the console only grows, and the command takes the first object of
a name.  So it tells the nodes that the script would tell as long as no chain has
been started anew (`setup_tells_iff`).
-/

namespace Pmx.Console.Setup

open Cxx PipewireTools ProxyCollection SpaPod
open Osc (Error)
open ProxyWatcher (PropertyValue clientOf getProxy processNodeParamsEvent valueOf)
open SetUpFilterChain (Event Field NodeVar addedAs chainKeys isSnapshot_params_iff lastAdded
  lastMessage params readPairs upToDate_of_run)
open Transition

variable {F D Callback Client : Type}

/-- The `find_if` over the proxies. -/
def proxyNamed (proxies : List Proxy) (name : Str) : Option Proxy :=
  proxies.find? fun proxy => proxy.name = name

/-- A parameter with the id of a chain, or without a value if the chain is missing. -/
def chainParameter (proxies : List Proxy) (key nodeName : Str) : Str × ParamValueVariant F D :=
  (key,
    match proxyNamed proxies nodeName with
    | some proxy => .int (Int32.ofNat proxy.objectId)
    | none => .nullopt)

/-- `parameters` -/
def parameters (proxies : List Proxy) : List (Str × ParamValueVariant F D) :=
  [chainParameter proxies (lit "layerChannels") (lit "pmx-layer-channels-ins"),
    chainParameter proxies (lit "groupChannelsA") (lit "pmx-group-channels-a-ins"),
    chainParameter proxies (lit "groupChannelsB") (lit "pmx-group-channels-b-ins"),
    chainParameter proxies (lit "inputChannels") (lit "pmx-input-channels-ins")]

/-- `setup_command`: the client and the message that is set on it.  `bind` is what
another try to bind a node gives that had no client. -/
def setupCommand (proxies : List Proxy) (proxyWatcher : ProxyWatcher.State F D Callback Client)
    (bind : UInt32 → Option Client) : Except Error (Client × Option (Object F D)) :=
  match proxyNamed proxies (lit "pmx-filter-chain-ctrl") with
  | none => .error (.invalidArgument (lit "couldn't find filter chain ctrl"))
  | some filterChainCtrl =>
      let id := UInt32.ofNat filterChainCtrl.objectId
      match getProxy proxyWatcher id with
      | none => .error (.invalidArgument (lit "couldn't find filter chain ctrl pw proxy"))
      | some _ =>
          match (clientOf proxyWatcher id).or (bind id) with
          | some client => .ok (client, buildSetParamsMessage 1024 (parameters proxies))
          | none => .error ⟨lit "couldn't get client", .pipewireError⟩

/-! ## The message -/

/-- The id of the first object of a name. -/
def firstNamed (added : List GlobalObject) (name : Str) : Option ℕ :=
  (proxyNamed (getProxies added) name).map Proxy.objectId

/-- The chains in the order of the message. -/
def chainVars : List (Str × NodeVar) :=
  [(lit "layerChannels", .layerChannels), (lit "groupChannelsA", .groupAChannels),
    (lit "groupChannelsB", .groupBChannels), (lit "inputChannels", .inputChannels)]

/-- The value with the id of a node. -/
def idValue (objectId : ℕ) : PropertyValue F D :=
  .int (Int32.ofNat objectId)

theorem parameters_eq (added : List GlobalObject) :
    (parameters (getProxies added) : List (Str × ParamValueVariant F D)) =
      chainVars.map fun keyed => chainParameter (getProxies added) keyed.1 keyed.2.nodeName :=
  rfl

/-- A chain that is there is read back with its id, and one that is missing is not. -/
theorem decoded_chainParameter (added : List GlobalObject) {key : Str} {v : NodeVar}
    (hkey : (key, v) ∈ chainVars) :
    decoded (chainParameter (getProxies added) key v.nodeName : Str × ParamValueVariant F D) =
      (firstNamed added v.nodeName).map fun objectId => (key, idValue objectId) := by
  have hcut : ∀ keyed ∈ chainVars, cStr (cStr keyed.1) = keyed.1 := by decide
  have hkey := hcut _ hkey
  rw [decoded, chainParameter, firstNamed]
  cases proxyNamed (getProxies added) v.nodeName with
  | none => rfl
  | some proxy =>
      simp only [ParamValueVariant.pod, valueOf, Option.map_some, hkey]
      rfl

/-- A name and its value take no more than 40 bytes. -/
theorem fieldsSize_chainParameter_le (proxies : List Proxy) {key : Str} (nodeName : Str)
    (hkey : (cStr key).length ≤ 15) :
    Pod.fieldsSize (structFields [(chainParameter proxies key nodeName :
      Str × ParamValueVariant F D)]) ≤ 40 := by
  have hpod : (chainParameter proxies key nodeName : Str × ParamValueVariant F D).2.pod.bodySize ≤
      4 := by
    rw [chainParameter]
    cases proxyNamed proxies nodeName with
    | none => exact Nat.zero_le 4
    | some proxy => exact Nat.le_refl 4
  show PodBuilder.podSize ((cStr key).length + 1) + (PodBuilder.podSize _ + 0) ≤ 40
  simp only [PodBuilder.podSize]
  omega

theorem fieldsSize_append (fields more : List (Pod F D)) :
    Pod.fieldsSize (fields ++ more) = Pod.fieldsSize fields + Pod.fieldsSize more := by
  induction fields with
  | nil => exact (Nat.zero_add _).symm
  | cons field rest ih =>
      rw [List.cons_append, Pod.fieldsSize, Pod.fieldsSize, ih, Nat.add_assoc]

/-- The message always fits its buffer. -/
theorem size_parameters_le (proxies : List Proxy) :
    (propsObject (parameters proxies : List (Str × ParamValueVariant F D))).size ≤ 1024 := by
  have hsplit : structFields (parameters proxies : List (Str × ParamValueVariant F D)) =
      structFields [chainParameter proxies (lit "layerChannels") (lit "pmx-layer-channels-ins")] ++
        (structFields [chainParameter proxies (lit "groupChannelsA")
            (lit "pmx-group-channels-a-ins")] ++
          (structFields [chainParameter proxies (lit "groupChannelsB")
              (lit "pmx-group-channels-b-ins")] ++
            structFields [chainParameter proxies (lit "inputChannels")
              (lit "pmx-input-channels-ins")])) :=
    rfl
  have hlayer := fieldsSize_chainParameter_le (F := F) (D := D) proxies
    (lit "pmx-layer-channels-ins") (show (cStr (lit "layerChannels")).length ≤ 15 by decide)
  have hgroupA := fieldsSize_chainParameter_le (F := F) (D := D) proxies
    (lit "pmx-group-channels-a-ins") (show (cStr (lit "groupChannelsA")).length ≤ 15 by decide)
  have hgroupB := fieldsSize_chainParameter_le (F := F) (D := D) proxies
    (lit "pmx-group-channels-b-ins") (show (cStr (lit "groupChannelsB")).length ≤ 15 by decide)
  have hinput := fieldsSize_chainParameter_le (F := F) (D := D) proxies
    (lit "pmx-input-channels-ins") (show (cStr (lit "inputChannels")).length ≤ 15 by decide)
  have hsize : (propsObject (parameters proxies : List (Str × ParamValueVariant F D))).size =
      PodBuilder.podSize (8 + (8 + PodBuilder.podSize (Pod.fieldsSize
        (structFields (parameters proxies : List (Str × ParamValueVariant F D)))))) :=
    rfl
  rw [hsize, hsplit, fieldsSize_append, fieldsSize_append, fieldsSize_append]
  simp only [PodBuilder.podSize]
  omega

/-! ## The nodes that are told -/

/-- The object id of a node of the variable's name. -/
def nodeAs (v : NodeVar) : GlobalObject → Option ℕ
  | .node objectId nodeName _ => if nodeName = some v.nodeName then some objectId else none
  | .port _ _ _ _ _ => none

/-- The most recent node of the variable's name. -/
def lastNode (added : List GlobalObject) (v : NodeVar) : Option ℕ :=
  (added.filterMap (nodeAs v)).getLast?

/-- A pair of fields as an entry, if it is a key with an id. -/
def entryOfPair : Field × Field → Option (Str × PropertyValue F D)
  | (.string key, .int objectId) => some (key, idValue objectId)
  | _ => none

/-- The entries of a message of the script. -/
def scriptEntries (fields : List Field) : List (Str × PropertyValue F D) :=
  (readPairs fields).filterMap entryOfPair

/-- The entries are the ids of these nodes under the keys of their chains. -/
def Tells (entries : List (Str × PropertyValue F D)) (nodes : NodeVar → Option ℕ) : Prop :=
  ∀ entry, entry ∈ entries ↔ ∃ v objectId, (entry.1, v) ∈ chainKeys ∧
    nodes v = some objectId ∧ entry.2 = idValue objectId

theorem mem_chainVars_iff {key : Str} {v : NodeVar} :
    (key, v) ∈ chainVars ↔ (key, v) ∈ chainKeys := by
  have hperm : chainVars.Perm chainKeys := by decide
  exact hperm.mem_iff

/-- The command tells the first objects of the names. -/
theorem tells_decoded (added : List GlobalObject) :
    Tells ((parameters (getProxies added)).filterMap decoded :
      List (Str × PropertyValue F D)) fun v => firstNamed added v.nodeName := by
  intro entry
  rw [parameters_eq, List.filterMap_map, List.mem_filterMap]
  constructor
  · rintro ⟨⟨key, v⟩, hkey, hentry⟩
    rw [Function.comp_apply, decoded_chainParameter added hkey] at hentry
    obtain ⟨objectId, hfirst, rfl⟩ := Option.map_eq_some_iff.mp hentry
    exact ⟨v, objectId, mem_chainVars_iff.mp hkey, hfirst, rfl⟩
  · rintro ⟨v, objectId, hkey, hfirst, hvalue⟩
    have hfirst : firstNamed added v.nodeName = some objectId := hfirst
    refine ⟨(entry.1, v), mem_chainVars_iff.mpr hkey, ?_⟩
    rw [Function.comp_apply, decoded_chainParameter added (mem_chainVars_iff.mpr hkey), hfirst,
      Option.map_some, ← hvalue]

/-- The script tells the last nodes. -/
theorem tells_script {events : List Event}
    (hknown : lastAdded events .inputChannels ≠ none ∧ lastAdded events .groupAChannels ≠ none ∧
      lastAdded events .groupBChannels ≠ none) :
    Tells (scriptEntries (params (lastAdded events)) : List (Str × PropertyValue F D))
      (lastAdded events) := by
  have hsnapshot := (isSnapshot_params_iff events).mpr hknown
  intro entry
  rw [scriptEntries, List.mem_filterMap]
  constructor
  · rintro ⟨pair, hpair, hentry⟩
    obtain ⟨key, v, objectId, hkey, hlast, rfl⟩ := (hsnapshot pair).mp hpair
    cases hentry
    exact ⟨v, objectId, hkey, hlast, rfl⟩
  · rintro ⟨v, objectId, hkey, hlast, hvalue⟩
    refine ⟨(.string entry.1, .int objectId),
      (hsnapshot _).mpr ⟨entry.1, v, objectId, hkey, hlast, rfl⟩, ?_⟩
    rw [entryOfPair, ← hvalue]

theorem idValue_inj {m n : ℕ} (hm : m < 2147483648) (hn : n < 2147483648) :
    (idValue m : PropertyValue F D) = idValue n ↔ m = n := by
  constructor
  · intro h
    have hint : Int32.ofNat m = Int32.ofNat n := PropertyValue.int.inj h
    have hvalue := congrArg Int32.toInt hint
    rw [Int32.toInt_ofNat_of_lt hm, Int32.toInt_ofNat_of_lt hn] at hvalue
    exact Int.ofNat.inj hvalue
  · exact congrArg idValue

/-- A message that is part of another one is about the same nodes. -/
theorem node_of_tells {first second : List (Str × PropertyValue F D)}
    {nodes others : NodeVar → Option ℕ} (hfirst : Tells first nodes)
    (hsecond : Tells second others) (hothers : ∀ v objectId, others v = some objectId →
      objectId < 2147483648)
    (hpart : ∀ entry ∈ first, entry ∈ second) {v : NodeVar} (hv : v ≠ .filterChain) {objectId : ℕ}
    (hsmall : objectId < 2147483648) (hnode : nodes v = some objectId) :
    others v = some objectId := by
  have hunique : ∀ keyed ∈ chainKeys, ∀ other ∈ chainKeys, keyed.1 = other.1 → keyed.2 = other.2 :=
    by decide
  obtain ⟨key, hkey⟩ : ∃ key, (key, v) ∈ chainKeys := by
    cases v with
    | filterChain => exact absurd rfl hv
    | inputChannels => exact ⟨lit "inputChannels", by decide⟩
    | groupAChannels => exact ⟨lit "groupChannelsA", by decide⟩
    | groupBChannels => exact ⟨lit "groupChannelsB", by decide⟩
    | layerChannels => exact ⟨lit "layerChannels", by decide⟩
  have hmem := hpart _ ((hfirst (key, idValue objectId)).mpr ⟨v, objectId, hkey, hnode, rfl⟩)
  obtain ⟨w, other, hw, hother, hvalue⟩ := (hsecond _).mp hmem
  have hwv : w = v := hunique (key, w) hw (key, v) hkey rfl
  rw [hwv] at hother
  rw [hother, (idValue_inj hsmall (hothers v other hother)).mp hvalue]

/-- Two messages say the same exactly if they are about the same nodes. -/
theorem tells_agree_iff {first second : List (Str × PropertyValue F D)}
    {nodes others : NodeVar → Option ℕ} (hfirst : Tells first nodes)
    (hsecond : Tells second others) (hnodes : ∀ v objectId, nodes v = some objectId →
      objectId < 2147483648)
    (hothers : ∀ v objectId, others v = some objectId → objectId < 2147483648) :
    (∀ entry, entry ∈ first ↔ entry ∈ second) ↔
      ∀ v, v ≠ .filterChain → nodes v = others v := by
  have hctrl : ∀ keyed ∈ chainKeys, keyed.2 ≠ .filterChain := by decide
  constructor
  · intro h v hv
    refine Option.ext fun objectId => ⟨fun hnode => ?_, fun hnode => ?_⟩
    · exact node_of_tells hfirst hsecond hothers (fun entry => (h entry).mp) hv
        (hnodes v objectId hnode) hnode
    · exact node_of_tells hsecond hfirst hnodes (fun entry => (h entry).mpr) hv
        (hothers v objectId hnode) hnode
  · intro h entry
    rw [hfirst entry, hsecond entry]
    refine exists_congr fun v => exists_congr fun objectId => ?_
    exact and_congr_right fun hkey => by rw [h v (hctrl _ hkey)]

/-! ## The command and the script -/

theorem lastAdded_eq_lastNode {added : List GlobalObject} {events : List Event} {v : NodeVar}
    (hsame : events.filterMap (addedAs v) = added.filterMap (nodeAs v)) :
    lastAdded events v = lastNode added v := by
  rw [lastAdded, lastNode, hsame]

theorem firstNamed_lt {added : List GlobalObject}
    (hids : ∀ object ∈ added, object.objectId < 2147483648) {name : Str} {objectId : ℕ}
    (h : firstNamed added name = some objectId) : objectId < 2147483648 := by
  obtain ⟨proxy, hproxy, rfl⟩ := Option.map_eq_some_iff.mp h
  obtain ⟨object, hmem, rfl⟩ := List.mem_map.mp (List.mem_of_find?_eq_some hproxy)
  rw [objectId_proxyAdded]
  exact hids object hmem

theorem lastNode_lt {added : List GlobalObject}
    (hids : ∀ object ∈ added, object.objectId < 2147483648) {v : NodeVar} {objectId : ℕ}
    (h : lastNode added v = some objectId) : objectId < 2147483648 := by
  obtain ⟨object, hmem, hobject⟩ := List.mem_filterMap.mp (List.mem_of_getLast? h)
  cases object with
  | port id nodeId portName path direction => cases hobject
  | node id nodeName path =>
      rw [nodeAs] at hobject
      split_ifs at hobject
      cases hobject
      exact hids _ hmem

/-- What a command that succeeds sets. -/
theorem message_of_ok {proxies : List Proxy} {proxyWatcher : ProxyWatcher.State F D Callback Client}
    {bind : UInt32 → Option Client} {client : Client} {message : Option (Object F D)}
    (h : setupCommand proxies proxyWatcher bind = .ok (client, message)) :
    message = some (propsObject (parameters proxies)) := by
  have hfits :
      buildSetParamsMessage 1024 (parameters proxies : List (Str × ParamValueVariant F D)) =
        some (propsObject (parameters proxies)) := if_pos (size_parameters_le proxies)
  unfold setupCommand at h
  split at h
  · cases h
  · simp only at h
    split at h
    · cases h
    · split at h
      · cases h
        exact hfits
      · cases h

/-- **The command and the script.**  When both have been told of the same nodes, and the
script has handled its events and knows the first three chains, the message of the
command has the entries of the script's last message exactly if the first object of
each chain's name is the last node of that name. -/
theorem setup_tells_iff {added : List GlobalObject} {events : List Event}
    {s : SetUpFilterChain.State}
    (run : Reaches SetUpFilterChain.step SetUpFilterChain.initial events s)
    (hhandled : s.pending = 0)
    (hsame : ∀ v, events.filterMap (addedAs v) = added.filterMap (nodeAs v))
    (hids : ∀ object ∈ added, object.objectId < 2147483648) {node : ℕ}
    (hnode : lastNode added .filterChain = some node)
    (hinput : lastNode added .inputChannels ≠ none)
    (hgroupA : lastNode added .groupAChannels ≠ none)
    (hgroupB : lastNode added .groupBChannels ≠ none)
    {proxyWatcher : ProxyWatcher.State F D Callback Client} {bind : UInt32 → Option Client}
    {client : Client} {message : Option (Object F D)}
    (h : setupCommand (getProxies added) proxyWatcher bind = .ok (client, message)) :
    ∃ object entries fields, message = some object ∧
      processNodeParamsEvent object = .ok (some entries) ∧ lastMessage s node = some fields ∧
        ((∀ entry, entry ∈ entries ↔ entry ∈ scriptEntries fields) ↔
          ∀ v, v ≠ .filterChain → firstNamed added v.nodeName = lastNode added v) := by
  have hcurrent := upToDate_of_run run
  have hlast : ∀ v, lastAdded events v = lastNode added v := fun v =>
    lastAdded_eq_lastNode (hsame v)
  have hnodes : s.nodes = lastAdded events := funext hcurrent.nodes
  have hfields : lastMessage s node = some (params (lastAdded events)) := by
    rw [← hnodes]
    exact hcurrent.message hhandled node (by rw [hcurrent.nodes, hlast, hnode])
  have hcommand := tells_decoded (F := F) (D := D) added
  have hscript := tells_script (F := F) (D := D)
    ⟨(hlast _).trans_ne hinput, (hlast _).trans_ne hgroupA, (hlast _).trans_ne hgroupB⟩
  rw [funext hlast] at hscript hfields
  have hfirst : ∀ v : NodeVar, ∀ objectId, firstNamed added v.nodeName = some objectId →
      objectId < 2147483648 := fun v objectId => firstNamed_lt hids
  have hagree := tells_agree_iff hcommand hscript hfirst fun v objectId => lastNode_lt hids
  exact ⟨_, _, _, message_of_ok h, process_propsObject _, hfields, hagree⟩

/-- The nodes of a complete session. -/
def completeGraph : List GlobalObject :=
  [(NodeVar.filterChain, 30), (.inputChannels, 31), (.groupAChannels, 32), (.groupBChannels, 33),
    (.layerChannels, 34)].map fun node => .node node.2 (some node.1.nodeName) none

/-- The watcher has bound the controller. -/
def boundController : ProxyWatcher.State Unit Unit Unit ℕ :=
  ProxyWatcher.after
    [.global 30 (lit "PipeWire:Interface:Node") (some NodeVar.filterChain.nodeName) (some 7)]

theorem setup_tells_iff_complete :
    ∃ s message, Reaches SetUpFilterChain.step SetUpFilterChain.initial
        SetUpFilterChain.completeSession s ∧
      setupCommand (getProxies completeGraph) boundController (fun _ => none) =
        .ok (7, message) ∧
      ∃ object entries fields, message = some object ∧
        processNodeParamsEvent object = .ok (some entries) ∧ lastMessage s 30 = some fields ∧
          ∀ entry, entry ∈ entries ↔ entry ∈ scriptEntries fields := by
  have htrace : (exec SetUpFilterChain.step SetUpFilterChain.initial
      SetUpFilterChain.completeSession).map (fun s => decide (s.pending = 0)) = some true := by
    decide
  obtain ⟨s, run, hhandled⟩ := exists_of_exec htrace
  have hsame : ∀ v, SetUpFilterChain.completeSession.filterMap (addedAs v) =
      completeGraph.filterMap (nodeAs v) := by
    intro v
    cases v <;> decide
  have hsetup : setupCommand (getProxies completeGraph) boundController (fun _ => none) =
      .ok (7, some (propsObject (parameters (getProxies completeGraph)))) := rfl
  obtain ⟨object, entries, fields, hmessage, hentries, hfields, hagree⟩ :=
    setup_tells_iff run (of_decide_eq_true hhandled) hsame (by decide)
      (show lastNode completeGraph .filterChain = some 30 by decide)
      (by decide) (by decide) (by decide) hsetup
  refine ⟨s, _, run, hsetup, object, entries, fields, hmessage, hentries, hfields,
    hagree.mpr fun v _ => ?_⟩
  cases v <;> decide

end Pmx.Console.Setup
