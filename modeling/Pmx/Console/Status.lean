import Pmx.Constants
import Pmx.ProxyCollection

/-!
# The command `status`

`status` first writes a line for each service.  Then it looks for the nodes that
produce and consume OSC messages, for their ports, and for a link from every
producer to every consumer, and writes a line for everything it misses.

The links are those that `pmx_connect_osc_ports.lua` has made.  When all of them
have been announced, nothing is missed exactly if the nodes and their ports have
come (`silent_of_arrivals`).
-/

namespace Pmx.Console.Status

open Constants Cxx ProxyCollection

/-! ## The services -/

/-- `sdcpp::unit`, as far as it is read. -/
structure SystemdUnit where
  name : Str
  activeState : Str

/-- `sdcpp::unit_file`. -/
structure UnitFile where
  name : Str
  status : Str

/-- The escape sequence of a colour. -/
def escape (code : String) : Str :=
  27 :: lit code

def red : Str := escape "[31m"
def green : Str := escape "[32m"
def yellow : Str := escape "[33m"
def reset : Str := escape "[0m"

/-- The colour of a loaded unit. -/
def unitColor (activeState : Str) : Str :=
  if activeState = lit "active" then green
  else if activeState = lit "failed" then red
  else []

/-- The line for a service. -/
def unitLine (units : List SystemdUnit) (unitFiles : List UnitFile) (unitName : Str) : Str :=
  match units.find? fun unit => unit.name = unitName with
  | some unit => unit.name ++ lit " " ++ unitColor unit.activeState ++ unit.activeState ++ reset
  | none =>
      match unitFiles.find? fun unitFile => unitName.isSuffixOf unitFile.name with
      | some unitFile =>
          let color := if unitFile.status = lit "disabled" then red else yellow
          unitName ++ lit " " ++ color ++ lit " " ++ unitFile.status ++ reset
      | none => unitName ++ lit " " ++ red ++ lit "not found" ++ reset

/-- `check_systemd_unit_status`: what it writes, or the first error of the bus. -/
def checkSystemdUnitStatus {Error : Type} (units : Except Error (List SystemdUnit))
    (unitFiles : Except Error (List UnitFile)) : Except Error (List Str) := do
  let units ← units
  let unitFiles ← unitFiles
  return allServices.map (unitLine units unitFiles)

/-- The line of a service starts with its name. -/
theorem exists_unitLine (units : List SystemdUnit) (unitFiles : List UnitFile) (unitName : Str) :
    ∃ rest, unitLine units unitFiles unitName = unitName ++ lit " " ++ rest := by
  unfold unitLine
  cases hunit : units.find? fun unit => unit.name = unitName with
  | some unit =>
      have hname : unit.name = unitName := by simpa using List.find?_some hunit
      exact ⟨unitColor unit.activeState ++ unit.activeState ++ reset, by simp [hname]⟩
  | none =>
      cases unitFiles.find? fun unitFile => unitName.isSuffixOf unitFile.name with
      | some unitFile => exact ⟨_, by simp only [List.append_assoc]; rfl⟩
      | none => exact ⟨red ++ lit "not found" ++ reset, by simp⟩

/-! ## The connections -/

/-- What the check misses. -/
inductive Missing
  | producer (name : Str)
  | consumer (name : Str)
  | outputPort (node : Str)
  | inputPort (node : Str)
  | link (output input : Str)
  deriving DecidableEq

/-- The line that is written. -/
def Missing.text : Missing → Str
  | .producer name => lit "couldn't find producer " ++ name
  | .consumer name => lit "couldn't find consumer " ++ name
  | .outputPort node => lit "couldn't find output port for node " ++ node
  | .inputPort node => lit "couldn't find input port for node " ++ node
  | .link output input => lit "couldn't find link between " ++ output ++ lit " and " ++ input

/-- A node of a program that publishes OSC messages. -/
def IsProducer (proxy : Proxy) : Prop :=
  proxy.name ∈ producerNames ∧ proxy.type = .node

/-- A node of a program that reads OSC messages. -/
def IsConsumer (proxy : Proxy) : Prop :=
  proxy.name ∈ consumerNames ∧ proxy.type = .node

instance : DecidablePred IsProducer := fun _ => inferInstanceAs (Decidable (_ ∧ _))

instance : DecidablePred IsConsumer := fun _ => inferInstanceAs (Decidable (_ ∧ _))

/-- The nodes of producers, in the order in which they came. -/
def producerNodes (proxies : List Proxy) : List Proxy :=
  proxies.filter fun proxy => IsProducer proxy

/-- A producer is not looked at again. -/
def consumerNodes (proxies : List Proxy) : List Proxy :=
  proxies.filter fun proxy => ¬ IsProducer proxy ∧ IsConsumer proxy

/-- The lookup of the port `pmx-osc` of a node; `node_id.value()` raises an exception
for a port without a node. -/
def findOscPort (nodeId : ℕ) : List Proxy → Except Fault (Option Proxy)
  | [] => .ok none
  | proxy :: rest =>
      if proxy.type = .port ∧ proxy.name = lit "pmx-osc" then
        match proxy.nodeId with
        | none => .error .uncaught
        | some id => if id = nodeId then .ok (some proxy) else findOscPort nodeId rest
      else findOscPort nodeId rest

/-- The body of the loop over `expected_links`. -/
def checkLink (proxies : List Proxy) (links : List Link) (producer consumer : Proxy) :
    Except Fault (List Missing) := do
  match ← findOscPort producer.objectId proxies with
  | none => return [.outputPort producer.name]
  | some outputPort =>
      match ← findOscPort consumer.objectId proxies with
      | none => return [.inputPort consumer.name]
      | some inputPort =>
          match links.find? fun link => link.outputPortId = outputPort.objectId ∧
              link.inputPortId = inputPort.objectId with
          | some _ => return []
          | none => return [.link producer.name consumer.name]

/-- The names without a node. -/
def missingNames (nodes : List Proxy) (names : List Str) : List Str :=
  names.filter fun name => (nodes.find? fun proxy => proxy.name = name).isNone

/-- `check_osc_connections`. -/
def checkOscConnections (proxies : List Proxy) (links : List Link) :
    Except Fault (List Missing) := do
  let producers := producerNodes proxies
  let consumers := consumerNodes proxies
  let unlinked ← (producers.product consumers).mapM fun pair =>
    checkLink proxies links pair.1 pair.2
  return (missingNames producers producerNames).map .producer ++
    (missingNames consumers consumerNames).map .consumer ++ unlinked.flatten

/-- `status_command`: what it writes; the results of both checks are dropped. -/
def statusCommand {Error : Type} (units : Except Error (List SystemdUnit))
    (unitFiles : Except Error (List UnitFile)) (proxies : List Proxy) (links : List Link) :
    Except Fault (List Str) := do
  let services := (checkSystemdUnitStatus units unitFiles).toOption.getD []
  let missing ← checkOscConnections proxies links
  return services ++ missing.map Missing.text

/-! ## What the check looks at -/

/-- The object is the port `pmx-osc` of a node. -/
def IsOscPortOf (nodeId : ℕ) : GlobalObject → Prop
  | .port _ id portName _ _ => portName = some (lit "pmx-osc") ∧ id = nodeId
  | .node _ _ _ => False

instance (nodeId : ℕ) : DecidablePred (IsOscPortOf nodeId) := fun object =>
  match object with
  | .port _ _ _ _ _ => inferInstanceAs (Decidable (_ ∧ _))
  | .node _ _ _ => inferInstanceAs (Decidable False)

/-- The port that is found for a node. -/
def oscPortOf (added : List GlobalObject) (nodeId : ℕ) : Option GlobalObject :=
  added.find? fun object => IsOscPortOf nodeId object

/-- A node of a name has been added. -/
def HasNode (added : List GlobalObject) (nodeId : ℕ) (name : Str) : Prop :=
  ∃ path, .node nodeId (some name) path ∈ added

/-- Every name has a node, and every producer is linked to every consumer. -/
structure Connected (added : List GlobalObject) (links : List Link) : Prop where
  producers : ∀ name ∈ producerNames, ∃ nodeId, HasNode added nodeId name
  consumers : ∀ name ∈ consumerNames, ∃ nodeId, HasNode added nodeId name
  links : ∀ output input producer consumer, HasNode added output producer →
    HasNode added input consumer → producer ∈ producerNames → consumer ∈ consumerNames →
      ∃ outputPort inputPort, oscPortOf added output = some outputPort ∧
        oscPortOf added input = some inputPort ∧ ∃ link ∈ links,
          link.outputPortId = outputPort.objectId ∧ link.inputPortId = inputPort.objectId

theorem safeString_eq_iff {str : Option Str} {name : Str} (hname : name ≠ []) :
    safeString str = name ↔ str = some name := by
  cases str with
  | none => simpa [safeString] using hname.symm
  | some str => simp [safeString]

@[simp] theorem isOscPortOf_port {nodeId objectId id : ℕ} {portName path : Option Str}
    {direction : Direction} :
    IsOscPortOf nodeId (.port objectId id portName path direction) ↔
      portName = some (lit "pmx-osc") ∧ id = nodeId :=
  Iff.rfl

theorem oscPortOf_cons_of_pos {nodeId : ℕ} {object : GlobalObject} {rest : List GlobalObject}
    (h : IsOscPortOf nodeId object) : oscPortOf (object :: rest) nodeId = some object :=
  List.find?_cons_of_pos (decide_eq_true h)

theorem oscPortOf_cons_of_neg {nodeId : ℕ} {object : GlobalObject} {rest : List GlobalObject}
    (h : ¬ IsOscPortOf nodeId object) : oscPortOf (object :: rest) nodeId = oscPortOf rest nodeId :=
  List.find?_cons_of_neg (by simpa using h)

/-- The lookup finds the port of the node, and raises nothing. -/
theorem findOscPort_getProxies (nodeId : ℕ) (added : List GlobalObject) :
    findOscPort nodeId (getProxies added) = .ok ((oscPortOf added nodeId).map proxyAdded) := by
  have hname : lit "pmx-osc" ≠ [] := by decide
  induction added with
  | nil => rfl
  | cons object rest ih =>
      have hcons : getProxies (object :: rest) = proxyAdded object :: getProxies rest := rfl
      rw [hcons, findOscPort]
      cases object with
      | node objectId nodeName path =>
          rw [if_neg (fun h => by cases h.1), ih, oscPortOf_cons_of_neg id]
      | port objectId id portName path direction =>
          by_cases hport : portName = some (lit "pmx-osc")
          · rw [if_pos ⟨rfl, (safeString_eq_iff hname).mpr hport⟩]
            by_cases hid : id = nodeId
            · rw [oscPortOf_cons_of_pos (isOscPortOf_port.mpr ⟨hport, hid⟩)]
              exact if_pos hid
            · rw [oscPortOf_cons_of_neg (fun h => hid (isOscPortOf_port.mp h).2), ← ih]
              exact if_neg hid
          · rw [if_neg (fun h => hport ((safeString_eq_iff hname).mp h.2)), ih,
              oscPortOf_cons_of_neg (fun h => hport (isOscPortOf_port.mp h).1)]

/-- What a pair of nodes misses. -/
def missingBetween (added : List GlobalObject) (links : List Link) (producer consumer : Proxy) :
    List Missing :=
  match oscPortOf added producer.objectId with
  | none => [.outputPort producer.name]
  | some outputPort =>
      match oscPortOf added consumer.objectId with
      | none => [.inputPort consumer.name]
      | some inputPort =>
          match links.find? fun link => link.outputPortId = outputPort.objectId ∧
              link.inputPortId = inputPort.objectId with
          | some _ => []
          | none => [.link producer.name consumer.name]

theorem checkLink_getProxies (added : List GlobalObject) (links : List Link)
    (producer consumer : Proxy) :
    checkLink (getProxies added) links producer consumer =
      .ok (missingBetween added links producer consumer) := by
  rw [checkLink, missingBetween, findOscPort_getProxies, findOscPort_getProxies]
  cases oscPortOf added producer.objectId with
  | none => rfl
  | some outputPort =>
      cases oscPortOf added consumer.objectId with
      | none => rfl
      | some inputPort =>
          simp only [Option.map_some, bind, Except.bind, objectId_proxyAdded]
          cases links.find? fun link => decide (link.outputPortId = outputPort.objectId ∧
            link.inputPortId = inputPort.objectId) <;> rfl

theorem missingBetween_eq_nil_iff (added : List GlobalObject) (links : List Link)
    (producer consumer : Proxy) :
    missingBetween added links producer consumer = [] ↔
      ∃ outputPort inputPort, oscPortOf added producer.objectId = some outputPort ∧
        oscPortOf added consumer.objectId = some inputPort ∧ ∃ link ∈ links,
          link.outputPortId = outputPort.objectId ∧ link.inputPortId = inputPort.objectId := by
  rw [missingBetween]
  cases oscPortOf added producer.objectId with
  | none => simp
  | some outputPort =>
      cases oscPortOf added consumer.objectId with
      | none => simp
      | some inputPort =>
          have hfound : (links.find? fun link => decide (link.outputPortId = outputPort.objectId ∧
              link.inputPortId = inputPort.objectId)).isSome ↔ ∃ link ∈ links,
                link.outputPortId = outputPort.objectId ∧
                  link.inputPortId = inputPort.objectId := by
            simp
          simp only [Option.some.injEq, exists_and_left, exists_eq_left']
          rw [← hfound]
          cases links.find? fun link => decide (link.outputPortId = outputPort.objectId ∧
            link.inputPortId = inputPort.objectId) <;> simp

/-- All calls return. -/
theorem mapM_ok {α β : Type} {f : α → Except Fault β} {g : α → β} (h : ∀ a, f a = .ok (g a))
    (entries : List α) : entries.mapM f = .ok (entries.map g) := by
  have hpure : f = fun a => pure (g a) := funext h
  rw [hpure, List.mapM_pure]
  rfl

theorem checkOscConnections_getProxies (added : List GlobalObject) (links : List Link) :
    checkOscConnections (getProxies added) links =
      .ok ((missingNames (producerNodes (getProxies added)) producerNames).map .producer ++
        (missingNames (consumerNodes (getProxies added)) consumerNames).map .consumer ++
        (((producerNodes (getProxies added)).product (consumerNodes (getProxies added))).map
          fun pair => missingBetween added links pair.1 pair.2).flatten) := by
  rw [checkOscConnections, mapM_ok fun pair : Proxy × Proxy =>
    checkLink_getProxies added links pair.1 pair.2]
  rfl

/-! ## Producers and consumers -/

theorem hasNode_of_mem {added : List GlobalObject} {proxy : Proxy} (h : proxy ∈ getProxies added)
    (hnode : proxy.type = .node) (hname : proxy.name ≠ []) :
    HasNode added proxy.objectId proxy.name := by
  obtain ⟨object, hobject, rfl⟩ := List.mem_map.mp h
  cases object with
  | port objectId nodeId portName path direction => cases hnode
  | node objectId nodeName path =>
      have hsome : nodeName = some (safeString nodeName) := (safeString_eq_iff hname).mp rfl
      refine ⟨path, ?_⟩
      show GlobalObject.node objectId (some (safeString nodeName)) path ∈ added
      rwa [← hsome]

theorem mem_of_hasNode {added : List GlobalObject} {nodeId : ℕ} {name : Str}
    (h : HasNode added nodeId name) :
    ∃ proxy ∈ getProxies added, proxy.type = .node ∧ proxy.objectId = nodeId ∧
      proxy.name = name := by
  obtain ⟨path, hmem⟩ := h
  exact ⟨_, List.mem_map_of_mem hmem, rfl, rfl, rfl⟩

theorem ne_nil_of_producer : ∀ name ∈ producerNames, name ≠ [] := by decide

theorem ne_nil_of_consumer : ∀ name ∈ consumerNames, name ≠ [] := by decide

theorem not_producer_of_consumer : ∀ name ∈ consumerNames, name ∉ producerNames := by decide

theorem exists_producerNode_iff {added : List GlobalObject} {nodeId : ℕ} {name : Str} :
    (∃ proxy ∈ producerNodes (getProxies added), proxy.objectId = nodeId ∧ proxy.name = name) ↔
      HasNode added nodeId name ∧ name ∈ producerNames := by
  constructor
  · rintro ⟨proxy, hmem, rfl, rfl⟩
    obtain ⟨hadded, hproducer⟩ := List.mem_filter.mp hmem
    obtain ⟨hname, hnode⟩ := of_decide_eq_true hproducer
    exact ⟨hasNode_of_mem hadded hnode (ne_nil_of_producer _ hname), hname⟩
  · rintro ⟨hnode, hname⟩
    obtain ⟨proxy, hmem, htype, rfl, rfl⟩ := mem_of_hasNode hnode
    exact ⟨proxy, List.mem_filter.mpr ⟨hmem, decide_eq_true ⟨hname, htype⟩⟩, rfl, rfl⟩

theorem exists_consumerNode_iff {added : List GlobalObject} {nodeId : ℕ} {name : Str} :
    (∃ proxy ∈ consumerNodes (getProxies added), proxy.objectId = nodeId ∧ proxy.name = name) ↔
      HasNode added nodeId name ∧ name ∈ consumerNames := by
  constructor
  · rintro ⟨proxy, hmem, rfl, rfl⟩
    obtain ⟨hadded, hconsumer⟩ := List.mem_filter.mp hmem
    obtain ⟨-, hname, hnode⟩ := of_decide_eq_true hconsumer
    exact ⟨hasNode_of_mem hadded hnode (ne_nil_of_consumer _ hname), hname⟩
  · rintro ⟨hnode, hname⟩
    obtain ⟨proxy, hmem, htype, rfl, rfl⟩ := mem_of_hasNode hnode
    refine ⟨proxy, List.mem_filter.mpr ⟨hmem, decide_eq_true ⟨?_, hname, htype⟩⟩, rfl, rfl⟩
    exact fun hproducer => not_producer_of_consumer _ hname hproducer.1

theorem missingNames_eq_nil_iff (nodes : List Proxy) (names : List Str) :
    missingNames nodes names = [] ↔ ∀ name ∈ names, ∃ proxy ∈ nodes, proxy.name = name := by
  rw [missingNames, List.filter_eq_nil_iff]
  refine forall₂_congr fun name _ => ?_
  rw [Bool.not_eq_true, Option.isNone_eq_false_iff, List.find?_isSome]
  simp only [decide_eq_true_eq]

/-- The check is silent exactly if all are connected. -/
theorem silent_iff_connected (added : List GlobalObject) (links : List Link) :
    checkOscConnections (getProxies added) links = .ok [] ↔ Connected added links := by
  rw [checkOscConnections_getProxies, Except.ok.injEq, List.append_eq_nil_iff,
    List.append_eq_nil_iff, List.map_eq_nil_iff, List.map_eq_nil_iff, missingNames_eq_nil_iff,
    missingNames_eq_nil_iff, List.flatten_eq_nil_iff, List.forall_mem_map]
  simp only [missingBetween_eq_nil_iff]
  constructor
  · rintro ⟨⟨hproducers, hconsumers⟩, hlinks⟩
    refine ⟨fun name hname => ?_, fun name hname => ?_, ?_⟩
    · obtain ⟨proxy, hmem, hproxy⟩ := hproducers name hname
      exact ⟨_, (exists_producerNode_iff.mp ⟨proxy, hmem, rfl, hproxy⟩).1⟩
    · obtain ⟨proxy, hmem, hproxy⟩ := hconsumers name hname
      exact ⟨_, (exists_consumerNode_iff.mp ⟨proxy, hmem, rfl, hproxy⟩).1⟩
    · intro output input producer consumer houtput hinput hproducer hconsumer
      obtain ⟨source, hsource, rfl, rfl⟩ := exists_producerNode_iff.mpr ⟨houtput, hproducer⟩
      obtain ⟨target, htarget, rfl, rfl⟩ := exists_consumerNode_iff.mpr ⟨hinput, hconsumer⟩
      exact hlinks (source, target) (List.pair_mem_product.mpr ⟨hsource, htarget⟩)
  · intro h
    refine ⟨⟨fun name hname => ?_, fun name hname => ?_⟩, ?_⟩
    · obtain ⟨nodeId, hnode⟩ := h.producers name hname
      obtain ⟨proxy, hmem, -, hproxy⟩ := exists_producerNode_iff.mpr ⟨hnode, hname⟩
      exact ⟨proxy, hmem, hproxy⟩
    · obtain ⟨nodeId, hnode⟩ := h.consumers name hname
      obtain ⟨proxy, hmem, -, hproxy⟩ := exists_consumerNode_iff.mpr ⟨hnode, hname⟩
      exact ⟨proxy, hmem, hproxy⟩
    · rintro ⟨producer, consumer⟩ hpair
      obtain ⟨hproducer, hconsumer⟩ := List.pair_mem_product.mp hpair
      obtain ⟨houtput, hproducerName⟩ :=
        exists_producerNode_iff.mp ⟨producer, hproducer, rfl, rfl⟩
      obtain ⟨hinput, hconsumerName⟩ :=
        exists_consumerNode_iff.mp ⟨consumer, hconsumer, rfl, rfl⟩
      exact h.links _ _ _ _ houtput hinput hproducerName hconsumerName

/-- The command returns.  When the bus answers, there is first a line for each service, with
its name at the front, and nothing follows exactly if all are connected. -/
theorem statusCommand_getProxies {Error : Type} (units : List SystemdUnit)
    (unitFiles : List UnitFile) (added : List GlobalObject) (links : List Link) :
    ∃ services missing, statusCommand (.ok units : Except Error _) (.ok unitFiles)
        (getProxies added) links = .ok (services ++ missing) ∧
      List.Forall₂ (fun name line => name ++ lit " " <+: line) allServices services ∧
      (missing = [] ↔ Connected added links) := by
  refine ⟨allServices.map (unitLine units unitFiles), _,
    by rw [statusCommand, checkOscConnections_getProxies]; rfl, ?_, ?_⟩
  · rw [List.forall₂_map_right_iff, List.forall₂_same]
    intro name _
    obtain ⟨rest, hrest⟩ := exists_unitLine units unitFiles name
    exact ⟨rest, hrest.symm⟩
  · rw [List.map_eq_nil_iff, ← silent_iff_connected, checkOscConnections_getProxies,
      Except.ok.injEq]

/-! ## With the script that makes the links -/

/-- The family of a port's name. -/
def familyOf (portName : Str) : Option ConnectOscPorts.Family :=
  if portName = lit "pmx-osc" then some .osc
  else if portName = lit "pmx-from-sl-osc" then some .fromSlOsc
  else if portName = lit "pmx-to-sl-osc" then some .toSlOsc
  else none

/-- The port, if one of the script's hooks is interested in it. -/
def watchedPort : GlobalObject → Option ConnectOscPorts.Port
  | .port objectId _ portName _ direction =>
      (portName.bind familyOf).map fun family => ⟨family, direction, objectId⟩
  | .node _ _ _ => none

/-- The links that the script has made. -/
def linksMade (added : List GlobalObject) : List (ConnectOscPorts.Port × ConnectOscPorts.Port) :=
  (ConnectOscPorts.run (added.filterMap watchedPort)).links

/-- A link has these ends. -/
def Joins (link : Link) (outputPort inputPort : ConnectOscPorts.Port) : Prop :=
  link.outputPortId = outputPort.objectId ∧ link.inputPortId = inputPort.objectId

/-- The console has been told of `seen`, the script of all of `added`; links between
watched ports are the script's. -/
structure Announced (added seen : List GlobalObject) (links : List Link) : Prop where
  seen : seen <+: added
  made : ∀ link ∈ links, ∀ outputPort inputPort, outputPort ∈ added.filterMap watchedPort →
    inputPort ∈ added.filterMap watchedPort → Joins link outputPort inputPort →
      (outputPort, inputPort) ∈ linksMade added

/-- All links between the ports that the console knows have been announced. -/
def CaughtUp (seen : List GlobalObject) (links : List Link) : Prop :=
  ∀ pair ∈ linksMade seen, ∃ link ∈ links, Joins link pair.1 pair.2

/-- Every name has a node, and every node of a producer or a consumer its port. -/
structure Complete (added : List GlobalObject) : Prop where
  producers : ∀ name ∈ producerNames, ∃ nodeId, HasNode added nodeId name
  consumers : ∀ name ∈ consumerNames, ∃ nodeId, HasNode added nodeId name
  outputs : ∀ nodeId name, HasNode added nodeId name → name ∈ producerNames →
    ∃ port, oscPortOf added nodeId = some port ∧ port.direction = some .output
  inputs : ∀ nodeId name, HasNode added nodeId name → name ∈ consumerNames →
    ∃ port, oscPortOf added nodeId = some port ∧ port.direction = some .input

/-- The script has linked every producer to every consumer. -/
def AllLinked (added seen : List GlobalObject) : Prop :=
  ∀ output input producer consumer, HasNode seen output producer → HasNode seen input consumer →
    producer ∈ producerNames → consumer ∈ consumerNames → ∃ outputPort inputPort,
      (oscPortOf seen output).bind watchedPort = some outputPort ∧
        (oscPortOf seen input).bind watchedPort = some inputPort ∧
          (outputPort, inputPort) ∈ linksMade added

/-- The ports that were found, as the script knows them. -/
theorem exists_watchedPort {added : List GlobalObject} {nodeId : ℕ} {port : GlobalObject}
    (h : oscPortOf added nodeId = some port) :
    ∃ direction, port.direction = some direction ∧
      watchedPort port = some ⟨.osc, direction, port.objectId⟩ ∧ port ∈ added := by
  have hmem := List.mem_of_find?_eq_some h
  have hport : IsOscPortOf nodeId port := by
    simpa using List.find?_some (p := fun object => decide (IsOscPortOf nodeId object)) h
  cases port with
  | node objectId nodeName path => exact absurd hport id
  | port objectId id portName path direction =>
      obtain ⟨rfl, -⟩ := isOscPortOf_port.mp hport
      exact ⟨direction, rfl, rfl, hmem⟩

/-- No port of the family `pmx-osc` is aborted. -/
theorem mem_linksMade_iff {added : List GlobalObject} {outputPort inputPort : ConnectOscPorts.Port}
    (hosc : outputPort.family = .osc) :
    (outputPort, inputPort) ∈ linksMade added ↔
      ConnectOscPorts.Matching outputPort inputPort ∧
        outputPort ∈ added.filterMap watchedPort ∧ inputPort ∈ added.filterMap watchedPort := by
  have haborted : (ConnectOscPorts.aborted (added.filterMap watchedPort)).count outputPort = 0 := by
    refine List.count_eq_zero_of_not_mem fun hmem => ?_
    have hfamily := of_decide_eq_true (List.mem_filter.mp hmem).2
    exact hfamily hosc
  rw [linksMade, ← List.count_pos_iff, ConnectOscPorts.count_links, haborted, Nat.sub_zero,
    ← List.count_pos_iff, ← List.count_pos_iff]
  split_ifs with hmatching
  · rw [CanonicallyOrderedAdd.mul_pos]
    exact (and_iff_right hmatching).symm
  · exact iff_of_false (Nat.lt_irrefl 0) fun h => hmatching h.1

section Announced

variable {added seen : List GlobalObject} {links : List Link}
  {outputPort inputPort : GlobalObject} {output input : ℕ}

/-- A link between two ports that were found has been made by the script. -/
theorem made_of_link (h : Announced added seen links)
    (houtput : oscPortOf seen output = some outputPort)
    (hinput : oscPortOf seen input = some inputPort)
    (hlink : ∃ link ∈ links, link.outputPortId = outputPort.objectId ∧
      link.inputPortId = inputPort.objectId) :
    (outputPort.direction = some .output ∧ inputPort.direction = some .input) ∧
      ∃ o i, watchedPort outputPort = some o ∧ watchedPort inputPort = some i ∧
        (o, i) ∈ linksMade added := by
  obtain ⟨link, hmem, hends⟩ := hlink
  obtain ⟨_, hsource, houtputPort, houtputMem⟩ := exists_watchedPort houtput
  obtain ⟨_, htarget, hinputPort, hinputMem⟩ := exists_watchedPort hinput
  have hmade := h.made link hmem _ _
    (List.mem_filterMap.mpr ⟨_, h.seen.subset houtputMem, houtputPort⟩)
    (List.mem_filterMap.mpr ⟨_, h.seen.subset hinputMem, hinputPort⟩) hends
  obtain ⟨hfrom, hto, -⟩ := ((mem_linksMade_iff rfl).mp hmade).1
  exact ⟨⟨hsource.trans (congrArg some hfrom), htarget.trans (congrArg some hto)⟩,
    _, _, houtputPort, hinputPort, hmade⟩

/-- The script links the port of a producer to the port of a consumer. -/
theorem link_of_caughtUp (h : CaughtUp seen links)
    (houtput : oscPortOf seen output = some outputPort)
    (hinput : oscPortOf seen input = some inputPort)
    (hsource : outputPort.direction = some .output) (htarget : inputPort.direction = some .input) :
    ∃ link ∈ links, link.outputPortId = outputPort.objectId ∧
      link.inputPortId = inputPort.objectId := by
  obtain ⟨_, hfrom, houtputPort, houtputMem⟩ := exists_watchedPort houtput
  obtain ⟨_, hto, hinputPort, hinputMem⟩ := exists_watchedPort hinput
  rw [hsource] at hfrom
  rw [htarget] at hto
  cases hfrom
  cases hto
  refine h (⟨.osc, .output, outputPort.objectId⟩, ⟨.osc, .input, inputPort.objectId⟩)
    ((mem_linksMade_iff rfl).mpr ⟨⟨rfl, rfl, rfl⟩, ?_, ?_⟩)
  · exact List.mem_filterMap.mpr ⟨_, houtputMem, houtputPort⟩
  · exact List.mem_filterMap.mpr ⟨_, hinputMem, hinputPort⟩

theorem complete_of_connected (h : Announced added seen links) (hconnected : Connected seen links) :
    Complete seen ∧ AllLinked added seen := by
  have hpair : ∀ output input producer consumer, HasNode seen output producer →
      HasNode seen input consumer → producer ∈ producerNames → consumer ∈ consumerNames →
      ∃ outputPort inputPort, oscPortOf seen output = some outputPort ∧
        oscPortOf seen input = some inputPort ∧
          (outputPort.direction = some .output ∧ inputPort.direction = some .input) ∧
            ∃ o i, watchedPort outputPort = some o ∧ watchedPort inputPort = some i ∧
              (o, i) ∈ linksMade added := by
    intro output input producer consumer houtput hinput hproducer hconsumer
    obtain ⟨outputPort, inputPort, hfrom, hto, hlink⟩ :=
      hconnected.links output input producer consumer houtput hinput hproducer hconsumer
    exact ⟨outputPort, inputPort, hfrom, hto, made_of_link h hfrom hto hlink⟩
  have hproducer : lit "pmx-midi-router" ∈ producerNames := List.mem_cons_self
  have hconsumer : lit "pmx-filter-chain-ctrl" ∈ consumerNames := List.mem_cons_self
  obtain ⟨router, hrouter⟩ := hconnected.producers _ hproducer
  obtain ⟨chains, hchains⟩ := hconnected.consumers _ hconsumer
  refine ⟨⟨hconnected.producers, hconnected.consumers, ?_, ?_⟩, ?_⟩
  · intro nodeId name hnode hname
    obtain ⟨port, _, hport, -, ⟨hdirection, -⟩, -⟩ :=
      hpair nodeId chains name _ hnode hchains hname hconsumer
    exact ⟨port, hport, hdirection⟩
  · intro nodeId name hnode hname
    obtain ⟨_, port, -, hport, ⟨-, hdirection⟩, -⟩ :=
      hpair router nodeId _ name hrouter hnode hproducer hname
    exact ⟨port, hport, hdirection⟩
  · intro output input producer consumer houtput hinput hfromName htoName
    obtain ⟨outputPort, inputPort, hfrom, hto, -, o, i, ho, hi, hmade⟩ :=
      hpair output input producer consumer houtput hinput hfromName htoName
    refine ⟨o, i, ?_, ?_, hmade⟩
    · rw [hfrom, Option.bind_some, ho]
    · rw [hto, Option.bind_some, hi]

theorem connected_of_complete (hcaughtUp : CaughtUp seen links) (hcomplete : Complete seen) :
    Connected seen links := by
  refine ⟨hcomplete.producers, hcomplete.consumers, ?_⟩
  intro output input producer consumer houtput hinput hproducer hconsumer
  obtain ⟨outputPort, hfrom, hsource⟩ := hcomplete.outputs output producer houtput hproducer
  obtain ⟨inputPort, hto, htarget⟩ := hcomplete.inputs input consumer hinput hconsumer
  exact ⟨outputPort, inputPort, hfrom, hto, link_of_caughtUp hcaughtUp hfrom hto hsource htarget⟩

/-- **The status of the connections.**  Whatever has been added in whatever order, and
however much of it has been announced to the console, the check returns.  If it is
silent, all producers and consumers are there with their ports and the script has
linked them all; and once the links have been announced it is silent if they are
there. -/
theorem silent_of_arrivals (h : Announced added seen links) :
    (∃ missing, checkOscConnections (getProxies seen) links = .ok missing) ∧
      (checkOscConnections (getProxies seen) links = .ok [] →
        Complete seen ∧ AllLinked added seen) ∧
      (CaughtUp seen links →
        (checkOscConnections (getProxies seen) links = .ok [] ↔ Complete seen)) := by
  refine ⟨⟨_, checkOscConnections_getProxies seen links⟩, ?_, ?_⟩
  · intro hsilent
    exact complete_of_connected h ((silent_iff_connected seen links).mp hsilent)
  · intro hcaughtUp
    rw [silent_iff_connected]
    exact ⟨fun hconnected => (complete_of_connected h hconnected).1,
      connected_of_complete hcaughtUp⟩

end Announced

/-- Three producers and two consumers, each with its port. -/
def fiveNodes : List GlobalObject :=
  (producerNames.zipIdx.flatMap fun entry =>
    [.node (2 * entry.2) (some entry.1) none,
      .port (2 * entry.2 + 1) (2 * entry.2) (some (lit "pmx-osc")) none .output]) ++
  consumerNames.zipIdx.flatMap fun entry =>
    [.node (2 * entry.2 + 10) (some entry.1) none,
      .port (2 * entry.2 + 11) (2 * entry.2 + 10) (some (lit "pmx-osc")) none .input]

/-- The six links between them. -/
def sixLinks : List Link :=
  [1, 3, 5].flatMap fun output =>
    [11, 13].map fun input => ⟨20, output, input, output - 1, input - 1⟩

theorem silent_of_arrivals_five :
    checkOscConnections (getProxies fiveNodes) sixLinks = .ok [] ∧ Complete fiveNodes ∧
      AllLinked fiveNodes fiveNodes := by
  have hmade : ∀ link ∈ sixLinks, ∀ outputPort ∈ fiveNodes.filterMap watchedPort,
      ∀ inputPort ∈ fiveNodes.filterMap watchedPort,
        link.outputPortId = outputPort.objectId ∧ link.inputPortId = inputPort.objectId →
          (outputPort, inputPort) ∈ linksMade fiveNodes := by
    decide +kernel
  have hannounced : Announced fiveNodes fiveNodes sixLinks :=
    ⟨List.prefix_rfl, fun link hlink outputPort inputPort houtput hinput =>
      hmade link hlink outputPort houtput inputPort hinput⟩
  have hsilent : checkOscConnections (getProxies fiveNodes) sixLinks = .ok [] := by
    decide +kernel
  exact ⟨hsilent, (silent_of_arrivals hannounced).2.1 hsilent⟩

end Pmx.Console.Status
