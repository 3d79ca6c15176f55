import Mathlib.Logic.Function.Basic
import Mathlib.Data.List.Induction
import Pmx.Library.Cxx
import Pmx.Library.Patchbay

/-!
# The control watcher

The script remembers the nodes and ports of the controllers, and asks `pmx_utils` to
raise an event for each pair that is to be connected.  `pmx_utils` pushes the event
through a global `source`, and where it starts from a port only if there is a global
`target_port`.  No script sets either of them.

So no event is ever raised (`nothing_raised`): where both ends are there the hook ends
in an error, or does nothing.
-/

namespace Pmx.ControlWatcher

open Cxx
open Patchbay (AtArrival)

/-- What has been added: a node by its name, or a port by its alias and direction. -/
inductive Subject
  | node (nodeId : Str) (name : Str)
  | port (nodeId portId : Str) (portAlias : Str) (isOutput : Bool)
  deriving DecidableEq

/-- `properties["node.id"]`. -/
def Subject.nodeId : Subject → Str
  | .node nodeId _ => nodeId
  | .port nodeId _ _ _ => nodeId

/-- `properties["port.id"]`. -/
def Subject.portId : Subject → Option Str
  | .node _ _ => none
  | .port _ portId _ _ => some portId

/-- The variables of the script, one for each hook. -/
inductive Device
  | filterChainCtrl
  | midiRouter
  | networkReceiver
  | cmdMm1Port
  | faderFoxPort
  | traktorZ1Router
  | networkSender
  deriving DecidableEq

/-- The constraints of the hooks. -/
def interest : Subject → Option Device
  | .node _ name =>
      if name = lit "pmx-filter-chain-ctrl" then some .filterChainCtrl
      else if name = lit "pmx-osc-network-receiver" then some .networkReceiver
      else if name = lit "pmx-osc-network-sender" then some .networkSender
      else if name = lit "pmx-traktor-z1-router" then some .traktorZ1Router
      else if name = lit "pmx-midi-router" then some .midiRouter
      else none
  | .port _ _ portAlias isOutput =>
      if !isOutput then none
      else if portAlias = lit "Faderfox PC4:Faderfox PC4 MIDI 1" then some .faderFoxPort
      else if portAlias = lit "CMD MM-1:CMD MM-1 MIDI 1" then some .cmdMm1Port
      else none

/-- The properties of an event `pmx_connect_ports`. -/
structure ConnectPorts where
  sourcePortId : Option Str
  sourceNodeId : Str
  targetPortId : Option Str
  targetNodeId : Str
  deriving DecidableEq

/-- A call of `raise_connect_event` or of `raise_connect_event_port_to_node`. -/
inductive Request
  | connect (sourceNode : Device) (sourcePortId : Str) (targetNode : Device) (targetPortId : Str)
  | connectPortToNode (sourcePort targetNode : Device) (targetPortId : Option Str)

/-- Whether the globals that `pmx_utils` reads are set. -/
structure Globals where
  source : Bool
  targetPort : Bool

/-- `source:call("push-event", …)`. -/
def pushEvent (globals : Globals) (event : ConnectPorts) : Option (List ConnectPorts) :=
  if globals.source then some [event] else none

/-- A call; there is no result where it ends in an error. -/
def raise (globals : Globals) (found : Device → Option Subject) :
    Request → Option (List ConnectPorts)
  | .connect sourceNode sourcePortId targetNode targetPortId =>
      match found sourceNode, found targetNode with
      | some source, some target =>
          pushEvent globals ⟨some sourcePortId, source.nodeId, some targetPortId, target.nodeId⟩
      | _, _ => some []
  | .connectPortToNode sourcePort targetNode targetPortId =>
      match found sourcePort, found targetNode with
      | some source, some target =>
          if globals.targetPort then
            pushEvent globals ⟨source.portId, source.nodeId, targetPortId, target.nodeId⟩
          else some []
      | _, _ => some []

/-- The calls of a hook. -/
def requests : Device → List Request
  | .filterChainCtrl =>
      [.connectPortToNode .networkReceiver .filterChainCtrl none,
        .connect .traktorZ1Router (lit "0") .filterChainCtrl (lit "0"),
        .connect .midiRouter (lit "0") .filterChainCtrl (lit "0")]
  | .networkReceiver => [.connectPortToNode .networkReceiver .filterChainCtrl none]
  | .networkSender =>
      [.connectPortToNode .traktorZ1Router .networkSender none,
        .connectPortToNode .midiRouter .networkSender none]
  | .traktorZ1Router =>
      [.connect .traktorZ1Router (lit "0") .networkSender (lit "0"),
        .connect .traktorZ1Router (lit "0") .filterChainCtrl (lit "0")]
  | .midiRouter =>
      [.connect .midiRouter (lit "0") .networkSender (lit "0"),
        .connect .midiRouter (lit "0") .filterChainCtrl (lit "0"),
        .connectPortToNode .cmdMm1Port .midiRouter (some (lit "1")),
        .connectPortToNode .faderFoxPort .midiRouter (some (lit "0"))]
  | .faderFoxPort => [.connectPortToNode .faderFoxPort .midiRouter (some (lit "0"))]
  | .cmdMm1Port => [.connectPortToNode .cmdMm1Port .midiRouter (some (lit "1"))]

/-- `failed` are the subjects whose hook has ended in an error. -/
structure State where
  found : Device → Option Subject
  pushed : List ConnectPorts
  failed : List Subject

def initial : State :=
  ⟨fun _ => none, [], []⟩

/-- The calls in order, up to the first error. -/
def runRequests (globals : Globals) (subject : Subject) (s : State) : List Request → State
  | [] => s
  | request :: rest =>
      match raise globals s.found request with
      | some events =>
          runRequests globals subject { s with pushed := s.pushed ++ events } rest
      | none => { s with failed := s.failed ++ [subject] }

/-- The hook for what has been added. -/
def added (globals : Globals) (s : State) (subject : Subject) : State :=
  match interest subject with
  | some device =>
      runRequests globals subject { s with found := Function.update s.found device (some subject) }
        (requests device)
  | none => s

def run (globals : Globals) (subjects : List Subject) : State :=
  subjects.foldl (added globals) initial

/-! ## Without globals -/

/-- The globals as the scripts leave them. -/
def unset : Globals :=
  ⟨false, false⟩

/-- The call ends in an error. -/
def Fails (found : Device → Option Subject) : Request → Bool
  | .connect sourceNode _ targetNode _ => (found sourceNode).isSome && (found targetNode).isSome
  | .connectPortToNode .. => false

theorem raise_unset (found : Device → Option Subject) (request : Request) :
    raise unset found request = if Fails found request then none else some [] := by
  cases request with
  | connect sourceNode sourcePortId targetNode targetPortId =>
      rw [raise, Fails]
      cases found sourceNode <;> cases found targetNode <;> rfl
  | connectPortToNode sourcePort targetNode targetPortId =>
      rw [raise, Fails]
      cases found sourcePort <;> cases found targetNode <;> rfl

theorem runRequests_unset (subject : Subject) (s : State) (calls : List Request) :
    runRequests unset subject s calls =
      { s with failed := s.failed ++ if calls.any (Fails s.found) then [subject] else [] } := by
  induction calls with
  | nil => simp [runRequests]
  | cons request rest ih =>
      rw [runRequests, raise_unset, List.any_cons]
      by_cases hfails : Fails s.found request = true
      · simp [hfails]
      · simp only [hfails, Bool.false_eq_true, if_false, List.append_nil, ih, Bool.false_or]

/-- The device is among the objects that have come. -/
def HasCome (device : Device) (subjects : List Subject) : Prop :=
  ∃ subject ∈ subjects, interest subject = some device

theorem hasCome_concat {device : Device} {subjects : List Subject} {subject : Subject} :
    HasCome device (subjects ++ [subject]) ↔
      HasCome device subjects ∨ interest subject = some device := by
  simp [HasCome, or_and_right, exists_or]

theorem added_unset (s : State) (subject : Subject) :
    (added unset s subject).pushed = s.pushed ∧
      (∀ device, ((added unset s subject).found device).isSome =
        ((s.found device).isSome || interest subject = some device)) := by
  rw [added]
  cases hdevice : interest subject with
  | none => simp
  | some device =>
      simp only [runRequests_unset, true_and]
      intro other
      by_cases hother : other = device
      · simp [hother]
      · simp [Function.update_of_ne hother, Ne.symm hother]

theorem run_concat (globals : Globals) (subjects : List Subject) (subject : Subject) :
    run globals (subjects ++ [subject]) = added globals (run globals subjects) subject :=
  List.foldl_concat ..

theorem isSome_found (subjects : List Subject) (device : Device) :
    ((run unset subjects).found device).isSome ↔ HasCome device subjects := by
  induction subjects using List.reverseRecOn with
  | nil => simp [run, initial, HasCome]
  | append_singleton subjects subject ih =>
      rw [run_concat, (added_unset _ _).2, Bool.or_eq_true, ih, hasCome_concat, decide_eq_true_iff]

/-- A router comes with a target of its events there, or the controller with a router. -/
def Errs (earlier : List Subject) (subject : Subject) : Prop :=
  interest subject = some .filterChainCtrl ∧
      (HasCome .traktorZ1Router earlier ∨ HasCome .midiRouter earlier) ∨
    (interest subject = some .traktorZ1Router ∨ interest subject = some .midiRouter) ∧
      (HasCome .networkSender earlier ∨ HasCome .filterChainCtrl earlier)

theorem any_fails (found : Device → Option Subject) (device : Device) (subject : Subject) :
    (requests device).any (Fails (Function.update found device (some subject))) = true ↔
      device = .filterChainCtrl ∧
          ((found .traktorZ1Router).isSome ∨ (found .midiRouter).isSome) ∨
        (device = .traktorZ1Router ∨ device = .midiRouter) ∧
          ((found .networkSender).isSome ∨ (found .filterChainCtrl).isSome) := by
  cases device <;> simp [requests, Fails, Function.update]

/-- The hook that ends in an error. -/
theorem failed_added (subjects : List Subject) (subject other : Subject) :
    other ∈ (added unset (run unset subjects) subject).failed ↔
      other ∈ (run unset subjects).failed ∨ other = subject ∧ Errs subjects subject := by
  rw [added, Errs]
  cases hdevice : interest subject with
  | none => simp
  | some device =>
      simp only [runRequests_unset, List.mem_append, ← isSome_found, Option.some.injEq]
      rw [← any_fails _ _ subject]
      split_ifs with hfails <;> simp [hfails]

/-- **No event is raised.**  The hooks that end in an error are those of a router behind
the network sender or the filter chain controller, and of the filter chain controller
behind a router; all others do nothing. -/
theorem nothing_raised (subjects : List Subject) :
    (run unset subjects).pushed = [] ∧
      ∀ subject, subject ∈ (run unset subjects).failed ↔ AtArrival Errs subjects subject := by
  induction subjects using List.reverseRecOn with
  | nil => simp [run, initial, AtArrival]
  | append_singleton subjects last ih =>
      obtain ⟨hpushed, hfailed⟩ := ih
      refine ⟨?_, fun subject => ?_⟩
      · rw [run_concat, (added_unset _ _).1, hpushed]
      · rw [run_concat, failed_added, hfailed, Patchbay.atArrival_concat]

end Pmx.ControlWatcher
