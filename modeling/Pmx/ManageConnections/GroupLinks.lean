import Pmx.ManageConnections
import Pmx.ManageConnections.InputLinks

/-!
# Links into the group channels

Five hooks of `pmx_manage_connections.lua` run when a port is added.  Two of
them are meant for the inputs of the group chains, which they link from the
outputs of the loopers; but they ask for a port of the direction `out`, and the
inputs of a chain have the direction `in`.  The hook for the inputs of the input
chain asks for `in`.

No hook ever links into an input of a group chain (`links_avoid_groupInputs`),
whatever is added in whatever order.  The tables of the two hooks are right:
`looperOutPorts_get` is the output that each input should get.
-/

namespace Pmx.ManageConnections.GroupLinks

open Cxx Lua

/-! ## Ports and hooks -/

/-- A port of the session, with the properties that the script looks at. -/
structure PortObject where
  objectId : ℕ
  direction : Direction
  portAlias : Str
  portId : ℕ
  deriving DecidableEq

/-- The entries of the metadata object `performance-mixer`. -/
abbrev Metadata := List (Str × Str)

/-- The ports that the object manager has, and the links that were created, each
with the object ids of its output and its input. -/
structure Session where
  ports : List PortObject
  links : List (ℕ × ℕ)

/-- `MyObjectManager:lookup` of a port by direction and alias. -/
def lookup (ports : List PortObject) (direction : Direction) (portAlias : Str) :
    Option PortObject :=
  lookupPort PortObject.direction PortObject.portAlias ports (some direction) portAlias

/-- `metadata:find(0, key)`, if there is a metadata object. -/
def find (metadata : Option Metadata) (key : Str) : Option Str :=
  metadata.bind fun entries => entries.lookup key

/-- The link into a port, if there is an output with the alias. -/
def linkFrom (ports : List PortObject) (sourceAlias : Option Str) (target : PortObject) :
    List (ℕ × ℕ) :=
  match sourceAlias.bind (lookup ports .output) with
  | some source => [(source.objectId, target.objectId)]
  | none => []

/-- The link from a port, if there is an input with the alias. -/
def linkTo (ports : List PortObject) (source : PortObject) (targetAlias : Option Str) :
    List (ℕ × ℕ) :=
  match targetAlias.bind (lookup ports .input) with
  | some target => [(source.objectId, target.objectId)]
  | none => []

/-- The hook for an input of the input chain. -/
def connectInitialFcInputs (metadata : Option Metadata) (ports : List PortObject)
    (port : PortObject) : List (ℕ × ℕ) :=
  if port.direction = .input ∧ startsWith port.portAlias (lit "PMX Input Channels:input") then
    linkFrom ports (find metadata (channelPortName (port.portId + 1))) port
  else []

/-- The alias of the input with a number.  The text of a float is not the one of
any input. -/
def numberedInput : Number → Option Str
  | .integer portId => some (inputAlias (tostring portId))
  | .float => none

/-- The loop of `connect_initial_ports`.  A key without a number ends the hook. -/
def connectItems (ports : List PortObject) (source : PortObject) : Metadata → List (ℕ × ℕ)
  | [] => []
  | item :: rest =>
      if item.2 = source.portAlias then
        match tonumber (sub item.1 14) with
        | none => []
        | some portId =>
            linkTo ports source (numberedInput portId) ++ connectItems ports source rest
      else connectItems ports source rest

/-- The hook for a new output port. -/
def connectInitialPorts (metadata : Option Metadata) (ports : List PortObject)
    (port : PortObject) : List (ℕ × ℕ) :=
  if port.direction = .output then connectItems ports port (metadata.getD []) else []

/-- The text that the aliases of the inputs of a group chain start with. -/
def groupInputPrefix (groupA : Bool) : Str :=
  if groupA then lit "PMX Group Channels A:input_" else lit "PMX Group Channels B:input_"

/-- The hooks `connect_looper_to_group_a` and `connect_looper_to_group_b`. -/
def connectLooperToGroup (groupA : Bool) (ports : List PortObject) (port : PortObject) :
    List (ℕ × ℕ) :=
  if port.direction = .output ∧ startsWith port.portAlias (groupInputPrefix groupA) then
    linkFrom ports (looperOutPorts groupA)[port.portId]? port
  else []

/-- The number under a key; a float makes up the alias of no looper. -/
def groupNumber (metadata : Option Metadata) (key : Str) : Option ℤ :=
  match (find metadata key).bind tonumber with
  | some (.integer group) => some group
  | _ => none

/-- The hook for an output of the input chain. -/
def connectInitialGroupInputs (metadata : Option Metadata) (ports : List PortObject)
    (port : PortObject) : List (ℕ × ℕ) :=
  if port.direction = .output ∧ startsWith port.portAlias (lit "PMX Input Channels:output") then
    linkTo ports port
      (ManageConnections.connectInitialGroupInputs (groupNumber metadata) port.portId)
  else []

/-- The links of all hooks for a new port. -/
def hookLinks (metadata : Option Metadata) (ports : List PortObject) (port : PortObject) :
    List (ℕ × ℕ) :=
  connectInitialFcInputs metadata ports port ++ connectInitialPorts metadata ports port ++
    connectLooperToGroup true ports port ++ connectLooperToGroup false ports port ++
    connectInitialGroupInputs metadata ports port

/-- A `port-added` event, with the metadata at its time. -/
structure PortAdded where
  metadata : Option Metadata
  port : PortObject

/-- The hooks see the new port among the others. -/
def step (s : Session) (event : PortAdded) : Session :=
  ⟨s.ports ++ [event.port],
    s.links ++ hookLinks event.metadata (s.ports ++ [event.port]) event.port⟩

/-- The session after some events. -/
def run (events : List PortAdded) : Session :=
  events.foldl step ⟨[], []⟩

/-! ## What is wanted -/

/-- The alias of an input of a group chain, counted from one. -/
def groupInput (groupA : Bool) (number : ℕ) : Str :=
  groupInputPrefix groupA ++ decimal number

/-- The output for an input of a group chain: one of the two of the looper, of
which side A has the first four. -/
def groupSource (groupA : Bool) (number : ℕ) : Str :=
  looperPort ((number - 1) / 2 + if groupA then 0 else 4 : ℕ) (lit "out_")
    ((number - 1) % 2 + 1 : ℕ)

/-- One of the eight inputs of a group chain. -/
def IsGroupInput (port : PortObject) : Prop :=
  port.direction = .input ∧
    ∃ groupA number, 1 ≤ number ∧ number ≤ 8 ∧ port.portAlias = groupInput groupA number

/-- Every input of a group chain has one link, and this is from its output. -/
def GroupsLinked (s : Session) : Prop :=
  ∀ target ∈ s.ports, target.direction = .input →
    ∀ groupA number, 1 ≤ number → number ≤ 8 → target.portAlias = groupInput groupA number →
      ∃ source ∈ s.ports, source.direction = .output ∧
        source.portAlias = groupSource groupA number ∧
        (s.links.filter fun link => link.2 = target.objectId) =
          [(source.objectId, target.objectId)]

/-- An object id means one port. -/
def IdsIdentify (events : List PortAdded) : Prop :=
  ∀ first ∈ events, ∀ second ∈ events,
    first.port.objectId = second.port.objectId → first.port = second.port

/-- The table holds the output for each input. -/
theorem looperOutPorts_get (groupA : Bool) {number : ℕ} (hlow : 1 ≤ number) (hhigh : number ≤ 8) :
    (looperOutPorts groupA)[number - 1]? = some (groupSource groupA number) := by
  cases groupA <;> interval_cases number <;> decide

/-! ## No link into a group chain -/

theorem byteAt_groupInput (groupA : Bool) (number : ℕ) :
    byteAt (groupInput groupA number) 4 = 'G'.toUInt8 := by
  cases groupA <;> rfl

/-- A link of a hook leads to a port that is there and that is no input of a
group chain. -/
def AvoidsGroupInputs (ports : List PortObject) (links : List (ℕ × ℕ)) : Prop :=
  ∀ link ∈ links, ∃ target ∈ ports, target.objectId = link.2 ∧ ¬ IsGroupInput target

theorem AvoidsGroupInputs.append {ports : List PortObject} {first second : List (ℕ × ℕ)}
    (hfirst : AvoidsGroupInputs ports first) (hsecond : AvoidsGroupInputs ports second) :
    AvoidsGroupInputs ports (first ++ second) := by
  intro link hlink
  rcases List.mem_append.mp hlink with hlink | hlink
  · exact hfirst link hlink
  · exact hsecond link hlink

theorem AvoidsGroupInputs.nil (ports : List PortObject) : AvoidsGroupInputs ports [] :=
  fun _ hlink => absurd hlink List.not_mem_nil

theorem not_isGroupInput_of_output {port : PortObject} (houtput : port.direction = .output) :
    ¬ IsGroupInput port := by
  rintro ⟨hinput, _⟩
  rw [houtput] at hinput
  cases hinput

theorem not_isGroupInput_of_byte {port : PortObject}
    (hbyte : byteAt port.portAlias 4 ≠ 'G'.toUInt8) : ¬ IsGroupInput port := by
  rintro ⟨_, groupA, number, _, _, halias⟩
  rw [halias] at hbyte
  exact hbyte (byteAt_groupInput groupA number)

theorem avoids_linkFrom {ports : List PortObject} {target : PortObject} (hmem : target ∈ ports)
    (htarget : ¬ IsGroupInput target) (sourceAlias : Option Str) :
    AvoidsGroupInputs ports (linkFrom ports sourceAlias target) := by
  unfold linkFrom
  cases sourceAlias.bind (lookup ports .output) with
  | none => exact AvoidsGroupInputs.nil ports
  | some source =>
      intro link hlink
      rw [List.mem_singleton.mp hlink]
      exact ⟨target, hmem, rfl, htarget⟩

theorem avoids_linkTo {ports : List PortObject} (source : PortObject) {targetAlias : Option Str}
    (hbyte : ∀ portAlias, targetAlias = some portAlias → byteAt portAlias 4 ≠ 'G'.toUInt8) :
    AvoidsGroupInputs ports (linkTo ports source targetAlias) := by
  unfold linkTo
  cases htarget : targetAlias.bind (lookup ports .input) with
  | none => exact AvoidsGroupInputs.nil ports
  | some target =>
      obtain ⟨portAlias, halias, hlookup⟩ := Option.bind_eq_some_iff.mp htarget
      have hfound := List.find?_some hlookup
      simp only [Bool.and_eq_true, decide_eq_true_eq] at hfound
      intro link hlink
      rw [List.mem_singleton.mp hlink]
      refine ⟨target, List.mem_of_find?_eq_some hlookup, rfl, not_isGroupInput_of_byte ?_⟩
      rw [hfound.1]
      exact hbyte portAlias halias

theorem avoids_connectInitialFcInputs (metadata : Option Metadata) {ports : List PortObject}
    {port : PortObject} (hmem : port ∈ ports) :
    AvoidsGroupInputs ports (connectInitialFcInputs metadata ports port) := by
  unfold connectInitialFcInputs
  split_ifs with hinterest
  · obtain ⟨rest, hrest⟩ := startsWith_iff.mp hinterest.2
    refine avoids_linkFrom hmem (not_isGroupInput_of_byte ?_) _
    rw [hrest]
    exact (by decide : 'I'.toUInt8 ≠ 'G'.toUInt8)
  · exact AvoidsGroupInputs.nil ports

theorem avoids_connectItems (ports : List PortObject) (source : PortObject)
    (metadata : Metadata) : AvoidsGroupInputs ports (connectItems ports source metadata) := by
  induction metadata with
  | nil => exact AvoidsGroupInputs.nil ports
  | cons item rest ih =>
      rw [connectItems]
      split_ifs
      · cases tonumber (sub item.1 14) with
        | none => exact AvoidsGroupInputs.nil ports
        | some portId =>
            refine (avoids_linkTo source fun portAlias halias => ?_).append ih
            cases portId with
            | integer number =>
                cases halias
                exact (by decide : 'I'.toUInt8 ≠ 'G'.toUInt8)
            | float => cases halias
      · exact ih

theorem avoids_connectInitialPorts (metadata : Option Metadata) (ports : List PortObject)
    (port : PortObject) : AvoidsGroupInputs ports (connectInitialPorts metadata ports port) := by
  unfold connectInitialPorts
  split_ifs
  · exact avoids_connectItems ports port _
  · exact AvoidsGroupInputs.nil ports

/-- The hooks for the group chains run for outputs only. -/
theorem avoids_connectLooperToGroup (groupA : Bool) {ports : List PortObject}
    {port : PortObject} (hmem : port ∈ ports) :
    AvoidsGroupInputs ports (connectLooperToGroup groupA ports port) := by
  unfold connectLooperToGroup
  split_ifs with hinterest
  · exact avoids_linkFrom hmem (not_isGroupInput_of_output hinterest.1) _
  · exact AvoidsGroupInputs.nil ports

theorem avoids_connectInitialGroupInputs (metadata : Option Metadata) (ports : List PortObject)
    (port : PortObject) :
    AvoidsGroupInputs ports (connectInitialGroupInputs metadata ports port) := by
  unfold connectInitialGroupInputs
  split_ifs
  · refine avoids_linkTo port fun portAlias halias => ?_
    obtain ⟨group, _, rfl⟩ := Option.map_eq_some_iff.mp halias
    exact (by decide : 'e'.toUInt8 ≠ 'G'.toUInt8)
  · exact AvoidsGroupInputs.nil ports

theorem avoids_hookLinks (metadata : Option Metadata) {ports : List PortObject}
    {port : PortObject} (hmem : port ∈ ports) :
    AvoidsGroupInputs ports (hookLinks metadata ports port) :=
  ((((avoids_connectInitialFcInputs metadata hmem).append
    (avoids_connectInitialPorts metadata ports port)).append
    (avoids_connectLooperToGroup true hmem)).append
    (avoids_connectLooperToGroup false hmem)).append
    (avoids_connectInitialGroupInputs metadata ports port)

theorem avoids_step {s : Session} (h : AvoidsGroupInputs s.ports s.links) (event : PortAdded) :
    AvoidsGroupInputs (step s event).ports (step s event).links := by
  refine AvoidsGroupInputs.append (fun link hlink => ?_) (avoids_hookLinks _
    (List.mem_append_right _ (List.mem_singleton_self event.port)))
  obtain ⟨target, hmem, hid, htarget⟩ := h link hlink
  exact ⟨target, List.mem_append_left _ hmem, hid, htarget⟩

/-- After any events, no link leads to an input of a group chain. -/
theorem links_avoid_groupInputs (events : List PortAdded) :
    AvoidsGroupInputs (run events).ports (run events).links := by
  induction events using List.reverseRecOn with
  | nil => exact AvoidsGroupInputs.nil _
  | append_singleton events event ih =>
      rw [run, List.foldl_append]
      exact avoids_step ih event

theorem ports_run (events : List PortAdded) : (run events).ports = events.map PortAdded.port := by
  induction events using List.reverseRecOn with
  | nil => rfl
  | append_singleton events event ih =>
      rw [run, List.foldl_append, List.map_append]
      exact congrArg (· ++ [event.port]) ih

theorem linksInto_groupInput {events : List PortAdded} (hids : IdsIdentify events)
    {target : PortObject} (hmem : target ∈ events.map PortAdded.port)
    (htarget : IsGroupInput target) :
    (run events).links.filter (fun link => link.2 = target.objectId) = [] := by
  rw [List.filter_eq_nil_iff]
  intro link hlink hid
  obtain ⟨other, hother, hotherId, havoids⟩ := links_avoid_groupInputs events link hlink
  rw [ports_run] at hother
  obtain ⟨first, hfirst, rfl⟩ := List.mem_map.mp hother
  obtain ⟨second, hsecond, rfl⟩ := List.mem_map.mp hmem
  have hsame : first.port.objectId = second.port.objectId :=
    hotherId.trans (of_decide_eq_true hid)
  rw [hids first hfirst second hsecond hsame] at havoids
  exact havoids htarget

/-- **The group chains are linked as they should exactly when they have no inputs
at all**, in whatever order the ports are added. -/
theorem groupsLinked_iff_no_groupInput (events : List PortAdded) (hids : IdsIdentify events) :
    GroupsLinked (run events) ↔ ∀ event ∈ events, ¬ IsGroupInput event.port := by
  constructor
  · rintro hlinked event hevent ⟨hinput, groupA, number, hlow, hhigh, halias⟩
    have hmem : event.port ∈ events.map PortAdded.port := List.mem_map_of_mem hevent
    have hport : event.port ∈ (run events).ports := by rwa [ports_run]
    obtain ⟨source, _, _, _, hlinks⟩ :=
      hlinked event.port hport hinput groupA number hlow hhigh halias
    rw [linksInto_groupInput hids hmem ⟨hinput, groupA, number, hlow, hhigh, halias⟩] at hlinks
    cases hlinks
  · intro hnone target htarget hinput groupA number hlow hhigh halias
    rw [ports_run] at htarget
    obtain ⟨event, hevent, rfl⟩ := List.mem_map.mp htarget
    exact absurd ⟨hinput, groupA, number, hlow, hhigh, halias⟩ (hnone event hevent)

/-! ## The start order -/

theorem idsIdentify_of_nodup {events : List PortAdded}
    (hnodup : (events.map fun event => event.port.objectId).Nodup) : IdsIdentify events := by
  intro first hfirst second hsecond hid
  rw [List.inj_on_of_nodup_map hnodup hfirst hsecond hid]

/-- The sixteen outputs of the loopers, in the order of the tables. -/
def looperEvents : List PortAdded :=
  (looperOutPorts true ++ looperOutPorts false).mapIdx fun index portAlias =>
    ⟨none, index, .output, portAlias, index % 2⟩

/-- The sixteen inputs of the group chains. -/
def groupEvents : List PortAdded :=
  (List.range 16).map fun index =>
    ⟨none, 16 + index, .input, groupInput (decide (index < 8)) (index % 8 + 1), index % 8⟩

/-- Without group chains there is nothing to link. -/
theorem groupsLinked_iff_no_groupInput_loopers : GroupsLinked (run looperEvents) := by
  have hids : IdsIdentify looperEvents := idsIdentify_of_nodup (by decide)
  refine (groupsLinked_iff_no_groupInput looperEvents hids).mpr fun event hevent => ?_
  have houtputs : ∀ event ∈ looperEvents, event.port.direction = .output := by decide
  exact not_isGroupInput_of_output (houtputs event hevent)

/-- With all loopers there before the group chains, not one input is linked. -/
theorem started_mixer_unlinked : ¬ GroupsLinked (run (looperEvents ++ groupEvents)) := by
  have hids : IdsIdentify (looperEvents ++ groupEvents) := idsIdentify_of_nodup (by decide)
  have hmem : (⟨16, .input, groupInput true 1, 0⟩ : PortObject) ∈
      (looperEvents ++ groupEvents).map PortAdded.port := by
    decide
  have hport : (⟨16, .input, groupInput true 1, 0⟩ : PortObject) ∈
      (run (looperEvents ++ groupEvents)).ports := by
    rwa [ports_run]
  intro hlinked
  obtain ⟨source, _, _, _, hlinks⟩ :=
    hlinked _ hport rfl true 1 (le_refl 1) (by decide) rfl
  rw [linksInto_groupInput hids hmem ⟨rfl, true, 1, le_refl 1, by decide, rfl⟩] at hlinks
  cases hlinks

end Pmx.ManageConnections.GroupLinks
