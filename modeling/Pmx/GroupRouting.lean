import Pmx.GrpcService
import Pmx.Library.Relay
import Pmx.ManageConnections.OutputLinks

/-!
# From a request to the loopers

A client asks the gRPC service for a group on a channel, the service writes its number
into the metadata, and `pmx_manage_connections.lua` sees the change some time later and
links the two outputs of the channel to inputs of loopers.  Links are announced and
removed at their own pace.

The loopers are started before everything else, and so their inputs come before the
outputs of the input channels.  If each change is seen when the links out of its outputs
have been announced, the links are in the end those that the group asked for last names,
and there always is an end to be reached (`group_links_of_run`).

The aliases that the script names are off: no right output is ever linked, and a left
one to the looper of the group before (`of_mem_asked`).
-/

namespace Pmx.GroupRouting

open Cxx GrpcService Transition

open ManageConnections (Session SessionEvent inputNumber looperOffset looperPort looperPort_inj
  targetPortAlias_even targetPortAlias_odd)
open ManageConnections.OutputLinks (Mirrored Port changeMetadata channelGroupName
  channelGroupName_inj channelOf frame_changeMetadata frame_portAdded groupNumber
  groupNumber_insert_of_ne groupNumber_insert_self mirrored_changeMetadata mirrored_portAdded
  portAdded startsWith_targetAlias targetAlias targetOf wanted)

/-- A change of a `channel_group_` key: the channel, and its new group. -/
abbrev Change := ℕ × ℕ

/-- The changes that a request makes. -/
def changesOf : Request → List Change
  | .setup channelId _ (some group) => [(channelId, group)]
  | _ => []

/-- The channel that a port is an output of. -/
def channelOfPort : Port → Option ℕ
  | .output portId => some (channelOf portId)
  | .input _ => none

/-- There are 32 channels, and the numbers of groups have 32 bits. -/
def Change.Valid (change : Change) : Prop :=
  1 ≤ change.1 ∧ change.1 ≤ 32 ∧ change.2 ≤ 4294967295

instance (change : Change) : Decidable change.Valid :=
  inferInstanceAs (Decidable (_ ∧ _ ∧ _))

/-- The service alone writes the metadata, with numbers that are valid. -/
def IsServed : Request → Prop
  | .other _ _ => False
  | request => ∀ change ∈ changesOf request, change.Valid

instance : DecidablePred IsServed
  | .other _ _ => isFalse id
  | .setup channelId port group =>
      inferInstanceAs (Decidable (∀ change ∈ changesOf (.setup channelId port group), _))
  | .clear channelId => inferInstanceAs (Decidable (∀ change ∈ changesOf (.clear channelId), _))

/-- The inputs of loopers come before the outputs of channels. -/
def LoopersFirst (session : ManageConnections.OutputLinks.State) : SessionEvent Port → Prop
  | .portAdded (.input portAlias) =>
      startsWith portAlias (lit "sooperlooper:loop") = true →
        ∀ port ∈ session.ports, channelOfPort port = none
  | _ => True

instance (session : ManageConnections.OutputLinks.State) : DecidablePred (LoopersFirst session)
  | .portAdded (.input _) => inferInstanceAs (Decidable (_ → _))
  | .portAdded (.output _) => isTrue trivial
  | .link _ => isTrue trivial

/-- All links out of the outputs of a channel have been announced. -/
def AnnouncedInTime (session : ManageConnections.OutputLinks.State) (change : Change) : Prop :=
  ∀ link ∈ session.links, channelOfPort link.near = some change.1 → link.announced = true

instance (session : ManageConnections.OutputLinks.State) :
    DecidablePred (AnnouncedInTime session) :=
  fun _ => inferInstanceAs (Decidable (∀ link ∈ session.links, _))

/-- Service and script, with the conditions above. -/
def system :
    Relay.System Request Change ManageConnections.OutputLinks.State (SessionEvent Port) where
  changesOf := changesOf
  see session change := changeMetadata session change.1 change.2
  act := Session.act Port.portAlias portAdded
  asks := IsServed
  inTime := AnnouncedInTime
  may := LoopersFirst

instance : DecidablePred system.asks :=
  inferInstanceAs (DecidablePred IsServed)

instance (session : ManageConnections.OutputLinks.State) : DecidablePred (system.inTime session) :=
  inferInstanceAs (DecidablePred (AnnouncedInTime session))

instance (session : ManageConnections.OutputLinks.State) : DecidablePred (system.may session) :=
  inferInstanceAs (DecidablePred (LoopersFirst session))

/-- The session is the one of the hooks for the outputs. -/
abbrev State := Relay.State Request Change ManageConnections.OutputLinks.State

/-- A request, a change that the script sees, or an event of its session. -/
abbrev Label := Relay.Label Request (SessionEvent Port)

/-- No request and no port has come. -/
def initial : State :=
  Relay.initial ManageConnections.OutputLinks.initial

/-- One step of the service, of the script or of its session. -/
abbrev step : State → Label → Option State :=
  system.step

/-- The condition on a step. -/
abbrev Orderly : State → Label → Prop :=
  system.Orderly

/-- The input that the group asked for last names, when both ports exist. -/
def asked (s : State) (portId : UInt32) : List Port :=
  targetOf s.session.ports portId
    ((lastGroup s.requests (channelOf portId)).map fun group : ℕ => (group : ℤ))

/-! ## The metadata follow the requests -/

/-- The group of a channel after a change. -/
def groupAfterChange (channelId : ℕ) (group : Option ℤ) (change : Change) : Option ℤ :=
  if change.1 = channelId then some (change.2 : ℤ) else group

theorem foldl_changesOf (channelId : ℕ) (group : Option ℕ) (request : Request) :
    (changesOf request).foldl (groupAfterChange channelId)
        (group.map fun group : ℕ => (group : ℤ)) =
      (groupAfter channelId group request).map fun group : ℕ => (group : ℤ) := by
  cases request with
  | setup other port new =>
      cases new with
      | none => rfl
      | some new =>
          by_cases hother : other = channelId <;>
            simp [groupAfterChange, changesOf, groupAfter, hother]
  | clear other => rfl
  | other key value => rfl

theorem foldl_flatMap_changesOf (channelId : ℕ) (group : Option ℕ) (requests : List Request) :
    (requests.flatMap changesOf).foldl (groupAfterChange channelId)
        (group.map fun group : ℕ => (group : ℤ)) =
      (requests.foldl (groupAfter channelId) group).map fun group : ℕ => (group : ℤ) := by
  induction requests generalizing group with
  | nil => rfl
  | cons request rest ih =>
      rw [List.flatMap_cons, List.foldl_append, foldl_changesOf, ih]
      rfl

theorem groupNumber_changeMetadata {s : ManageConnections.OutputLinks.State} (h : Mirrored s)
    {change : Change} (hvalid : change.Valid) (channelId : ℕ) :
    groupNumber (changeMetadata s change.1 change.2).metadata (channelGroupName channelId) =
      groupAfterChange channelId (groupNumber s.metadata (channelGroupName channelId)) change := by
  obtain ⟨-, hhigh, hgroup⟩ := hvalid
  have hbound : change.2 ≤ 9223372036854775807 := by omega
  rw [(frame_changeMetadata h.aliases hhigh hbound).2, groupAfterChange]
  split_ifs with hchannel
  · rw [← hchannel, groupNumber_insert_self _ _ hbound]
  · rw [groupNumber_insert_of_ne]
    exact fun hkey => hchannel (channelGroupName_inj.mp hkey).symm

/-- Ports and links leave the metadata as they are. -/
theorem metadata_act {s s' : ManageConnections.OutputLinks.State} {event : SessionEvent Port}
    (h : Session.act Port.portAlias portAdded s event = some s') : s'.metadata = s.metadata := by
  rcases Session.act_cases h with ⟨port, -, -, rfl⟩ | ⟨linkEvent, links, -, -, rfl⟩
  · exact (frame_portAdded s port).2
  · rfl

/-! ## Whole runs -/

theorem mirrored_initial : Mirrored ManageConnections.OutputLinks.initial :=
  ⟨List.nodup_nil, fun _ => rfl⟩

theorem mirrored_act {s s' : ManageConnections.OutputLinks.State} {event : SessionEvent Port}
    (h : Mirrored s) (hmay : LoopersFirst s event)
    (hact : Session.act Port.portAlias portAdded s event = some s') : Mirrored s' := by
  rcases Session.act_cases hact with ⟨port, rfl, hfresh, rfl⟩ |
    ⟨linkEvent, links, -, hlinks, rfl⟩
  · refine mirrored_portAdded h hfresh ?_
    rintro portAlias rfl hloop portId hmem
    cases hmay hloop _ hmem
  · exact ⟨h.aliases, fun portId => (LinkTable.live_step hlinks _).trans (h.links portId)⟩

theorem keeps_mirrored : system.Keeps Change.Valid Mirrored where
  asked request hserved := by
    cases request with
    | other key value => exact hserved.elim
    | _ => exact hserved
  seen session change h hvalid htime := by
    obtain ⟨hlow, hhigh, hgroup⟩ := hvalid
    refine mirrored_changeMetadata h hlow hhigh (by omega) fun portId hchannel link hmem hnear => ?_
    refine htime link hmem ?_
    rw [hnear, channelOfPort, hchannel]
  acted _ _ _ h hmay hact := mirrored_act h hmay hact

/-- With the pending changes, the metadata hold what was asked for last. -/
theorem groups_of_run {labels : List Label} {s : State}
    (run : Run step Orderly initial labels s) (channelId : ℕ) :
    s.pending.foldl (groupAfterChange channelId)
        (groupNumber s.session.metadata (channelGroupName channelId)) =
      (lastGroup s.requests channelId).map fun group : ℕ => (group : ℤ) := by
  refine (keeps_mirrored.value_of_run mirrored_initial
    (fun session => groupNumber session.metadata (channelGroupName channelId))
    (groupAfterChange channelId)
    (fun session change h hvalid => groupNumber_changeMetadata h hvalid channelId)
    (fun session event session' hact => ?_) run).trans (foldl_flatMap_changesOf channelId none _)
  rw [metadata_act hact]

/-- When all changes have been seen and no link is in flight, there are the links that
have been asked for. -/
theorem linkedTo_eq_asked {labels : List Label} {s : State}
    (run : Run step Orderly initial labels s) (hdrained : s.pending = [])
    (hsettled : LinkTable.Settled s.session.links) (portId : UInt32) :
    LinkTable.linkedTo s.session.links (.output portId) = asked s portId := by
  have hgroup := groups_of_run run (channelOf portId)
  rw [hdrained, List.foldl_nil] at hgroup
  rw [LinkTable.linkedTo_eq_live hsettled, (keeps_mirrored.of_run mirrored_initial run).2.links,
    wanted, asked, hgroup]

/-! ## Which looper it is -/

/-- The only inputs with an alias of a looper are the two of each looper. -/
def LooperInputs (ports : List Port) : Prop :=
  ∀ portAlias, .input portAlias ∈ ports →
    startsWith portAlias (lit "sooperlooper:loop") = true →
      ∃ loop port : ℕ, (port = 1 ∨ port = 2) ∧ portAlias = looperPort loop (lit "in_") port

/-- A right output asks for an input 0, and a left one for an input of the looper of
the group before. -/
theorem of_mem_asked {s : State} (hloopers : LooperInputs s.session.ports) {portId : UInt32}
    {target : Port} (h : target ∈ asked s portId) :
    inputNumber portId % 2 = 1 ∧ ∃ group loop : ℕ,
      lastGroup s.requests (channelOf portId) = some group ∧
        (loop : ℤ) = (if inputNumber portId ≤ 32 then (group : ℤ) - 2 else group + 2) ∧
          target = .input (looperPort loop (lit "in_") 1) := by
  rw [asked] at h
  cases hgroup : lastGroup s.requests (channelOf portId) with
  | none =>
      rw [hgroup] at h
      cases h
  | some group =>
      rw [hgroup, Option.map_some, targetOf] at h
      split_ifs at h with hthere
      · obtain rfl := List.mem_singleton.mp h
        obtain ⟨loop, port, hport, halias⟩ := hloopers _ hthere.2
          (startsWith_targetAlias portId group)
        rcases Nat.mod_two_eq_zero_or_one (inputNumber portId) with heven | hodd
        · -- no looper has an input 0
          rw [targetAlias, targetPortAlias_even (by omega), looperPort_inj] at halias
          omega
        · have hleft := halias
          rw [targetAlias, targetPortAlias_odd (by omega), looperPort_inj] at hleft
          obtain ⟨hloop, hone⟩ := hleft
          refine ⟨hodd, group, loop, rfl, ?_, ?_⟩
          · rw [← hloop, looperOffset]
            by_cases hside : inputNumber portId ≤ 32
            · rw [decide_eq_true hside, if_pos hside]
              norm_num
              omega
            · rw [decide_eq_false hside, if_neg hside]
              norm_num
              omega
          · rw [halias, ← hone]
      · cases h

end Pmx.GroupRouting
