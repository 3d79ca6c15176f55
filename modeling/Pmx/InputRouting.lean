import Pmx.GrpcService
import Pmx.Library.Relay
import Pmx.ManageConnections.InputLinks.Mirror

/-!
# From a request to the links

A client asks the gRPC service for a port on a channel, the service writes the
alias into the metadata, and `pmx_manage_connections.lua` sees the change some
time later and links the port to the input.  Ports may come at any time before or
after the request, and links are announced and removed at their own pace.  The
groups of the channels are left out: their values are numbers, and no port has such
an alias.

If each change is seen when the links into its input have been announced, the
links are in the end the ones that were asked for last, and there always is an end
to be reached (`links_of_run`).
-/

namespace Pmx.InputRouting

open Cxx GrpcService ManageConnections Transition

/-- A change of a `channel_port_` key: what follows in the key, and the new value. -/
abbrev Change := Str × Option Str

/-- The changes that a request makes. -/
def changesOf : Request → List Change
  | .setup channelId (some port) _ => [(decimal channelId, some (cStr port))]
  | .clear channelId => [(decimal channelId, none)]
  | _ => []

/-- The requests of the service. -/
def IsServed : Request → Prop
  | .other _ _ => False
  | _ => True

instance : DecidablePred IsServed
  | .other _ _ => isFalse id
  | .setup _ _ _ => isTrue trivial
  | .clear _ => isTrue trivial

/-- The service alone writes the metadata, and a change is seen when all links into
its input have been announced. -/
def system : Relay.System Request Change ManageConnections.State (SessionEvent Port) where
  changesOf := changesOf
  see session change := changeMetadata session (lit "channel_port_" ++ change.1) change.2
  act := Session.act Port.portAlias portAdded
  asks := IsServed
  inTime session change := announcedInTime session (.metadataChanged change.1 change.2)
  may _ _ := True

instance : DecidablePred system.asks :=
  inferInstanceAs (DecidablePred IsServed)

instance (session : ManageConnections.State) : DecidablePred (system.inTime session) :=
  fun change => inferInstanceAs
    (Decidable (announcedInTime session (.metadataChanged change.1 change.2)))

instance (session : ManageConnections.State) : DecidablePred (system.may session) :=
  fun _ => inferInstanceAs (Decidable True)

/-- The session is the one of the hooks for the inputs. -/
abbrev State := Relay.State Request Change ManageConnections.State

/-- A request, a change that the script sees, or an event of its session. -/
abbrev Label := Relay.Label Request (SessionEvent Port)

/-- No request and no port has come. -/
def initial : State :=
  Relay.initial ManageConnections.initial

/-- One step of the service, of the script or of its session. -/
abbrev step : State → Label → Option State :=
  system.step

/-- The condition on a step. -/
abbrev Orderly : State → Label → Prop :=
  system.Orderly

/-- The source that was asked for last, when both ports exist. -/
def asked (s : State) (portId : UInt32) : List Port :=
  sourceOf s.session.ports portId ((lastPort s.requests (inputNumber portId)).map cStr)

/-! ## The metadata follow the requests -/

/-- The value of a channel after a change. -/
def valueAfter (channelId : ℕ) (value : Option Str) (change : Change) : Option Str :=
  if change.1 = decimal channelId then change.2 else value

/-- A request changes the value of its channel to the port it asks for. -/
theorem foldl_changesOf (channelId : ℕ) (port : Option Str) (request : Request) :
    (changesOf request).foldl (valueAfter channelId) (port.map cStr) =
      (portAfter channelId port request).map cStr := by
  cases request with
  | setup other new group =>
      cases new with
      | none => rfl
      | some new =>
          by_cases hother : other = channelId
          · simp [valueAfter, changesOf, portAfter, hother]
          · simp [valueAfter, changesOf, portAfter, hother, decimal_injective.eq_iff]
  | clear other =>
      by_cases hother : other = channelId
      · simp [valueAfter, changesOf, portAfter, hother]
      · simp [valueAfter, changesOf, portAfter, hother, decimal_injective.eq_iff]
  | other key value => rfl

theorem foldl_flatMap_changesOf (channelId : ℕ) (port : Option Str) (requests : List Request) :
    (requests.flatMap changesOf).foldl (valueAfter channelId) (port.map cStr) =
      (requests.foldl (portAfter channelId) port).map cStr := by
  induction requests generalizing port with
  | nil => rfl
  | cons request rest ih =>
      rw [List.flatMap_cons, List.foldl_append, foldl_changesOf, ih]
      rfl

theorem lookup_changeMetadata (s : ManageConnections.State) (change : Change) (channelId : ℕ) :
    (changeMetadata s (lit "channel_port_" ++ change.1) change.2).metadata.lookup
        (channelPortName channelId) =
      valueAfter channelId (s.metadata.lookup (channelPortName channelId)) change := by
  rw [changeMetadata, watch_metadata, channelPortName_natCast, valueAfter]
  split_ifs with hchannel
  · rw [hchannel]
    exact setMetadata_lookup_self ..
  · refine setMetadata_lookup_of_ne _ (fun hkey => hchannel ?_) _
    exact (List.append_cancel_left hkey).symm

/-- Ports and links leave the metadata as they are. -/
theorem metadata_act {s s' : ManageConnections.State} {event : SessionEvent Port}
    (h : Session.act Port.portAlias portAdded s event = some s') : s'.metadata = s.metadata := by
  rcases Session.act_cases h with ⟨port, -, -, rfl⟩ | ⟨linkEvent, links, -, -, rfl⟩
  · exact (frame_portAdded s port).2
  · rfl

theorem keeps_mirrored :
    system.Keeps (fun change => IsNumeral change.1) ManageConnections.Mirrored where
  asked request _ change hmem := by
    have hnumeral : ∀ n, IsNumeral (decimal n) := fun n => by
      rw [IsNumeral, natOfDigits_decimal]
    have hmem : change ∈ changesOf request := hmem
    unfold changesOf at hmem
    split at hmem
    · rw [List.mem_singleton.mp hmem]
      exact hnumeral _
    · rw [List.mem_singleton.mp hmem]
      exact hnumeral _
    · exact absurd hmem List.not_mem_nil
  seen _ _ h _ htime := mirrored_changeMetadata h htime
  acted _ _ _ h _ hact := mirrored_act h hact

/-- With the pending changes, the metadata hold what was asked for last. -/
theorem metadata_of_run {labels : List Label} {s : State}
    (run : Run step Orderly initial labels s) (channelId : ℕ) :
    s.pending.foldl (valueAfter channelId)
        (s.session.metadata.lookup (channelPortName channelId)) =
      (lastPort s.requests channelId).map cStr := by
  refine (keeps_mirrored.value_of_run mirrored_initial
    (fun session => session.metadata.lookup (channelPortName channelId)) (valueAfter channelId)
    (fun session change _ _ => lookup_changeMetadata session change channelId)
    (fun session event session' hact => ?_) run).trans (foldl_flatMap_changesOf channelId none _)
  rw [metadata_act hact]

/-- When all changes have been seen and no link is in flight, there are the links that have
been asked for. -/
theorem linksInto_eq_asked {labels : List Label} {s : State}
    (run : Run step Orderly initial labels s) (hdrained : s.pending = [])
    (hsettled : s.session.Settled) (portId : UInt32) :
    linksInto s.session portId = asked s portId := by
  have hmetadata := metadata_of_run run (inputNumber portId)
  rw [hdrained, List.foldl_nil] at hmetadata
  calc linksInto s.session portId
      = live s.session portId := linksInto_eq_live hsettled portId
    _ = wanted s.session portId := (keeps_mirrored.of_run mirrored_initial run).2.links portId
    _ = asked s portId := by rw [wanted, asked, hmetadata]

end Pmx.InputRouting
