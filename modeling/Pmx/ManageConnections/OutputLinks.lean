import Pmx.ManageConnections
import Pmx.ManageConnections.InputLinks

/-!
# Links out of the input channels

`pmx_manage_connections.lua` links the outputs of the input channels to the loopers of
their groups: when an output is added, and when the group of a channel changes.  A
change concerns the two outputs of the channel, one on each side; the links out of them
are destroyed as far as they can be seen, and then there is one link from each, if the
looper has the input that is asked for.

No hook waits for a looper.  The script counts on the loopers being there before the
input channels; then the live links mirror the metadata (`Mirrored`), whatever comes
after (`mirrored_portAdded`, `mirrored_changeMetadata`).

The links of other hooks and of other programs are left out.
-/

namespace Pmx.ManageConnections.OutputLinks

open Cxx Lua

/-! ## Ports -/

/-- An output of the node `PMX Input Channels`, by its `port.id`, or an input of
another node. -/
inductive Port
  | output (portId : UInt32)
  | input (portAlias : Str)
  deriving DecidableEq

/-- `port.direction`. -/
def Port.direction : Port → Direction
  | .output _ => .output
  | .input _ => .input

/-- The alias of the output with a number, which is written as a text. -/
def outputAlias (outputId : Str) : Str :=
  lit "PMX Input Channels:output_" ++ outputId

/-- `port.alias`.  The outputs are numbered like the inputs. -/
def Port.portAlias : Port → Str
  | .output portId => outputAlias (tostring (inputNumber portId))
  | .input portAlias => portAlias

/-- `MyObjectManager:lookup` of a port by its alias, with or without a constraint
on its direction. -/
abbrev lookup : List Port → Option Direction → Str → Option Port :=
  lookupPort Port.direction Port.portAlias

/-! ## The script -/

/-- The near end of a link is its output. -/
abbrev State := Session Port

/-- No port has come. -/
def initial : State :=
  Session.initial

/-- `Link(..)` and `link:activate(1)`. -/
def createLink (s : State) (output input : Port) : State :=
  { s with links := LinkTable.create s.links output input }

/-- `request_destroy` of the links out of a port that the object manager sees. -/
def destroyLinks (s : State) (port : Port) : State :=
  { s with links := LinkTable.destroyAt s.links port }

/-- The number under a key; the alias with a float is none of a looper. -/
def groupNumber (metadata : AList fun _ : Str => Str) (key : Str) : Option ℤ :=
  match (metadata.lookup key).bind tonumber with
  | some (.integer group) => some group
  | _ => none

/-- The hook for an output of the filter chain.  It ends in an error where the group is
no number. -/
def connectInitialGroupInputs (s : State) (portId : UInt32) : State :=
  match (ManageConnections.connectInitialGroupInputs (groupNumber s.metadata) portId.toNat).bind
      (lookup s.ports (some .input)) with
  | some targetPort => createLink s (.output portId) targetPort
  | none => s

/-- `update_group_assignment`, with the state in which an error leaves it. -/
def updateGroupAssignment (s : State) (sourceInputId : ℤ) (groupId : Option Number)
    (groupA : Bool) : Except State State :=
  match lookup s.ports none (outputAlias (tostring sourceInputId)) with
  | none => .ok s
  | some sourcePort =>
      match groupId with
      -- arithmetic on `nil` raises, and the links are gone by then
      | none => .error (destroyLinks s sourcePort)
      | some .float => .ok (destroyLinks s sourcePort)
      | some (.integer group) =>
          match lookup s.ports (some .input)
              (ManageConnections.updateGroupAssignment sourceInputId group groupA).2 with
          | some targetPort => .ok (createLink (destroyLinks s sourcePort) sourcePort targetPort)
          | none => .ok (destroyLinks s sourcePort)

/-- The hook for a new value of a channel. -/
def watchChannelGroupMappingMetadata (s : State) (key : Str) (newValue : Option Str) : State :=
  match tonumber (sub key 15) with
  | some (.integer groupAInputId) =>
      match updateGroupAssignment s groupAInputId (newValue.bind tonumber) true with
      | .error s => s
      | .ok s =>
          match updateGroupAssignment s (wrap64 (32 + groupAInputId)) (newValue.bind tonumber)
              false with
          | .error s => s
          | .ok s => s
  | _ => s

/-- The hooks for a new port. -/
def portAdded (s : State) : Port → State
  | .output portId =>
      connectInitialGroupInputs { s with ports := s.ports ++ [.output portId] } portId
  | .input portAlias => { s with ports := s.ports ++ [.input portAlias] }

/-- The key of the group of a channel. -/
def channelGroupName (channel : ℕ) : Str :=
  lit "channel_group_" ++ decimal channel

/-- The metadata hold the new group when the hook runs. -/
def changeMetadata (s : State) (channel group : ℕ) : State :=
  watchChannelGroupMappingMetadata
    { s with metadata := s.metadata.insert (channelGroupName channel) (decimal group) }
    (channelGroupName channel) (some (decimal group))

/-! ## What is wanted -/

/-- The channel of an output: side A has the first 32. -/
def channelOf (portId : UInt32) : ℕ :=
  if inputNumber portId ≤ 32 then inputNumber portId else inputNumber portId - 32

/-- The alias that an output of a group asks for. -/
def targetAlias (portId : UInt32) (group : ℤ) : Str :=
  targetPortAlias (looperOffset (decide (inputNumber portId ≤ 32)))
    (targetPortId group (inputNumber portId))

/-- The input that an output has for a group, when both ports exist. -/
def targetOf (ports : List Port) (portId : UInt32) (group : Option ℤ) : List Port :=
  match group with
  | some group =>
      if .output portId ∈ ports ∧ .input (targetAlias portId group) ∈ ports then
        [.input (targetAlias portId group)]
      else []
  | none => []

/-- The input that an output has according to the metadata. -/
def wanted (s : State) (portId : UInt32) : List Port :=
  targetOf s.ports portId (groupNumber s.metadata (channelGroupName (channelOf portId)))

/-- The key that the hook for an output looks up is the one of its channel. -/
theorem metaKey_eq (portId : UInt32) :
    metaKey (portId.toNat + 1) = channelGroupName (channelOf portId) := by
  have hkey : (if (32 : ℤ) < portId.toNat + 1 then (portId.toNat : ℤ) + 1 - 32
      else portId.toNat + 1) = channelOf portId := by
    rw [channelOf, inputNumber]
    split_ifs <;> omega
  rw [metaKey, hkey, tostring_natCast, channelGroupName]

theorem connectInitialGroupInputs_eq (find : Str → Option ℤ) (portId : UInt32) :
    ManageConnections.connectInitialGroupInputs find portId.toNat =
      (find (channelGroupName (channelOf portId))).map (targetAlias portId) := by
  have hside : (!decide ((32 : ℤ) < portId.toNat + 1)) = decide (inputNumber portId ≤ 32) := by
    rw [← decide_not, decide_eq_decide, inputNumber]
    omega
  rw [ManageConnections.connectInitialGroupInputs, hside, metaKey_eq]
  rfl

/-! ## Lookups -/

section Lookups

variable {ports : List Port} (hnodup : (ports.map Port.portAlias).Nodup)
include hnodup

theorem lookup_input {portAlias : Str} {port : Port} :
    lookup ports (some .input) portAlias = some port ↔
      port = .input portAlias ∧ .input portAlias ∈ ports := by
  rw [lookupPort_eq_some_iff hnodup]
  constructor
  · rintro ⟨hmem, halias, hdirection⟩
    cases port with
    | output portId => simp [Port.direction] at hdirection
    | input found =>
        obtain rfl : found = portAlias := halias
        exact ⟨rfl, hmem⟩
  · rintro ⟨rfl, hmem⟩
    exact ⟨hmem, rfl, rfl⟩

theorem toList_lookup_input (portAlias : Str) :
    (lookup ports (some .input) portAlias).toList =
      if .input portAlias ∈ ports then [.input portAlias] else [] := by
  split_ifs with hmem
  · rw [(lookup_input hnodup).mpr ⟨rfl, hmem⟩]
    rfl
  · cases hfind : lookup ports (some .input) portAlias with
    | none => rfl
    | some port => exact absurd ((lookup_input hnodup).mp hfind).2 hmem

/-- The lookup of an output by its number. -/
theorem lookup_output {portId : UInt32} (hmem : .output portId ∈ ports) :
    lookup ports none (outputAlias (tostring (inputNumber portId))) = some (.output portId) :=
  (lookupPort_eq_some_iff hnodup).mpr ⟨hmem, rfl, rfl⟩

end Lookups

theorem outputAlias_inj {m n : ℕ} :
    outputAlias (tostring m) = outputAlias (tostring n) ↔ m = n := by
  rw [outputAlias, outputAlias, List.append_cancel_left_eq, tostring_injective.eq_iff, Nat.cast_inj]

/-! ## One call -/

/-- What a call for the output with a number does to the links. -/
structure Assigned (s : State) (outputId : ℕ) (targetPort : Option Port) (s' : State) : Prop where
  ports : s'.ports = s.ports
  metadata : s'.metadata = s.metadata
  self : ∀ portId, .output portId ∈ s.ports → inputNumber portId = outputId →
    LinkTable.AllAnnounced s.links (.output portId) →
      LinkTable.live s'.links (.output portId) = targetPort.toList
  other : ∀ portId, (.output portId ∉ s.ports ∨ inputNumber portId ≠ outputId) →
    LinkTable.live s'.links (.output portId) = LinkTable.live s.links (.output portId)
  announced : ∀ portId, inputNumber portId ≠ outputId →
    LinkTable.AllAnnounced s.links (.output portId) →
      LinkTable.AllAnnounced s'.links (.output portId)

theorem assigned_updateGroupAssignment {s : State} (hnodup : (s.ports.map Port.portAlias).Nodup)
    (outputId : ℕ) (group : ℤ) (groupA : Bool) :
    ∃ s', updateGroupAssignment s outputId (some (.integer group)) groupA = .ok s' ∧
      Assigned s outputId (lookup s.ports (some .input)
        (targetPortAlias (looperOffset groupA) (targetPortId group outputId))) s' := by
  have hoffset : (ManageConnections.updateGroupAssignment outputId group groupA).2 =
      targetPortAlias (looperOffset groupA) (targetPortId group outputId) := rfl
  simp only [updateGroupAssignment, hoffset]
  cases hsource : lookup s.ports none (outputAlias (tostring outputId)) with
  | none =>
      refine ⟨s, rfl, rfl, rfl, fun portId hmem hnumber _ => ?_, fun _ _ => rfl, fun _ _ h => h⟩
      rw [← hnumber, lookup_output hnodup hmem] at hsource
      cases hsource
  | some sourcePort =>
      obtain ⟨hmem, halias, -⟩ := (lookupPort_eq_some_iff hnodup).mp hsource
      have hself : ∀ portId, .output portId ∈ s.ports → inputNumber portId = outputId →
          sourcePort = .output portId := fun portId hport hnumber =>
        Option.some.inj (hsource.symm.trans (hnumber ▸ lookup_output hnodup hport))
      have hother : ∀ portId, (.output portId ∉ s.ports ∨ inputNumber portId ≠ outputId) →
          sourcePort ≠ .output portId := by
        rintro portId hportId rfl
        exact hportId.elim (fun hport => hport hmem) fun hnumber =>
          hnumber (outputAlias_inj.mp halias)
      cases htarget : lookup s.ports (some .input)
          (targetPortAlias (looperOffset groupA) (targetPortId group outputId)) with
      | none =>
          refine ⟨_, rfl, rfl, rfl, fun portId hport hnumber hall => ?_, fun portId hportId => ?_,
            fun portId _ hall => LinkTable.allAnnounced_destroyAt hall _⟩
          · rw [hself portId hport hnumber]
            exact LinkTable.live_destroyAt_self hall
          · exact LinkTable.live_destroyAt_of_ne _ (hother portId hportId)
      | some targetPort =>
          refine ⟨_, rfl, rfl, rfl, fun portId hport hnumber hall => ?_, fun portId hportId => ?_,
            fun portId hnumber hall => LinkTable.allAnnounced_create
              (LinkTable.allAnnounced_destroyAt hall _) (hother portId (Or.inr hnumber)) _⟩
          · rw [hself portId hport hnumber]
            refine (LinkTable.live_create ..).trans ?_
            rw [if_pos rfl]
            exact congrArg (· ++ [targetPort]) (LinkTable.live_destroyAt_self hall)
          · refine (LinkTable.live_create ..).trans ?_
            rw [if_neg (hother portId hportId), List.append_nil]
            exact LinkTable.live_destroyAt_of_ne _ (hother portId hportId)

/-! ## The invariant -/

/-- The live links mirror the metadata. -/
structure Mirrored (s : State) : Prop where
  aliases : (s.ports.map Port.portAlias).Nodup
  links : ∀ portId, LinkTable.live s.links (.output portId) = wanted s portId

theorem targetOf_eq_nil {ports : List Port} {portId : UInt32} (h : .output portId ∉ ports)
    (group : Option ℤ) : targetOf ports portId group = [] := by
  cases group with
  | none => rfl
  | some group => exact if_neg fun hboth => h hboth.1

/-- The target of an output that is there. -/
theorem targetOf_of_mem {ports : List Port} (hnodup : (ports.map Port.portAlias).Nodup)
    {portId : UInt32} (hmem : .output portId ∈ ports) (group : ℤ) :
    targetOf ports portId (some group) =
      (lookup ports (some .input) (targetAlias portId group)).toList := by
  rw [toList_lookup_input hnodup]
  exact if_congr (and_iff_right hmem) rfl rfl

/-- The alias of an input that an output may ask for. -/
theorem startsWith_targetAlias (portId : UInt32) (group : ℤ) :
    startsWith (targetAlias portId group) (lit "sooperlooper:loop") = true := by
  rw [targetAlias, targetPortAlias, List.append_assoc]
  exact startsWith_append ..

theorem targetOf_portAdded {ports : List Port} {port : Port} {portId : UInt32}
    (houtput : port ≠ .output portId)
    (hinput : ∀ portAlias, port = .input portAlias →
      startsWith portAlias (lit "sooperlooper:loop") = true → .output portId ∉ ports)
    (group : Option ℤ) : targetOf (ports ++ [port]) portId group = targetOf ports portId group := by
  cases group with
  | none => rfl
  | some group =>
      refine if_congr ?_ rfl rfl
      simp only [List.mem_append, List.mem_singleton]
      constructor
      · rintro ⟨hport | heq, htarget | rfl⟩
        · exact ⟨hport, htarget⟩
        · exact absurd hport (hinput _ rfl (startsWith_targetAlias portId group))
        · exact absurd heq.symm houtput
        · exact absurd heq.symm houtput
      · exact fun h => ⟨Or.inl h.1, Or.inl h.2⟩

/-- The hook links the new output only. -/
theorem live_connectInitialGroupInputs {s : State} (hnodup : (s.ports.map Port.portAlias).Nodup)
    {added : UInt32} (hmem : .output added ∈ s.ports) (portId : UInt32) :
    LinkTable.live (connectInitialGroupInputs s added).links (.output portId) =
      LinkTable.live s.links (.output portId) ++ if portId = added then wanted s added else [] := by
  have hwanted : wanted s added =
      ((ManageConnections.connectInitialGroupInputs (groupNumber s.metadata) added.toNat).bind
        (lookup s.ports (some .input))).toList := by
    rw [wanted, connectInitialGroupInputs_eq]
    cases groupNumber s.metadata (channelGroupName (channelOf added)) with
    | none => rfl
    | some group => exact targetOf_of_mem hnodup hmem group
  rw [hwanted, connectInitialGroupInputs]
  cases (ManageConnections.connectInitialGroupInputs (groupNumber s.metadata) added.toNat).bind
      (lookup s.ports (some .input)) with
  | none => rw [Option.toList_none, ite_self, List.append_nil]
  | some targetPort =>
      refine (LinkTable.live_create ..).trans (congrArg _ (if_congr ?_ rfl rfl))
      exact ⟨fun heq => (Port.output.inj heq).symm, fun heq => heq ▸ rfl⟩

/-- A new port is entered, and no hook touches the metadata. -/
theorem frame_portAdded (s : State) (port : Port) :
    (portAdded s port).ports = s.ports ++ [port] ∧ (portAdded s port).metadata = s.metadata := by
  cases port with
  | input portAlias => exact ⟨rfl, rfl⟩
  | output portId =>
      simp only [portAdded, connectInitialGroupInputs]
      split <;> exact ⟨rfl, rfl⟩

/-- A new port, with the loopers there before the input channels. -/
theorem mirrored_portAdded {s : State} (h : Mirrored s) {port : Port}
    (hfresh : port.portAlias ∉ s.ports.map Port.portAlias)
    (hfirst : ∀ portAlias, port = .input portAlias →
      startsWith portAlias (lit "sooperlooper:loop") = true →
        ∀ portId, .output portId ∉ s.ports) :
    Mirrored (portAdded s port) := by
  obtain ⟨hports, hmetadata⟩ := frame_portAdded s port
  have hnodup := nodup_append_alias h.aliases hfresh
  refine ⟨by rw [hports]; exact hnodup, fun portId => ?_⟩
  have hother : port ≠ .output portId →
      targetOf (s.ports ++ [port]) portId (groupNumber s.metadata
        (channelGroupName (channelOf portId))) = wanted s portId := fun hne =>
    targetOf_portAdded hne (fun portAlias hport hloop => hfirst portAlias hport hloop portId) _
  rw [wanted, hports, hmetadata]
  cases port with
  | input portAlias => exact (h.links portId).trans (hother (by simp)).symm
  | output added =>
      refine (live_connectInitialGroupInputs hnodup (by simp) portId).trans ?_
      by_cases hportId : portId = added
      · -- there was no link from the output yet
        subst hportId
        have hnew : .output portId ∉ s.ports := fun hmem => hfresh (List.mem_map_of_mem hmem)
        have hbefore : LinkTable.live s.links (.output portId) = [] :=
          (h.links portId).trans (targetOf_eq_nil hnew _)
        rw [if_pos rfl]
        exact congrArg (· ++ _) hbefore
      · rw [if_neg hportId, List.append_nil,
          hother fun heq => hportId (Port.output.inj heq).symm]
        exact h.links portId

/-! ## A new group -/

theorem groupNumber_insert_self (metadata : AList fun _ : Str => Str) (key : Str) {group : ℕ}
    (hgroup : group ≤ 9223372036854775807) :
    groupNumber (metadata.insert key (decimal group)) key = some (group : ℤ) := by
  rw [groupNumber, AList.lookup_insert, Option.bind_some, tonumber_decimal, if_pos hgroup]

theorem groupNumber_insert_of_ne (metadata : AList fun _ : Str => Str) {key other : Str}
    (hne : other ≠ key) (value : Str) :
    groupNumber (metadata.insert key value) other = groupNumber metadata other := by
  rw [groupNumber, AList.lookup_insert_ne hne]
  rfl

theorem channelGroupName_inj {m n : ℕ} : channelGroupName m = channelGroupName n ↔ m = n := by
  rw [channelGroupName, channelGroupName, List.append_cancel_left_eq, decimal_injective.eq_iff]

/-- The hook for a channel makes two calls, one for the output on each side. -/
theorem assigned_changeMetadata {s : State} (hnodup : (s.ports.map Port.portAlias).Nodup)
    {channel group : ℕ} (hchannel : channel ≤ 32) (hgroup : group ≤ 9223372036854775807) :
    ∃ s₁,
      Assigned
        { s with metadata := s.metadata.insert (channelGroupName channel) (decimal group) } channel
        (lookup s.ports (some .input)
          (targetPortAlias (looperOffset true) (targetPortId group channel))) s₁ ∧
      Assigned s₁ (32 + channel)
        (lookup s.ports (some .input)
          (targetPortAlias (looperOffset false) (targetPortId group (32 + channel : ℕ))))
        (changeMetadata s channel group) := by
  have hsub : sub (channelGroupName channel) 15 = decimal channel :=
    sub_append (lit "channel_group_") _
  have hwrap : wrap64 (32 + channel) = (32 + channel : ℕ) := by
    unfold wrap64
    omega
  have hinteger : channel ≤ 9223372036854775807 := by omega
  obtain ⟨s₁, hfirst, h₁⟩ := assigned_updateGroupAssignment
    (s := { s with metadata := s.metadata.insert (channelGroupName channel) (decimal group) })
    hnodup channel group true
  obtain ⟨s₂, hsecond, h₂⟩ := assigned_updateGroupAssignment
    (by rw [h₁.ports]; exact hnodup) (32 + channel) group false
  have hboth : changeMetadata s channel group = s₂ := by
    simp only [changeMetadata, watchChannelGroupMappingMetadata, hsub, tonumber_decimal,
      if_pos hinteger, if_pos hgroup, Option.bind_some, hfirst, hwrap, hsecond]
  rw [h₁.ports] at h₂
  exact ⟨s₁, h₁, hboth ▸ h₂⟩

/-- The hook leaves the ports and the metadata alone. -/
theorem frame_changeMetadata {s : State} (hnodup : (s.ports.map Port.portAlias).Nodup)
    {channel group : ℕ} (hchannel : channel ≤ 32) (hgroup : group ≤ 9223372036854775807) :
    (changeMetadata s channel group).ports = s.ports ∧
      (changeMetadata s channel group).metadata =
        s.metadata.insert (channelGroupName channel) (decimal group) := by
  obtain ⟨s₁, h₁, h₂⟩ := assigned_changeMetadata hnodup hchannel hgroup
  exact ⟨h₂.ports.trans h₁.ports, h₂.metadata.trans h₁.metadata⟩

/-- The outputs of other channels keep their links. -/
theorem live_changeMetadata_of_ne {s : State} (hnodup : (s.ports.map Port.portAlias).Nodup)
    {channel group : ℕ} (hlow : 1 ≤ channel) (hhigh : channel ≤ 32)
    (hgroup : group ≤ 9223372036854775807) {portId : UInt32}
    (hother : .output portId ∉ s.ports ∨ channelOf portId ≠ channel) :
    LinkTable.live (changeMetadata s channel group).links (.output portId) =
      LinkTable.live s.links (.output portId) := by
  obtain ⟨s₁, h₁, h₂⟩ := assigned_changeMetadata hnodup hhigh hgroup
  rcases hother with hmem | hne
  · rw [h₂.other portId (Or.inl (by rw [h₁.ports]; exact hmem)), h₁.other portId (Or.inl hmem)]
  · have hnumber : inputNumber portId ≠ channel ∧ inputNumber portId ≠ 32 + channel := by
      rw [channelOf] at hne
      split_ifs at hne with hside <;> omega
    rw [h₂.other portId (Or.inr hnumber.2), h₁.other portId (Or.inr hnumber.1)]

/-- An output of the channel is linked to the input of its side. -/
theorem live_changeMetadata_self {s : State} (hnodup : (s.ports.map Port.portAlias).Nodup)
    {channel group : ℕ} (hhigh : channel ≤ 32) (hgroup : group ≤ 9223372036854775807)
    {portId : UInt32} (hmem : .output portId ∈ s.ports)
    (hchannel : channelOf portId = channel)
    (hannounced : LinkTable.AllAnnounced s.links (.output portId)) :
    LinkTable.live (changeMetadata s channel group).links (.output portId) =
      (lookup s.ports (some .input) (targetAlias portId group)).toList := by
  obtain ⟨s₁, h₁, h₂⟩ := assigned_changeMetadata hnodup hhigh hgroup
  rw [channelOf] at hchannel
  by_cases hside : inputNumber portId ≤ 32
  · -- the output on side A is the one of the first call
    have hself : inputNumber portId = channel := by rwa [if_pos hside] at hchannel
    rw [h₂.other portId (Or.inr (by omega)), h₁.self portId hmem hself hannounced, targetAlias,
      decide_eq_true hside, hself]
  · have hself : inputNumber portId = 32 + channel := by
      rw [if_neg hside] at hchannel
      omega
    rw [h₂.self portId (by rw [h₁.ports]; exact hmem) hself
      (h₁.announced portId (by omega) hannounced), targetAlias, decide_eq_false hside, hself]

/-- A new group for a channel, when the links out of its outputs can be seen. -/
theorem mirrored_changeMetadata {s : State} (h : Mirrored s) {channel group : ℕ}
    (hlow : 1 ≤ channel) (hhigh : channel ≤ 32) (hgroup : group ≤ 9223372036854775807)
    (hannounced : ∀ portId, channelOf portId = channel →
      LinkTable.AllAnnounced s.links (.output portId)) :
    Mirrored (changeMetadata s channel group) := by
  obtain ⟨hports, hmetadata⟩ := frame_changeMetadata h.aliases hhigh hgroup
  refine ⟨by rw [hports]; exact h.aliases, fun portId => ?_⟩
  rw [wanted, hports, hmetadata]
  by_cases hmem : .output portId ∈ s.ports
  · by_cases hchannel : channelOf portId = channel
    · rw [live_changeMetadata_self h.aliases hhigh hgroup hmem hchannel
        (hannounced portId hchannel), hchannel, groupNumber_insert_self _ _ hgroup,
        targetOf_of_mem h.aliases hmem]
    · rw [live_changeMetadata_of_ne h.aliases hlow hhigh hgroup (Or.inr hchannel),
        groupNumber_insert_of_ne _ (mt channelGroupName_inj.mp hchannel)]
      exact h.links portId
  · -- an output that is not there has no links and asks for none
    have hnil : wanted s portId = [] := targetOf_eq_nil hmem _
    rw [live_changeMetadata_of_ne h.aliases hlow hhigh hgroup (Or.inl hmem), targetOf_eq_nil hmem]
    exact (h.links portId).trans hnil

end Pmx.ManageConnections.OutputLinks
