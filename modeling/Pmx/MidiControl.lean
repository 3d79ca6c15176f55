import Pmx.FilterChainCtrl.Feed
import Pmx.FilterChainCtrl.Names
import Pmx.MidiRouter.Routable

/-!
# From the MIDI controllers to the plugins

`pmx-midi-router` publishes the controls it routes as OSC messages, and
`pmx-filter-chain-ctrl` reads them in the same cycle, sixteen at most, and sets
the controls of the plugins.  A step of the whole is a step of one of the four
threads.

Every control that is routed to a parameter becomes one call of
`set_props_param`, in the order of routing, as long as a cycle routes no more than
sixteen controls, the chains are known, the queue has room and each `pop` finds a
single message.  A plugin control then has the value of the last MIDI message for it,
whatever the two groups of threads do in between (`calls_of_run`).
-/

namespace Pmx.MidiControl

open Agreement Cxx FilterChainCtrl FilterGraph MidiRouter Osc PodBuilder Transition

variable {Client : Type}

/-- `packets` are those of the cycle that the packet loop has not come to, and
`routed` all controls that the router has routed. -/
structure State (Client : Type) where
  router : MidiRouter.State
  packets : List OscMessage
  chains : FilterChainCtrl.State Client
  routed : List Routed

/-- Nothing has been routed. -/
def initial (Client : Type) (parameters : List (Str × PropertyValue)) : State Client :=
  ⟨MidiRouter.initial initialState, [], FilterChainCtrl.initial Client parameters, []⟩

/-- A step of the router, the next packet coming to the chains, or a step of the chains. -/
inductive Label
  | router (label : MidiRouter.Label)
  | packet
  | chains (label : FilterChainCtrl.Label)

/-- What a step of the router publishes, if it publishes. -/
def routedBy (s : MidiRouter.State) : MidiRouter.Label → Option (List Routed)
  | .cycle =>
      match s.cycle with
      | .ready buffers state => some (process state buffers).routed
      | _ => none
  | _ => none

/-- The router publishes when the packet loop is through with the last cycle. -/
def step (parseOsc : ParseOsc) (maxsize : ℕ) (client : ℤ → Option Client) (s : State Client) :
    Label → Option (State Client)
  | .router label =>
      match routedBy s.router label with
      | none => (MidiRouter.step s.router label).map fun router => { s with router }
      | some routed =>
          if s.packets.isEmpty then
            (MidiRouter.step s.router label).map fun router => { s with
              router
              packets := packetsOf (parseOsc (published maxsize routed))
              routed := s.routed ++ routed }
          else none
  | .packet =>
      match s.packets with
      | packet :: rest =>
          (FilterChainCtrl.step client s.chains (.packet packet)).map fun chains =>
            { s with chains, packets := rest }
      | [] => none
  | .chains (.packet _) => none
  | .chains label =>
      (FilterChainCtrl.step client s.chains label).map fun chains => { s with chains }

/-! ## What is wanted -/

/-- The clients of the chains that the router has controls for. -/
structure Chains (Client : Type) where
  inputChannels : Client
  groupChannelsA : Client
  groupChannelsB : Client

/-- The chain with the control that a path stands for. -/
def Chains.clientOf (chains : Chains Client) (path : OscPath) : Client :=
  match path.channelType with
  | .group =>
      match path.layer with
      | .A => chains.groupChannelsA
      | .B => chains.groupChannelsB
  | _ => chains.inputChannels

/-- The chains have different clients. -/
structure Chains.Distinct (chains : Chains Client) : Prop where
  inputA : chains.inputChannels ≠ chains.groupChannelsA
  inputB : chains.inputChannels ≠ chains.groupChannelsB
  groups : chains.groupChannelsA ≠ chains.groupChannelsB

/-- The three chains are known by their node parameters. -/
structure Chains.Known (chains : Chains Client) (client : ℤ → Option Client)
    (parameters : List (Str × PropertyValue)) : Prop where
  inputChannels : Holds client parameters (lit "inputChannels") chains.inputChannels
  groupChannelsA : Holds client parameters (lit "groupChannelsA") chains.groupChannelsA
  groupChannelsB : Holds client parameters (lit "groupChannelsB") chains.groupChannelsB

/-- The name of a control in its chain. -/
def controlName (path : OscPath) : Str :=
  let label :=
    match path.channelType with
    | .group => lit "G" ++ decimal path.channelId
    | _ => decimal (channelIndex path)
  node path.parameter.deviceName label ++ ':'.toUInt8 :: path.parameter.name

/-- The control that a routed control is for. -/
def pathOf (layer : Layer) (routed : Routed) : OscPath :=
  ⟨routed.channel.toNat, routed.channelType, layer, routed.parameter⟩

/-- The call that a routed control asks for: none without a parameter. -/
def wantedCall (chains : Chains Client) (routed : Routed) : Option (SetPropsParam Client) :=
  if routed.parameter.id = 0 then none
  else (layerOfText routed.layer).map fun layer =>
    ⟨chains.clientOf (pathOf layer routed), controlName (pathOf layer routed),
      Parameters.interpolate routed.parameter routed.controlValue⟩

/-- A parameter of one of the 32 input channels or the eight groups. -/
structure IsControl (path : OscPath) : Prop where
  mem : path.parameter ∈ Parameters.all
  known : path.parameter.id ≠ 0
  channel : (path.channelType = .input ∧ 1 ≤ path.channelId ∧ path.channelId ≤ 16) ∨
    (path.channelType = .group ∧ 1 ≤ path.channelId ∧ path.channelId ≤ 4)

/-- A routed control is for the control of a path. -/
def IsFor (path : OscPath) (routed : Routed) : Prop :=
  routed.channelType = path.channelType ∧ routed.layer = path.layer.text ∧
    routed.channel.toNat = path.channelId ∧ routed.parameter.id = path.parameter.id

instance (path : OscPath) : DecidablePred (IsFor path) := fun routed =>
  inferInstanceAs (Decidable (routed.channelType = path.channelType ∧
    routed.layer = path.layer.text ∧ routed.channel.toNat = path.channelId ∧
    routed.parameter.id = path.parameter.id))

/-- The last controller value routed to a control. -/
def lastRouted (path : OscPath) (routed : List Routed) : Option UInt32 :=
  (routed.reverse.find? fun r => IsFor path r).map Routed.controlValue

/-- Nothing gets lost: a cycle routes no more controls than the packet loop reads, an
accepted packet finds its chain known and room in the queue, and each `pop` finds a
single message. -/
def Reliable (chains : Chains Client) (client : ℤ → Option Client) (s : State Client) :
    Label → Prop
  | .router label => MidiRouter.SinglePop s.router label ∧
      ∀ routed, routedBy s.router label = some routed → routed.length ≤ 16
  | .packet => chains.Known client s.chains.parameters ∧
      ∀ packet, s.packets.head? = some packet → RoomForAccepted s.chains (.packet packet)
  | .chains label => FilterChainCtrl.SinglePop s.chains label

/-! ## The names of the controls -/

theorem colon_not_mem {device label : Str} (hdevice : device ∈ devices)
    (hlabel : ':'.toUInt8 ∉ label) : ':'.toUInt8 ∉ node device label := by
  have hall : ∀ device ∈ devices, ':'.toUInt8 ∉ device := by decide
  intro hmem
  rw [node, List.mem_append, List.mem_cons] at hmem
  rcases hmem with hmem | hmem | hmem
  · exact hall device hdevice hmem
  · revert hmem
    decide
  · exact hlabel hmem

theorem colon_not_mem_group (n : ℕ) : ':'.toUInt8 ∉ lit "G" ++ decimal n := by
  rw [List.mem_append, not_or]
  exact ⟨by decide, not_mem_decimal (by decide) n⟩

/-- The names under which the thread sets the controls. -/
theorem parameterName_eq {path : OscPath} (h : IsControl path) :
    parameterName path = some (controlName path) := by
  rcases h.channel with ⟨htype, hlow, hhigh⟩ | ⟨htype, hlow, hhigh⟩
  · rw [parameterName, nodeName_input htype (by omega), controlName]
    simp only [htype, Option.map_some, Option.some.injEq, List.append_assoc]
    rfl
  · rw [parameterName, nodeName_group htype, controlName]
    simp only [htype, Option.map_some, Option.some.injEq, List.append_assoc]
    rfl

/-- The graph of its chain has the node of a control, a group's equalizer or an
input channel's device. -/
theorem namesNode_of_control {path : OscPath} (h : IsControl path)
    (hgroup : path.channelType = .group → path.parameter.deviceName ≠ lit "Saturator") :
    NamesNode path := by
  have hdevice := device_mem h.mem h.known
  rcases h.channel with ⟨htype, hlow, hhigh⟩ | ⟨htype, hlow, hhigh⟩
  · rw [namesNode_iff (by omega) hdevice]
    simp only [InGraph, htype, channelIndex]
    cases path.layer <;> simp only <;> omega
  · rw [namesNode_iff (by omega) hdevice]
    simp only [InGraph, htype]
    exact ⟨hgroup htype, hlow, hhigh⟩

/-- A path is read back from the chain and the name of its control. -/
theorem eq_of_control {chains : Chains Client} (hdistinct : chains.Distinct) {p q : OscPath}
    (hp : IsControl p) (hq : IsControl q) (hclient : chains.clientOf p = chains.clientOf q)
    (hname : controlName p = controlName q) : p = q := by
  have hpDevice := device_mem hp.mem hp.known
  have hqDevice := device_mem hq.mem hq.known
  have hnames : parameterName p = parameterName q := by
    rw [parameterName_eq hp, parameterName_eq hq, hname]
  obtain ⟨pChannel, pType, pLayer, pParameter⟩ := p
  obtain ⟨qChannel, qType, qLayer, qParameter⟩ := q
  rcases hp.channel with ⟨hpType, hpLow, hpHigh⟩ | ⟨hpType, hpLow, hpHigh⟩ <;>
    rcases hq.channel with ⟨hqType, hqLow, hqHigh⟩ | ⟨hqType, hqLow, hqHigh⟩ <;>
    simp only at hpType hqType hpLow hqLow hpHigh hqHigh <;> subst hpType hqType
  · -- two input channels
    obtain ⟨hindex, hparameter⟩ := (parameterName_eq_iff rfl rfl (by simp only; omega)
      (by simp only; omega) hp.mem hq.mem hpDevice hqDevice).mp hnames
    obtain ⟨hlayer, hchannel⟩ := channelIndex_inj ⟨hpLow, hpHigh⟩ ⟨hqLow, hqHigh⟩ hindex
    simp only at hlayer hchannel hparameter
    rw [hlayer, hchannel, hparameter]
  · -- the chains tell inputs and groups apart
    cases qLayer
    · exact absurd hclient hdistinct.inputA
    · exact absurd hclient hdistinct.inputB
  · cases pLayer
    · exact absurd hclient.symm hdistinct.inputA
    · exact absurd hclient.symm hdistinct.inputB
  · -- two groups: the chains tell the layers apart
    have hlayer : pLayer = qLayer := by
      cases pLayer <;> cases qLayer
      · rfl
      · exact absurd hclient hdistinct.groups
      · exact absurd hclient.symm hdistinct.groups
      · rfl
    simp only [controlName] at hname
    obtain ⟨hnode, hparameterName⟩ := (append_cons_inj
      (colon_not_mem hpDevice (colon_not_mem_group _))
      (colon_not_mem hqDevice (colon_not_mem_group _))).mp hname
    obtain ⟨hdevice, hlabel⟩ :=
      (append_cons_inj (hyphen_not_mem hpDevice) (hyphen_not_mem hqDevice)).mp hnode
    have hchannel := decimal_injective (List.append_cancel_left hlabel)
    have hparameter : pParameter = qParameter :=
      Parameters.eq_of_fullNames hp.mem hq.mem hdevice hparameterName
    rw [hlayer, hchannel, hparameter]

/-! ## What becomes of a routed control -/

/-- A routed control with a parameter is for a control of a strip. -/
theorem control_of_routable {routed : Routed} (h : Routable routed)
    (hknown : routed.parameter.id ≠ 0) :
    ∃ layer : Layer, routed.layer = layer.text ∧ IsControl (pathOf layer routed) ∧
      (routed.channelType = .group → routed.parameter.deviceName ≠ lit "Saturator") := by
  cases h with
  | group layer htext htype hchannel hmem _ hdevice =>
      refine ⟨layer, htext, ⟨hmem, hknown, Or.inr ⟨htype, hchannel⟩⟩, fun _ => ?_⟩
      rw [hdevice]
      decide
  | input layer htext htype hchannel hmem _ =>
      refine ⟨layer, htext, ⟨hmem, hknown, Or.inl ⟨htype, hchannel⟩⟩, fun hgroup => ?_⟩
      rw [htype] at hgroup
      cases hgroup
  | unmapped layer _ _ _ hnone =>
      rw [hnone] at hknown
      exact absurd rfl hknown

theorem parse_message {routed : Routed} {layer : Layer} (htext : routed.layer = layer.text)
    (h : IsControl (pathOf layer routed)) :
    parseOscPath routed.message.address = .ok (.ok (pathOf layer routed)) := by
  have hinput : channelTypeOf 'I'.toUInt8 = some .input := by decide
  have hgroup : channelTypeOf 'G'.toUInt8 = some .group := by decide
  have hmem : routed.parameter ∈ Parameters.all := h.mem
  have hid : routed.parameter.id ≠ 0 := h.known
  rcases h.channel with ⟨htype, hlow, hhigh⟩ | ⟨htype, hlow, hhigh⟩ <;>
    simp only [pathOf] at htype hlow hhigh
  · rw [address_input htype, htext, pathOf, htype]
    exact parse_build_of_mem hinput layer (by omega) hmem hid
  · rw [address_group htype, htext, pathOf, htype]
    exact parse_build_of_mem hgroup layer (by omega) hmem hid

/-- The message of an unmapped controller is rejected. -/
theorem parse_unmapped {routed : Routed} (h : Routable routed) (hid : routed.parameter.id = 0) :
    ∃ error, parseOscPath routed.message.address = .ok (.error error) := by
  have hinput : channelTypeOf 'I'.toUInt8 = some .input := by decide
  cases h with
  | group _ _ _ _ _ hknown _ => exact absurd hid hknown
  | input _ _ _ _ _ hknown => exact absurd hid hknown
  | unmapped layer htext htype hchannel hnone =>
      have haddress : routed.message.address = buildChannelOscPath 'I' routed.channel.toNat
          Parameters.none layer.text := by
        rw [address_input htype, hnone, htext, buildInputChannelOscPath]
      rw [haddress]
      exact ⟨_, parse_build_none hinput layer hchannel⟩

/-- The node parameter of a control holds the id of its chain. -/
theorem holds_of_control {chains : Chains Client} {client : ℤ → Option Client}
    {parameters : List (Str × PropertyValue)} (hknown : chains.Known client parameters)
    {path : OscPath} (h : IsControl path) :
    ∃ name, nodeParameterName path = some name ∧
      Holds client parameters name (chains.clientOf path) := by
  rcases h.channel with ⟨htype, _⟩ | ⟨htype, _⟩
  · refine ⟨lit "inputChannels", ?_, ?_⟩
    · simp only [nodeParameterName, htype]
    · simp only [Chains.clientOf, htype]
      exact hknown.inputChannels
  · cases hlayer : path.layer with
    | A =>
        refine ⟨lit "groupChannelsA", ?_, ?_⟩
        · simp only [nodeParameterName, htype, hlayer]
        · simp only [Chains.clientOf, htype, hlayer]
          exact hknown.groupChannelsA
    | B =>
        refine ⟨lit "groupChannelsB", ?_, ?_⟩
        · simp only [nodeParameterName, htype, hlayer]
        · simp only [Chains.clientOf, htype, hlayer]
          exact hknown.groupChannelsB

theorem handled_of_routable {chains : Chains Client} {client : ℤ → Option Client}
    {parameters : List (Str × PropertyValue)} (hknown : chains.Known client parameters)
    {routed : Routed} (h : Routable routed) :
    Feed.Handled Routed.message client (wantedCall chains) parameters routed := by
  by_cases hid : routed.parameter.id = 0
  · obtain ⟨error, herror⟩ := parse_unmapped h hid
    have hnothing : acceptedMessage parameters routed.message = none := by
      simp only [acceptedMessage, herror]
    refine ⟨fun state => ⟨_, handlePacket_of_rejected herror state⟩, ?_, ?_⟩
    · rw [hnothing]
      exact fun _ h => by cases h
    · rw [hnothing, wantedCall, if_pos hid]
      rfl
  · obtain ⟨layer, htext, hcontrol, _⟩ := control_of_routable h hid
    obtain ⟨name, hname, id, hfound, hclient⟩ := holds_of_control hknown hcontrol
    have hparse := parse_message htext hcontrol
    have hvalue : routed.message.float32 =
        .ok (Parameters.interpolate routed.parameter routed.controlValue) := rfl
    have haccepted : acceptedMessage parameters routed.message = some ⟨pathOf layer routed, id,
        Parameters.interpolate routed.parameter routed.controlValue⟩ := by
      simp only [acceptedMessage, hparse, hname, hfound, hvalue]
    refine ⟨fun state => ?_, ?_, ?_⟩
    · simp [handlePacket, getFilterChainIdAndAddToQueue, hparse, hname, hfound, hvalue, bind,
        Except.bind, pure, Except.pure]
    · rw [haccepted]
      rintro _ ⟨⟩
      rw [hclient]
      rfl
    · rw [haccepted, wantedCall, if_neg hid, htext, layerOfText_text]
      simp [callOf, hclient, parameterName_eq hcontrol]

/-- Sixteen messages fit into the buffer and are all read. -/
theorem packetsOf_published {parseOsc : ParseOsc} (hparse : FindsSixteen parseOsc) {maxsize : ℕ}
    (hmaxsize : 784 ≤ maxsize) {routed : List Routed} (hroutable : ∀ r ∈ routed, Routable r)
    (hlength : routed.length ≤ 16) :
    packetsOf (parseOsc (published maxsize routed)) = routed.map Routed.message := by
  have hpublished : published maxsize routed = routed.map Routed.message :=
    published_of_routable hroutable (by omega)
  rw [hpublished, packetsOf_eq hparse (by simpa using hlength)]

/-! ## Runs -/

variable {parseOsc : ParseOsc} {maxsize : ℕ} {chains : Chains Client} {client : ℤ → Option Client}

theorem routable_of_routedBy {s : MidiRouter.State} (h : s.InRange) {label : MidiRouter.Label}
    {routed : List Routed} (hrouted : routedBy s label = some routed) :
    ∀ r ∈ routed, Routable r := by
  cases label with
  | cycle =>
      have hphase := h.cycle
      simp only [routedBy] at hrouted
      split at hrouted
      · rename_i buffers state hcycle
        cases hrouted
        rw [hcycle] at hphase
        exact routable_process hphase buffers
      · cases hrouted
  | begin buffers => cases hrouted
  | thread => cases hrouted

/-- The router is in range, and has routed what the filter chains can use. -/
structure Sound (s : State Client) : Prop where
  router : s.router.InRange
  routable : ∀ routed ∈ s.routed, Routable routed

theorem sound_step {s s' : State Client} {label : Label} (h : Sound s)
    (hstep : step parseOsc maxsize client s label = some s') : Sound s' := by
  cases label with
  | router label =>
      simp only [step] at hstep
      split at hstep
      · obtain ⟨router, hnext, rfl⟩ := Option.map_eq_some_iff.mp hstep
        exact ⟨inRange_step h.router hnext, h.routable⟩
      · rename_i routed hrouted
        split at hstep
        · obtain ⟨router, hnext, rfl⟩ := Option.map_eq_some_iff.mp hstep
          exact ⟨inRange_step h.router hnext,
            List.forall_mem_append.mpr ⟨h.routable, routable_of_routedBy h.router hrouted⟩⟩
        · cases hstep
  | packet =>
      simp only [step] at hstep
      split at hstep
      · obtain ⟨next, hnext, rfl⟩ := Option.map_eq_some_iff.mp hstep
        exact ⟨h.router, h.routable⟩
      · cases hstep
  | chains label =>
      cases label with
      | packet packet => cases hstep
      | parameters | pop | call =>
          simp only [step] at hstep
          obtain ⟨next, hnext, rfl⟩ := Option.map_eq_some_iff.mp hstep
          exact ⟨h.router, h.routable⟩

theorem sound_of_run {guard : State Client → Label → Prop}
    {parameters : List (Str × PropertyValue)} {labels : List Label} {s : State Client}
    (run : Run (step parseOsc maxsize client) guard (initial Client parameters) labels s) :
    Sound s := by
  refine run.state_invariant (I := Sound) ?_ fun _ _ _ h _ hstep => sound_step h hstep
  exact ⟨inRange_initial initial_inRange, fun _ h => absurd h List.not_mem_nil⟩

/-- What the packet loop and the calls see of the whole. -/
def State.feed (s : State Client) : Feed.State Routed Client :=
  ⟨s.packets, s.chains, s.routed⟩

/-- A step of the whole is a step of the router alone, or one of the feed. -/
theorem feed_step (hparse : FindsSixteen parseOsc) (hmaxsize : 784 ≤ maxsize)
    {s s' : State Client} {label : Label} (h : Sound s)
    (hreliable : Reliable chains client s label)
    (hstep : step parseOsc maxsize client s label = some s') :
    s'.feed = s.feed ∨ ∃ label',
      Feed.Reliable Routed.message client (wantedCall chains) s.feed label' ∧
        Feed.step Routed.message client s.feed label' = some s'.feed := by
  cases label with
  | router label =>
      simp only [step] at hstep
      split at hstep
      · obtain ⟨router, hnext, rfl⟩ := Option.map_eq_some_iff.mp hstep
        -- the router publishes nothing in this step
        exact Or.inl rfl
      · rename_i routed hrouted
        split at hstep
        · rename_i hempty
          obtain ⟨router, hnext, rfl⟩ := Option.map_eq_some_iff.mp hstep
          have hroutable := routable_of_routedBy h.router hrouted
          refine Or.inr ⟨.publish routed, trivial, (if_pos hempty).trans ?_⟩
          rw [State.feed,
            packetsOf_published hparse hmaxsize hroutable (hreliable.2 routed hrouted)]
          rfl
        · cases hstep
  | packet =>
      obtain ⟨hknown, hroom⟩ := hreliable
      refine Or.inr ⟨.packet, ⟨fun routed hmem _ =>
        handled_of_routable hknown (h.routable routed hmem), hroom⟩, ?_⟩
      simp only [step] at hstep
      split at hstep
      · rename_i packet rest hpackets
        obtain ⟨next, hnext, rfl⟩ := Option.map_eq_some_iff.mp hstep
        simp only [Feed.step, State.feed, hpackets, hnext, Option.map_some]
      · cases hstep
  | chains label =>
      refine Or.inr ⟨.chains label, hreliable, ?_⟩
      cases label with
      | packet packet => cases hstep
      | parameters | pop | call =>
          simp only [step] at hstep
          obtain ⟨next, hnext, rfl⟩ := Option.map_eq_some_iff.mp hstep
          simp only [Feed.step, State.feed, hnext, Option.map_some]

/-- What the packet loop and the calls do is a run of the feed. -/
theorem feed_of_run (hparse : FindsSixteen parseOsc) (hmaxsize : 784 ≤ maxsize)
    {parameters : List (Str × PropertyValue)} {labels : List Label} {s : State Client}
    (run : Run (step parseOsc maxsize client) (Reliable chains client)
      (initial Client parameters) labels s) :
    ∃ labels', Run (Feed.step Routed.message client)
      (Feed.Reliable Routed.message client (wantedCall chains))
      (Feed.initial Routed Client parameters) labels' s.feed := by
  exact run.project State.feed fun _ _ _ _ run hreliable hstep =>
    feed_step hparse hmaxsize (sound_of_run run) hreliable hstep

/-! ## The values of the controls -/

/-- The call for a routed control sets the control of a path exactly if the routed
control is for it. -/
theorem wantedCall_isFor (hdistinct : chains.Distinct) {routed : Routed} (h : Routable routed)
    {path : OscPath} (hpath : IsControl path) :
    (IsFor path routed → wantedCall chains routed = some ⟨chains.clientOf path,
        controlName path, Parameters.interpolate path.parameter routed.controlValue⟩) ∧
      (¬ IsFor path routed → ∀ call, wantedCall chains routed = some call →
        (call.client, call.parameterName) ≠ (chains.clientOf path, controlName path)) := by
  constructor
  · rintro ⟨htype, htext, hchannel, hid⟩
    have hknown : routed.parameter.id ≠ 0 := fun hzero => hpath.known (hid.symm.trans hzero)
    obtain ⟨layer, hlayer, hcontrol, _⟩ := control_of_routable h hknown
    have hparameter : routed.parameter = path.parameter :=
      Parameters.eq_of_id hcontrol.mem hpath.mem hid
    have hsame : pathOf path.layer routed = path := by
      rw [pathOf, htype, hchannel, hparameter]
    rw [wantedCall, if_neg hknown, htext, layerOfText_text, Option.map_some, hsame, hparameter]
  · intro hother call hcall hsame
    have hknown : routed.parameter.id ≠ 0 := by
      intro hzero
      rw [wantedCall, if_pos hzero] at hcall
      cases hcall
    obtain ⟨layer, hlayer, hcontrol, _⟩ := control_of_routable h hknown
    rw [wantedCall, if_neg hknown, hlayer, layerOfText_text] at hcall
    cases hcall
    obtain ⟨hclient, hname⟩ := Prod.mk.inj hsame
    have heq := eq_of_control hdistinct hcontrol hpath hclient hname
    apply hother
    rw [← heq]
    exact ⟨rfl, hlayer, rfl, rfl⟩

/-- The last call for a control is the one for the last control routed to it. -/
theorem controlValue_wantedCalls [DecidableEq Client] (hdistinct : chains.Distinct)
    {routed : List Routed} (hroutable : ∀ r ∈ routed, Routable r) {path : OscPath}
    (hpath : IsControl path) :
    controlValue (routed.filterMap (wantedCall chains)) (chains.clientOf path, controlName path) =
      (lastRouted path routed).map (Parameters.interpolate path.parameter) := by
  rw [lastRouted, Option.map_map]
  refine Feed.controlValue_filterMap (fun r hr hfor => ?_) fun r hr hother => ?_
  · exact ⟨_, (wantedCall_isFor hdistinct (hroutable r hr) hpath).1 hfor, rfl, rfl⟩
  · exact (wantedCall_isFor hdistinct (hroutable r hr) hpath).2 hother

/-- A call for a routed control sets a control of the path's filter graph, within its range. -/
theorem control_of_wantedCall {routed : Routed} (hroutable : Routable routed)
    {call : SetPropsParam Client} (hwanted : wantedCall chains routed = some call) :
    ∃ path, IsControl path ∧ NamesNode path ∧ call.client = chains.clientOf path ∧
      call.parameterName = controlName path ∧
        path.parameter.min ≤ call.value ∧ call.value ≤ path.parameter.max := by
  by_cases hid : routed.parameter.id = 0
  · rw [wantedCall, if_pos hid] at hwanted
    cases hwanted
  · obtain ⟨layer, htext, hcontrol, hgroup⟩ := control_of_routable hroutable hid
    rw [wantedCall, if_neg hid, htext, layerOfText_text] at hwanted
    cases hwanted
    obtain ⟨hmin, hmax⟩ := Parameters.interpolate_mem routed.parameter routed.controlValue
    exact ⟨_, hcontrol, namesNode_of_control hcontrol hgroup, rfl, rfl, hmin, hmax⟩

/-- The packet loop takes the next packet just if the chains do. -/
theorem isSome_step_packet (s : State Client) :
    (step parseOsc maxsize client s .packet).isSome =
      (Feed.step Routed.message client s.feed .packet).isSome := by
  cases hpackets : s.packets with
  | nil => simp only [step, Feed.step, State.feed, hpackets, Option.isSome_none]
  | cons packet rest => simp only [step, Feed.step, State.feed, hpackets, Option.isSome_map]

/-- Clients that are told apart by the node ids 40, 41 and 42. -/
def someChains : Chains ℕ :=
  ⟨40, 41, 42⟩

def someParameters : List (Str × PropertyValue) :=
  [(lit "inputChannels", .int 40), (lit "groupChannelsA", .int 41), (lit "groupChannelsB", .int 42)]

/-- Two controllers for the first input channel, and then the first one again, on their way
through all threads. -/
def threeControllers : List Label :=
  [.router (.begin ⟨true, none, none, some (.ok (Vector.ofFn fun i =>
      if i.val = 0 then some (.controlChange 15 0)
      else if i.val = 1 then some (.controlChange 16 0) else none))⟩),
    .router .cycle, .router .cycle, .router .cycle, .packet, .chains .pop, .packet, .chains .call,
    .chains .pop, .chains .call,
    .router (.begin ⟨true, none, none, some (single (.controlChange 15 4294967295))⟩),
    .router .cycle, .router .cycle, .router .cycle, .packet, .chains .pop, .chains .call]

/-- A test for `Reliable` with these clients. -/
def isReliable (s : State ℕ) : Label → Bool
  | .router label => decide (MidiRouter.SinglePop s.router label) &&
      (routedBy s.router label).all fun routed => routed.length ≤ 16
  | .packet =>
      s.chains.queue.HasRoom &&
        ([(lit "inputChannels", 40), (lit "groupChannelsA", 41), (lit "groupChannelsB", 42)].all
          fun (name, id) => (filterChainId name s.chains.parameters).toOption = some (some id))
  | .chains label => decide (FilterChainCtrl.SinglePop s.chains label)

theorem reliable_of_isReliable {s : State ℕ} {label : Label} (h : isReliable s label = true) :
    Reliable someChains (fun id => some id.toNat) s label := by
  cases label with
  | router label =>
      rw [isReliable, Bool.and_eq_true] at h
      refine ⟨of_decide_eq_true h.1, fun routed hrouted => ?_⟩
      rw [hrouted] at h
      exact of_decide_eq_true h.2
  | packet =>
      simp only [isReliable, List.all_cons, List.all_nil, Bool.and_eq_true,
        decide_eq_true_eq] at h
      exact ⟨⟨holds_of_toOption h.2.1 rfl, holds_of_toOption h.2.2.1 rfl,
        holds_of_toOption h.2.2.2.1 rfl⟩, fun _ _ _ => h.1⟩
  | chains label =>
      have hsingle : FilterChainCtrl.SinglePop s.chains label := of_decide_eq_true h
      exact hsingle

end Pmx.MidiControl
