import Pmx.Agreement
import Pmx.MidiRouter.Threads

/-!
# What the MIDI router can route

Layer, bank and selected channel stay in range over any interleaving of the
signal processor and `update_parameter_value_thread`, also while the thread has
written some of the parameters and not the others (`inRange_of_run`).  So every
control that is ever routed is one of three kinds (`Routable`): an equalizer of a
group, a parameter of an input channel, or the parameter `none`.

The message of such a control has 32 bytes at most, and a cycle routes no more
than 48 controls, so that a buffer of 2320 bytes always holds all that a cycle
publishes (`routed_of_run`).
-/

namespace Pmx.MidiRouter

open Agreement Cxx Osc PodBuilder Transition

/-- The kinds of routed controls. -/
inductive Routable (routed : Routed) : Prop
  | group (layer : Layer) (text : routed.layer = layer.text) (type : routed.channelType = .group)
      (channel : 1 ≤ routed.channel.toNat ∧ routed.channel.toNat ≤ 4)
      (mem : routed.parameter ∈ Parameters.all) (known : routed.parameter.id ≠ 0)
      (device : routed.parameter.deviceName = lit "Equalizer")
  | input (layer : Layer) (text : routed.layer = layer.text) (type : routed.channelType = .input)
      (channel : 1 ≤ routed.channel.toNat ∧ routed.channel.toNat ≤ 16)
      (mem : routed.parameter ∈ Parameters.all) (known : routed.parameter.id ≠ 0)
  | unmapped (layer : Layer) (text : routed.layer = layer.text)
      (type : routed.channelType = .input) (channel : routed.channel.toNat ≤ 99)
      (none : routed.parameter = Parameters.none)

/-- `SPA_CONTROL_OSC`. -/
def controlOsc : ℕ := 3

/-- The messages in the sequence that a cycle publishes. -/
def published (maxsize : ℕ) (routed : List Routed) : List OscMessage :=
  values ((routed.map Routed.message).foldl (addFramed controlOsc OscMessage.size)
    (pushSequence maxsize)).pop

/-! ## The ports -/

theorem device_of_groupChannels {ccNumber : UInt8}
    {target : Parameters.RoutingTableTargetParameter}
    (h : Parameters.findTargetParameterForGroupChannels ccNumber = some target) :
    target.parameter.deviceName = lit "Equalizer" := by
  unfold Parameters.findTargetParameterForGroupChannels at h
  split_ifs at h <;> cases h <;> rfl

/-- The group port on a layer. -/
structure GroupRoutable (current : Str × List Routed) : Prop where
  layer : ∃ layer : Layer, current.1 = layer.text
  routed : ∀ routed ∈ current.2, Routable routed

theorem groupRoutable_step {current : Str × List Routed} (h : GroupRoutable current)
    (message : Message) : GroupRoutable (groupChannelsStep current message) := by
  cases message with
  | controlChange ccNumber value =>
      by_cases hselector : ccNumber = 64
      · rw [groupChannelsStep, if_pos hselector]
        exact ⟨exists_requestedLayer value, h.routed⟩
      · rw [groupChannelsStep, if_neg hselector]
        cases htarget : Parameters.findTargetParameterForGroupChannels ccNumber with
        | none => exact h
        | some target =>
            obtain ⟨layer, htext⟩ := h.layer
            obtain ⟨hlow, hhigh, hmem, hid⟩ := Parameters.groupChannels_target htarget
            refine ⟨⟨layer, htext⟩, ?_⟩
            rw [List.forall_mem_append, List.forall_mem_singleton]
            exact ⟨h.routed, .group layer htext rfl ⟨hlow, hhigh⟩ hmem hid
              (device_of_groupChannels htarget)⟩
  | noteOff note => exact h
  | other => exact h

/-- A controller of the mix port, in a bank. -/
theorem routable_mix (layer : Layer) {base : UInt8} (hbase : base = 0 ∨ base = 8)
    (ccNumber : UInt8) (value : UInt32) :
    Routable ⟨.input, layer.text,
      base + (Parameters.findTargetParameterForInputMixChannels ccNumber).1,
      (Parameters.findTargetParameterForInputMixChannels ccNumber).2, value⟩ := by
  rcases Parameters.inputMixChannels_target ccNumber with
    ⟨_, channel, parameter, htarget, hlow, hhigh, hmem, hid⟩ | ⟨_, htarget⟩
  · obtain ⟨hchannel, hle⟩ := toNat_base_add hbase hhigh
    rw [htarget]
    exact .input layer rfl rfl ⟨by simp only; omega, by simp only; omega⟩ hmem hid
  · obtain ⟨hchannel, hle⟩ := toNat_base_add hbase (show (0 : UInt8).toNat ≤ 8 by decide)
    rw [htarget]
    refine .unmapped layer rfl rfl ?_ rfl
    show (base + 0).toNat ≤ 99
    rw [hchannel]
    exact Nat.le_trans (Nat.add_le_add_right hle _) (by decide)

/-- The mix port on a layer. -/
structure MixRoutable (current : MixState) : Prop where
  range : MixInRange current
  routed : ∀ routed ∈ current.routed, Routable routed

theorem mixRoutable_step (layer : Layer) {current : MixState} (h : MixRoutable current)
    (message : Message) : MixRoutable (inputChannelsMixStep layer.text current message) := by
  refine ⟨(mixStep_agrees layer h.range message).1, ?_⟩
  cases message with
  | controlChange ccNumber value =>
      rw [inputChannelsMixStep, List.forall_mem_append, List.forall_mem_singleton]
      exact ⟨h.routed, routable_mix layer h.range.base ccNumber value⟩
  | noteOff note =>
      have hsame : (inputChannelsMixStep layer.text current (.noteOff note)).routed =
          current.routed := by
        simp only [inputChannelsMixStep]
        cases bankNotes.lookup note with
        | some bank => rfl
        | none => cases selectionNotes.lookup note <;> rfl
      rw [hsame]
      exact h.routed
  | other => exact h.routed

/-- A controller of the input channel port, on the selected channel. -/
theorem routable_input (layer : Layer) {channel : UInt8}
    (hchannel : 1 ≤ channel.toNat ∧ channel.toNat ≤ 16) (ccNumber : UInt8) (value : UInt32) :
    Routable ⟨.input, layer.text, channel,
      Parameters.findTargetParameterForInputChannels ccNumber, value⟩ := by
  rcases Parameters.inputChannels_target ccNumber with ⟨_, hmem, hid⟩ | ⟨_, hnone⟩
  · exact .input layer rfl rfl hchannel hmem hid
  · exact .unmapped layer rfl rfl (by simp only; omega) hnone

/-! ## A cycle -/

theorem routable_groupChannels {state : RouterState} (hrange : InRange state)
    (buffer? : Option Buffer) :
    ∀ routed ∈ (groupChannels state buffer?).routed, Routable routed := by
  cases buffer? with
  | none => exact fun _ h => absurd h List.not_mem_nil
  | some buffer =>
      have hport : GroupRoutable (processGroupChannelsPort buffer state.activeLayer) := by
        unfold processGroupChannelsPort
        apply List.foldlRecOn (motive := GroupRoutable)
        · exact ⟨hrange.layer, fun _ h => absurd h List.not_mem_nil⟩
        · intro current hcurrent message _
          exact groupRoutable_step hcurrent message
      exact hport.routed

theorem routable_inputChannelsMix {state : RouterState} (hrange : InRange state)
    (buffer? : Option Buffer) :
    ∀ routed ∈ (inputChannelsMix state buffer?).routed, Routable routed := by
  cases buffer? with
  | none => exact fun _ h => absurd h List.not_mem_nil
  | some buffer =>
      obtain ⟨⟨layer, htext⟩, hbase, hlow, hhigh⟩ := hrange
      have hselected := toNat_ofInt (n := state.selectedChannelId) (by omega) (by omega)
      have hport : MixRoutable (processInputChannelsMixPort buffer state.activeLayer
          (UInt8.ofInt state.baseChannelId) (UInt8.ofInt state.selectedChannelId)) := by
        rw [htext]
        unfold processInputChannelsMixPort
        apply List.foldlRecOn (motive := MixRoutable)
        · refine ⟨⟨?_, ?_⟩, fun _ h => absurd h List.not_mem_nil⟩
          · exact hbase.imp (fun h => by rw [h]; rfl) fun h => by rw [h]; rfl
          · show 1 ≤ (UInt8.ofInt state.selectedChannelId).toNat ∧
              (UInt8.ofInt state.selectedChannelId).toNat ≤ 16
            omega
        · intro current hcurrent message _
          exact mixRoutable_step layer hcurrent message
      exact hport.routed

theorem routable_inputChannels {state : RouterState} (hrange : InRange state)
    (buffer? : Option Buffer) : ∀ routed ∈ inputChannels state buffer?, Routable routed := by
  cases buffer? with
  | none => exact fun _ h => absurd h List.not_mem_nil
  | some buffer =>
      obtain ⟨⟨layer, htext⟩, _, hlow, hhigh⟩ := hrange
      have hselected := toNat_ofInt (n := state.selectedChannelId) (by omega) (by omega)
      intro routed hrouted
      rw [inputChannels, htext] at hrouted
      obtain ⟨message, _, hsome⟩ := List.mem_filterMap.mp hrouted
      cases message with
      | controlChange ccNumber value =>
          cases hsome
          exact routable_input layer ⟨by omega, by omega⟩ ccNumber value
      | noteOff note => cases hsome
      | other => cases hsome

theorem routable_process {state : RouterState} (hrange : InRange state) (buffers : Buffers) :
    ∀ routed ∈ (process state buffers).routed, Routable routed := by
  unfold process
  split_ifs
  · exact fun _ h => absurd h List.not_mem_nil
  · have hgroup := (groupChannels_agrees hrange buffers.groupChannels).1
    have hmix := (inputChannelsMix_agrees hgroup buffers.inputChannelsMix).1
    simp only [List.forall_mem_append]
    exact ⟨⟨routable_groupChannels hrange _, routable_inputChannelsMix hgroup _⟩,
      routable_inputChannels hmix _⟩

/-! ## The threads -/

/-- What a cycle has read is in range. -/
def CyclePhase.InRange : CyclePhase → Prop
  | .idle => True
  | .readLayer _ activeLayer => ∃ layer : Layer, activeLayer = layer.text
  | .readBase _ activeLayer baseChannelId =>
      (∃ layer : Layer, activeLayer = layer.text) ∧ (baseChannelId = 0 ∨ baseChannelId = 8)
  | .ready _ state => Agreement.InRange state

/-- What the thread has popped is in range. -/
def ThreadPhase.InRange : ThreadPhase → Prop
  | .waiting => True
  | .draining latest => Agreement.InRange latest
  | .wroteLayer latest => Agreement.InRange latest
  | .wroteBase latest => Agreement.InRange latest

/-- Every layer, bank and channel in the application is in range. -/
structure State.InRange (s : State) : Prop where
  parameters : Agreement.InRange s.parameters
  queue : ∀ state ∈ s.queue.items, Agreement.InRange state
  cycle : s.cycle.InRange
  thread : s.thread.InRange

theorem inRange_push {queue : BoundedFifo 2 RouterState} {pushed : RouterState}
    (hqueue : ∀ state ∈ queue.items, InRange state) (hpushed : InRange pushed) :
    ∀ state ∈ (queue.push pushed).2.items, InRange state := by
  rw [BoundedFifo.items_push]
  split
  · rw [List.forall_mem_append, List.forall_mem_singleton]
    exact ⟨hqueue, hpushed⟩
  · exact hqueue

theorem State.InRange.popped {s : State} (h : s.InRange) {message : RouterState}
    {behind : List RouterState} (hpop : s.queue.drain = some (message, behind)) :
    (popped s message behind).InRange := by
  have hmem : message ∈ s.queue.items := by
    rw [BoundedFifo.drain_eq_some.mp hpop]
    exact List.mem_cons_self
  exact ⟨h.parameters, fun _ hnone => absurd hnone List.not_mem_nil, h.cycle, h.queue _ hmem⟩

theorem inRange_cycleStep {s s' : State} (h : s.InRange) (hstep : cycleStep s = some s') :
    s'.InRange := by
  have hphase := h.cycle
  rcases cycleStep_cases hstep with ⟨buffers, activeLayer, hcycle, rfl⟩ |
    ⟨buffers, activeLayer, baseChannelId, hcycle, rfl⟩ | ⟨buffers, state, hcycle, rfl⟩
  · rw [hcycle] at hphase
    exact ⟨h.parameters, h.queue, ⟨hphase, h.parameters.base⟩, h.thread⟩
  · rw [hcycle] at hphase
    exact ⟨h.parameters, h.queue, ⟨hphase.1, hphase.2, h.parameters.selected⟩, h.thread⟩
  · rw [hcycle] at hphase
    refine ⟨h.parameters, ?_, trivial, h.thread⟩
    show ∀ state' ∈ (if (process state buffers).changes then _ else s.queue).items, _
    split
    · exact inRange_push h.queue (process_agrees hphase buffers).1
    · exact h.queue

theorem inRange_threadStep {s s' : State} (h : s.InRange) (hstep : threadStep s = some s') :
    s'.InRange := by
  have hphase := h.thread
  rcases threadStep_cases hstep with ⟨-, message, behind, hpop, rfl⟩ |
    ⟨latest, hthread, -, rfl⟩ | ⟨latest, hthread, rfl⟩ | ⟨latest, hthread, rfl⟩
  · exact h.popped hpop
  · rw [hthread] at hphase
    exact ⟨⟨hphase.layer, h.parameters.base, h.parameters.selected⟩, h.queue, h.cycle, hphase⟩
  · rw [hthread] at hphase
    exact ⟨⟨h.parameters.layer, hphase.base, h.parameters.selected⟩, h.queue, h.cycle, hphase⟩
  · rw [hthread] at hphase
    exact ⟨⟨h.parameters.layer, h.parameters.base, hphase.selected⟩, h.queue, h.cycle, trivial⟩

theorem inRange_step {s s' : State} {label : Label} (h : s.InRange)
    (hstep : step s label = some s') : s'.InRange := by
  cases label with
  | begin buffers =>
      simp only [step] at hstep
      split at hstep
      · split at hstep
        · cases hstep
          exact ⟨h.parameters, h.queue, h.cycle, h.thread⟩
        · cases hstep
          exact ⟨h.parameters, h.queue, h.parameters.layer, h.thread⟩
      · cases hstep
  | cycle => exact inRange_cycleStep h hstep
  | thread => exact inRange_threadStep h hstep

theorem inRange_initial {start : RouterState} (hstart : InRange start) :
    (initial start).InRange :=
  ⟨hstart, fun _ h => absurd h List.not_mem_nil, trivial, trivial⟩

/-- The processor never works from a layer, bank or channel out of range. -/
theorem inRange_of_run {guard : State → Label → Prop} {labels : List Label} {s : State}
    (run : Run step guard (initial initialState) labels s) : s.InRange :=
  run.state_invariant (inRange_initial initial_inRange) fun _ _ _ h _ hstep => inRange_step h hstep

/-! ## The size of the messages -/

/-- Short names and names leave room for a channel of two digits. -/
theorem length_names_le {p : Parameter} (hmem : p ∈ Parameters.all) :
    p.deviceShortName.length ≤ 3 ∧ p.name.length ≤ 9 := by
  have hall : ∀ lengths ∈ Parameters.all.map fun p =>
      (p.deviceShortName.length, p.name.length), lengths.1 ≤ 3 ∧ lengths.2 ≤ 9 := by
    decide
  exact hall _ (List.mem_map.mpr ⟨p, hmem, rfl⟩)

theorem length_decimal_le {n : ℕ} (hn : n ≤ 99) : (decimal n).length ≤ 2 := by
  rcases Nat.lt_or_ge n 10 with hlt | hge
  · rw [decimal_of_lt hlt]
    exact Nat.le_succ 1
  · rw [decimal_of_le hge, decimal_of_lt (by omega)]
    rfl

theorem length_buildChannelOscPath_le (letter : Char) (layer : Layer) {channel : ℕ}
    (hchannel : channel ≤ 99) {p : Parameter} (hmem : p ∈ Parameters.all) :
    (buildChannelOscPath letter channel p layer.text).length ≤ 21 := by
  have hdigits := length_decimal_le hchannel
  obtain ⟨hshort, hname⟩ := length_names_le hmem
  have hlayer : layer.text.length = 1 := by
    cases layer <;> rfl
  simp only [buildChannelOscPath, List.length_cons, List.length_append, hlayer]
  omega

/-- What every routable control has in common. -/
theorem Routable.path {routed : Routed} (h : Routable routed) :
    ∃ layer : Layer, routed.layer = layer.text ∧ routed.channel.toNat ≤ 99 ∧
      routed.parameter ∈ Parameters.all := by
  cases h with
  | group layer htext _ hchannel hmem _ _ => exact ⟨layer, htext, by omega, hmem⟩
  | input layer htext _ hchannel hmem _ => exact ⟨layer, htext, by omega, hmem⟩
  | unmapped layer htext _ hchannel hnone =>
      exact ⟨layer, htext, hchannel, hnone ▸ List.mem_cons_self ..⟩

theorem address_group {routed : Routed} (h : routed.channelType = .group) :
    routed.message.address =
      buildGroupChannelOscPath routed.channel routed.parameter routed.layer := by
  simp only [Routed.message, h, floatMessage]

theorem address_input {routed : Routed} (h : routed.channelType = .input) :
    routed.message.address =
      buildInputChannelOscPath routed.channel routed.parameter routed.layer := by
  simp only [Routed.message, h, floatMessage]

theorem Routable.type {routed : Routed} (h : Routable routed) :
    routed.channelType = .group ∨ routed.channelType = .input := by
  cases h with
  | group _ _ htype _ _ _ _ => exact Or.inl htype
  | input _ _ htype _ _ _ => exact Or.inr htype
  | unmapped _ _ htype _ _ => exact Or.inr htype

theorem size_message_le {routed : Routed} (h : Routable routed) : routed.message.size ≤ 32 := by
  obtain ⟨layer, htext, hchannel, hmem⟩ := h.path
  have haddress : routed.message.address.length ≤ 21 := by
    rcases h.type with htype | htype
    · rw [address_group htype, htext]
      exact length_buildChannelOscPath_le _ layer hchannel hmem
    · rw [address_input htype, htext]
      exact length_buildChannelOscPath_le _ layer hchannel hmem
  have hargs : routed.message.size = stringSize routed.message.address.length + 8 := by
    simp [Routed.message, floatMessage, OscMessage.size, OscArgument.size, stringSize]
  rw [hargs, stringSize]
  omega

/-- Each message takes 48 bytes at most with its headers. -/
theorem framedBytes_messages_le {routed : List Routed} (h : ∀ r ∈ routed, Routable r) :
    framedBytes OscMessage.size (routed.map Routed.message) ≤ 48 * routed.length := by
  induction routed with
  | nil => exact Nat.zero_le _
  | cons r rest ih =>
      obtain ⟨hr, hrest⟩ := List.forall_mem_cons.mp h
      have hsize := size_message_le hr
      have hle := ih hrest
      rw [List.map_cons, framedBytes_cons, List.length_cons, podSize]
      omega

theorem published_of_routable {routed : List Routed} (h : ∀ r ∈ routed, Routable r) {maxsize : ℕ}
    (hmaxsize : 16 + 48 * routed.length ≤ maxsize) :
    published maxsize routed = routed.map Routed.message := by
  have hbytes := framedBytes_messages_le h
  rw [published, values_pop_foldl_addFramed, ifFits_of_fits (by omega)]

/-- The parser reads back what has been routed to a parameter, and rejects the others. -/
theorem Routable.parsed {routed : Routed} (h : Routable routed) :
    (routed.parameter.id ≠ 0 ∧ Agrees routed.message (target routed)) ∨
      (routed.parameter = Parameters.none ∧ parseOscPath routed.message.address =
        .ok (.error (.invalidArgument (lit "unknown parameter")))) := by
  have hinput : channelTypeOf 'I'.toUInt8 = some .input := by decide
  obtain ⟨channelType, text, channel, parameter, value⟩ := routed
  cases h with
  | group layer htext htype hchannel hmem hknown _ =>
      simp only at htext htype hchannel hmem hknown
      subst htext htype
      exact Or.inl ⟨hknown, agrees_group layer hchannel hmem hknown value⟩
  | input layer htext htype hchannel hmem hknown =>
      simp only at htext htype hchannel hmem hknown
      subst htext htype
      exact Or.inl ⟨hknown, agrees_input layer hchannel hmem hknown value⟩
  | unmapped layer htext htype hchannel hnone =>
      simp only at htext htype hchannel hnone
      subst htext htype hnone
      exact Or.inr ⟨rfl, parse_build_none hinput layer hchannel⟩

/-! ## The number of messages -/

theorem length_getMidiMessages_le (buffer : Buffer) : (getMidiMessages buffer).length ≤ 16 := by
  cases buffer with
  | error message => exact Nat.zero_le _
  | ok slots =>
      calc (slots.toList.filterMap id).length
          ≤ slots.toList.length := List.length_filterMap_le ..
        _ = 16 := slots.length_toList

/-- A fold over messages that each route one control at most. -/
theorem length_foldl_le {σ : Type} {step : σ → Message → σ} {routed : σ → List Routed}
    (hstep : ∀ s message, (routed (step s message)).length ≤ (routed s).length + 1)
    (messages : List Message) (s : σ) :
    (routed (messages.foldl step s)).length ≤ (routed s).length + messages.length := by
  induction messages generalizing s with
  | nil => exact Nat.le_refl _
  | cons message rest ih =>
      have hone := hstep s message
      have hrest := ih (step s message)
      rw [List.foldl_cons, List.length_cons]
      omega

theorem length_groupChannels_le (state : RouterState) (buffer? : Option Buffer) :
    (groupChannels state buffer?).routed.length ≤ 16 := by
  cases buffer? with
  | none => exact Nat.zero_le _
  | some buffer =>
      have hstep : ∀ (current : Str × List Routed) message,
          (groupChannelsStep current message).2.length ≤ current.2.length + 1 := by
        intro current message
        cases message with
        | controlChange ccNumber value =>
            simp only [groupChannelsStep]
            split
            · exact Nat.le_succ _
            · split <;> simp
        | noteOff note => exact Nat.le_succ _
        | other => exact Nat.le_succ _
      have hport := length_foldl_le hstep (getMidiMessages buffer) (state.activeLayer, [])
      have hmessages := length_getMidiMessages_le buffer
      simp only [List.length_nil] at hport
      show (processGroupChannelsPort buffer state.activeLayer).2.length ≤ 16
      unfold processGroupChannelsPort
      omega

theorem length_inputChannelsMix_le (state : RouterState) (buffer? : Option Buffer) :
    (inputChannelsMix state buffer?).routed.length ≤ 16 := by
  cases buffer? with
  | none => exact Nat.zero_le _
  | some buffer =>
      have hstep : ∀ (current : MixState) message,
          (inputChannelsMixStep state.activeLayer current message).routed.length ≤
            current.routed.length + 1 := by
        intro current message
        cases message with
        | controlChange ccNumber value => simp [inputChannelsMixStep]
        | noteOff note =>
            simp only [inputChannelsMixStep]
            split
            · exact Nat.le_succ _
            · split <;> exact Nat.le_succ _
        | other => exact Nat.le_succ _
      have hport := length_foldl_le hstep (getMidiMessages buffer)
        ⟨UInt8.ofInt state.baseChannelId, UInt8.ofInt state.selectedChannelId, []⟩
      have hmessages := length_getMidiMessages_le buffer
      simp only [List.length_nil] at hport
      show (processInputChannelsMixPort buffer state.activeLayer _ _).routed.length ≤ 16
      unfold processInputChannelsMixPort
      omega

theorem length_inputChannels_le (state : RouterState) (buffer? : Option Buffer) :
    (inputChannels state buffer?).length ≤ 16 := by
  cases buffer? with
  | none => exact Nat.zero_le _
  | some buffer => exact (List.length_filterMap_le ..).trans (length_getMidiMessages_le buffer)

theorem length_process_le (state : RouterState) (buffers : Buffers) :
    (process state buffers).routed.length ≤ 48 := by
  unfold process
  split_ifs
  · exact Nat.zero_le _
  · have hgroup := length_groupChannels_le state buffers.groupChannels
    have hmix := length_inputChannelsMix_le (groupChannels state buffers.groupChannels).state
      buffers.inputChannelsMix
    have hinput := length_inputChannels_le (inputChannelsMix
      (groupChannels state buffers.groupChannels).state buffers.inputChannelsMix).state
      buffers.inputChannels
    simp only [List.length_append]
    omega

/-- **A cycle about to publish** works from a layer, bank and channel in range, in
any interleaving with the thread in which every `pop` finds a single state.  It routes
48 controls at most, each to a parameter, and then the parser reads back the path it was
routed to, with a value in range, or to `none`, and then the parser rejects it; and 2320
bytes hold the messages for all of them. -/
theorem routed_of_run {labels : List Label} {s : State}
    (run : Run step SinglePop (initial initialState) labels s) {buffers : Buffers}
    {state : RouterState} (hcycle : s.cycle = .ready buffers state) {maxsize : ℕ}
    (hmaxsize : 2320 ≤ maxsize) :
    InRange state ∧
      (∀ routed ∈ (process state buffers).routed, Routable routed ∧
        ((routed.parameter.id ≠ 0 ∧ Agrees routed.message (target routed)) ∨
          (routed.parameter = Parameters.none ∧ parseOscPath routed.message.address =
            .ok (.error (.invalidArgument (lit "unknown parameter")))))) ∧
      (process state buffers).routed.length ≤ 48 ∧
      published maxsize (process state buffers).routed =
        (process state buffers).routed.map Routed.message := by
  have hrange : InRange state := by
    have hphase := (inRange_of_run run).cycle
    rwa [hcycle] at hphase
  have hroutable := routable_process hrange buffers
  have hlength := length_process_le state buffers
  exact ⟨hrange,
    fun routed hrouted => ⟨hroutable routed hrouted, (hroutable routed hrouted).parsed⟩,
    hlength, published_of_routable hroutable (by omega)⟩

/-- A controller with a parameter and one without. -/
def twoControllers : Buffers :=
  ⟨true, none, some (.ok (Vector.ofFn fun i =>
    if i.val = 0 then some (.controlChange 16 0)
    else if i.val = 1 then some (.controlChange 1 0) else none)), none⟩

/-- The layer is switched and written, and then a cycle has two controllers to route. -/
theorem routed_of_run_two_controllers :
    (process ⟨lit "B", 0, 1⟩ twoControllers).routed.map (fun routed => routed.parameter.id) =
        [14, 0] ∧
      ∀ routed ∈ (process ⟨lit "B", 0, 1⟩ twoControllers).routed,
        (routed.parameter.id ≠ 0 ∧ Agrees routed.message (target routed)) ∨
          (routed.parameter = Parameters.none ∧ parseOscPath routed.message.address =
            .ok (.error (.invalidArgument (lit "unknown parameter")))) := by
  have htrace : exec (fun s a => if decide (SinglePop s a) then step s a else none)
      (initial initialState) (wholeCycle selectLayerB ++ List.replicate 4 .thread ++
        [.begin twoControllers, .cycle, .cycle]) =
      some ⟨⟨lit "B", 0, 1⟩, .empty, .ready twoControllers ⟨lit "B", 0, 1⟩, .waiting, false,
        [selectLayerB]⟩ :=
    rfl
  have hrun := run_of_checked (fun _ _ => of_decide_eq_true) htrace
  obtain ⟨-, hrouted, -⟩ := routed_of_run hrun rfl (Nat.le_refl 2320)
  exact ⟨by decide, fun routed hmem => (hrouted routed hmem).2⟩

end Pmx.MidiRouter
