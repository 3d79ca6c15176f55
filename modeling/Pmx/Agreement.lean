import Pmx.MidiRouter
import Pmx.TraktorZ1.Delta

/-!
# Producers and consumer of pmx-osc

The MIDI router and the Z1 router write addresses that
`pmx-filter-chain-ctrl` parses.  A message `Agrees` when the consumer decodes it
to what the producer routed it to and its value is one that the parameter takes.

The MIDI router keeps its layer, bank and selected channel in range over any
run, so its messages agree as long as the controllers of the two input ports
have a parameter.  The Z1 router publishes the positions of its controls as they
are, and controls that the parser does not know.
-/

namespace Pmx.Agreement

open Cxx Osc MidiRouter DeltaEncoding

/-- The consumer decodes a message to `target` and finds an admissible value. -/
def Agrees (message : OscMessage) (target : Option OscPath) : Prop :=
  ∃ path value, parseOscPath message.address = .ok (.ok path) ∧ target = some path ∧
    message.float32 = .ok value ∧ path.parameter.min ≤ value ∧ value ≤ path.parameter.max ∧
    (path.channelType = .input → 1 ≤ path.channelId ∧ path.channelId ≤ 16) ∧
    (path.channelType = .group → 1 ≤ path.channelId ∧ path.channelId ≤ 4)

/-! ## The MIDI router -/

/-- The layer that a text stands for. -/
def layerOfText (text : Str) : Option Layer :=
  if text = lit "A" then some .A else if text = lit "B" then some .B else none

/-- What the MIDI router has routed a control to. -/
def target (routed : Routed) : Option OscPath :=
  (layerOfText routed.layer).map fun layer =>
    ⟨routed.channel.toNat, routed.channelType, layer, routed.parameter⟩

theorem layerOfText_text (layer : Layer) : layerOfText layer.text = some layer := by
  cases layer <;> decide

/-- An interpolated value is always admissible. -/
theorem agrees_of_parse {routed : Routed} {layer : Layer} (htext : routed.layer = layer.text)
    (hparse : parseOscPath routed.message.address =
      .ok (.ok ⟨routed.channel.toNat, routed.channelType, layer, routed.parameter⟩))
    (hinput : routed.channelType = .input →
      1 ≤ routed.channel.toNat ∧ routed.channel.toNat ≤ 16)
    (hgroup : routed.channelType = .group →
      1 ≤ routed.channel.toNat ∧ routed.channel.toNat ≤ 4) :
    Agrees routed.message (target routed) := by
  have htarget : target routed =
      some ⟨routed.channel.toNat, routed.channelType, layer, routed.parameter⟩ := by
    rw [target, htext, layerOfText_text]
    rfl
  obtain ⟨hmin, hmax⟩ := Parameters.interpolate_mem routed.parameter routed.controlValue
  exact ⟨_, _, hparse, htarget, float32_floatMessage _ _, hmin, hmax, hinput, hgroup⟩

theorem agrees_group (layer : Layer) {channel : UInt8}
    (hchannel : 1 ≤ channel.toNat ∧ channel.toNat ≤ 4) {parameter : Parameter}
    (hmem : parameter ∈ Parameters.all) (hid : parameter.id ≠ 0) (value : UInt32) :
    Agrees (Routed.message ⟨.group, layer.text, channel, parameter, value⟩)
      (target ⟨.group, layer.text, channel, parameter, value⟩) := by
  have hdigits : channel.toNat ≤ 99 := by omega
  have hletter : channelTypeOf 'G'.toUInt8 = some .group := by decide
  refine agrees_of_parse rfl
    (parse_build_of_mem hletter layer hdigits hmem hid) ?_ (fun _ => hchannel)
  intro htype
  cases htype

theorem agrees_input (layer : Layer) {channel : UInt8}
    (hchannel : 1 ≤ channel.toNat ∧ channel.toNat ≤ 16) {parameter : Parameter}
    (hmem : parameter ∈ Parameters.all) (hid : parameter.id ≠ 0) (value : UInt32) :
    Agrees (Routed.message ⟨.input, layer.text, channel, parameter, value⟩)
      (target ⟨.input, layer.text, channel, parameter, value⟩) := by
  have hdigits : channel.toNat ≤ 99 := by omega
  have hletter : channelTypeOf 'I'.toUInt8 = some .input := by decide
  refine agrees_of_parse rfl
    (parse_build_of_mem hletter layer hdigits hmem hid) (fun _ => hchannel) ?_
  intro htype
  cases htype

/-- The consumer rejects what is routed to the parameter `none`. -/
theorem not_agrees_none (layer : Layer) {channel : UInt8} (hchannel : channel.toNat ≤ 99)
    (value : UInt32) (target : Option OscPath) :
    ¬ Agrees (Routed.message ⟨.input, layer.text, channel, Parameters.none, value⟩) target := by
  rintro ⟨path, _, hparse, _⟩
  have hletter : channelTypeOf 'I'.toUInt8 = some .input := by decide
  have hrejected : parseOscPath
      (Routed.message ⟨.input, layer.text, channel, Parameters.none, value⟩).address =
        .ok (.error (.invalidArgument (lit "unknown parameter"))) :=
    parse_build_none hletter layer hchannel
  rw [hrejected] at hparse
  cases hparse

/-- The states that the router can be in. -/
structure InRange (state : RouterState) : Prop where
  layer : ∃ layer : Layer, state.activeLayer = layer.text
  base : state.baseChannelId = 0 ∨ state.baseChannelId = 8
  selected : 1 ≤ state.selectedChannelId ∧ state.selectedChannelId ≤ 16

/-- The controllers on the two input ports have a parameter. -/
def Mapped (buffers : Buffers) : Prop :=
  buffers.outBuffer = true →
    (∀ buffer, buffers.inputChannelsMix = some buffer → ∀ ccNumber value,
      .controlChange ccNumber value ∈ getMidiMessages buffer →
        Parameters.IsInputMixController ccNumber) ∧
    ∀ buffer, buffers.inputChannels = some buffer → ∀ ccNumber value,
      .controlChange ccNumber value ∈ getMidiMessages buffer →
        Parameters.IsInputController ccNumber

theorem exists_requestedLayer (value : UInt32) :
    ∃ layer : Layer, requestedLayer value = layer.text := by
  unfold requestedLayer
  split
  · exact ⟨.A, rfl⟩
  · exact ⟨.B, rfl⟩

/-- What the group port carries: a layer, and routed controls that agree. -/
structure GroupAgrees (current : Str × List Routed) : Prop where
  layer : ∃ layer : Layer, current.1 = layer.text
  routed : ∀ routed ∈ current.2, Agrees routed.message (target routed)

theorem groupChannelsStep_agrees {current : Str × List Routed} (hcurrent : GroupAgrees current)
    (message : Message) : GroupAgrees (groupChannelsStep current message) := by
  cases message with
  | controlChange ccNumber value =>
      by_cases hselector : ccNumber = 64
      · rw [groupChannelsStep, if_pos hselector]
        exact ⟨exists_requestedLayer value, hcurrent.routed⟩
      · rw [groupChannelsStep, if_neg hselector]
        cases htarget : Parameters.findTargetParameterForGroupChannels ccNumber with
        | none => exact hcurrent
        | some found =>
            obtain ⟨layer, htext⟩ := hcurrent.layer
            obtain ⟨hlow, hhigh, hmem, hid⟩ := Parameters.groupChannels_target htarget
            refine ⟨⟨layer, htext⟩, ?_⟩
            rw [List.forall_mem_append, List.forall_mem_singleton, htext]
            exact ⟨hcurrent.routed, agrees_group layer ⟨hlow, hhigh⟩ hmem hid value⟩
  | noteOff note => exact hcurrent
  | other => exact hcurrent

/-- The group port leaves a layer, and everything it routes agrees. -/
theorem groupPort_agrees (buffer : Buffer) {activeLayer : Str}
    (hlayer : ∃ layer : Layer, activeLayer = layer.text) :
    GroupAgrees (processGroupChannelsPort buffer activeLayer) := by
  unfold processGroupChannelsPort
  apply List.foldlRecOn (motive := GroupAgrees)
  · exact ⟨hlayer, fun _ h => absurd h List.not_mem_nil⟩
  · intro current hcurrent message _
    exact groupChannelsStep_agrees hcurrent message

/-- Bank and selection of the mix port. -/
structure MixInRange (current : MixState) : Prop where
  base : current.baseChannelId = 0 ∨ current.baseChannelId = 8
  selected : 1 ≤ current.selectedChannelId.toNat ∧ current.selectedChannelId.toNat ≤ 16

/-- A controller of the mix port reaches a channel of the bank, or `none`. -/
theorem agrees_mix_iff (layer : Layer) {base : UInt8} (hbase : base = 0 ∨ base = 8)
    (ccNumber : UInt8) (value : UInt32) {routed : Routed}
    (hrouted : routed = ⟨.input, layer.text,
      base + (Parameters.findTargetParameterForInputMixChannels ccNumber).1,
      (Parameters.findTargetParameterForInputMixChannels ccNumber).2, value⟩) :
    Agrees routed.message (target routed) ↔ Parameters.IsInputMixController ccNumber := by
  rcases Parameters.inputMixChannels_target ccNumber with
    ⟨hmapped, channel, parameter, htarget, hlow, hhigh, hmem, hid⟩ | ⟨hunmapped, htarget⟩
  · rw [hrouted, htarget]
    obtain ⟨hchannel, hle⟩ := toNat_base_add hbase hhigh
    have hrange : 1 ≤ (base + channel).toNat ∧ (base + channel).toNat ≤ 16 := by omega
    exact iff_of_true (agrees_input layer hrange hmem hid value) hmapped
  · rw [hrouted, htarget]
    obtain ⟨hchannel, hle⟩ := toNat_base_add hbase (show (0 : UInt8).toNat ≤ 8 by decide)
    have hdigits : (base + 0).toNat ≤ 99 := by
      rw [hchannel]
      exact Nat.le_trans (Nat.add_le_add_right hle _) (by decide)
    exact iff_of_false (not_agrees_none layer hdigits value _) hunmapped

/-- A message of the mix port is no controller, or one that has a parameter. -/
def MixMapped (message : Message) : Prop :=
  ∀ ccNumber value, message = .controlChange ccNumber value →
    Parameters.IsInputMixController ccNumber

theorem forall_mixMapped {messages : List Message} :
    (∀ message ∈ messages, MixMapped message) ↔
      ∀ ccNumber value, .controlChange ccNumber value ∈ messages →
        Parameters.IsInputMixController ccNumber := by
  constructor
  · intro hmapped ccNumber value hmessage
    exact hmapped _ hmessage ccNumber value rfl
  · rintro hmapped message hmessage ccNumber value rfl
    exact hmapped ccNumber value hmessage

/-- One message keeps the numbers in range, and routes what agrees exactly if it
is mapped. -/
theorem mixStep_agrees (layer : Layer) {current : MixState} (hrange : MixInRange current)
    (message : Message) :
    MixInRange (inputChannelsMixStep layer.text current message) ∧
      ((∀ routed ∈ (inputChannelsMixStep layer.text current message).routed,
          Agrees routed.message (target routed)) ↔
        (∀ routed ∈ current.routed, Agrees routed.message (target routed)) ∧
          MixMapped message) := by
  cases message with
  | controlChange ccNumber value =>
      refine ⟨⟨hrange.base, hrange.selected⟩, ?_⟩
      have hnew := agrees_mix_iff layer hrange.base ccNumber value rfl
      rw [inputChannelsMixStep, List.forall_mem_append, List.forall_mem_singleton, hnew]
      simp [MixMapped]
  | noteOff note =>
      -- notes move the numbers, and route nothing
      have hnext : MixInRange (inputChannelsMixStep layer.text current (.noteOff note)) ∧
          (inputChannelsMixStep layer.text current (.noteOff note)).routed = current.routed := by
        simp only [inputChannelsMixStep]
        cases hbank : bankNotes.lookup note with
        | some bank => exact ⟨⟨bank_of_note hbank, hrange.selected⟩, rfl⟩
        | none =>
            cases hselection : selectionNotes.lookup note with
            | some offset => exact ⟨⟨hrange.base, selected_of_note hselection hrange.base⟩, rfl⟩
            | none => exact ⟨hrange, rfl⟩
      rw [hnext.2]
      exact ⟨hnext.1, by simp [MixMapped]⟩
  | other => exact ⟨hrange, by simp [MixMapped, inputChannelsMixStep]⟩

/-- The mix port keeps its numbers in range, and what it routes agrees exactly if
its controllers have a parameter. -/
theorem mixPort_agrees (layer : Layer) (messages : List Message) {current : MixState}
    (hrange : MixInRange current) :
    MixInRange (messages.foldl (inputChannelsMixStep layer.text) current) ∧
      ((∀ routed ∈ (messages.foldl (inputChannelsMixStep layer.text) current).routed,
          Agrees routed.message (target routed)) ↔
        (∀ routed ∈ current.routed, Agrees routed.message (target routed)) ∧
          ∀ message ∈ messages, MixMapped message) := by
  induction messages generalizing current with
  | nil => simp [hrange]
  | cons message rest ih =>
      obtain ⟨hnext, hstep⟩ := mixStep_agrees layer hrange message
      obtain ⟨hfinal, hrest⟩ := ih hnext
      rw [List.foldl_cons]
      refine ⟨hfinal, ?_⟩
      rw [hrest, hstep, List.forall_mem_cons, and_assoc]

/-- What the input channel port routes agrees exactly if its controllers have a
parameter. -/
theorem inputPort_agrees (layer : Layer) (buffer : Buffer) {channelId : UInt8}
    (hchannel : 1 ≤ channelId.toNat ∧ channelId.toNat ≤ 16) :
    (∀ routed ∈ processInputChannelsPort buffer layer.text channelId,
        Agrees routed.message (target routed)) ↔
      ∀ ccNumber value, .controlChange ccNumber value ∈ getMidiMessages buffer →
        Parameters.IsInputController ccNumber := by
  have hone : ∀ ccNumber value, Agrees
      (Routed.message ⟨.input, layer.text, channelId,
        Parameters.findTargetParameterForInputChannels ccNumber, value⟩)
      (target ⟨.input, layer.text, channelId,
        Parameters.findTargetParameterForInputChannels ccNumber, value⟩) ↔
      Parameters.IsInputController ccNumber := by
    intro ccNumber value
    rcases Parameters.inputChannels_target ccNumber with ⟨hmapped, hmem, hid⟩ | ⟨hunmapped, hnone⟩
    · exact iff_of_true (agrees_input layer hchannel hmem hid value) hmapped
    · rw [hnone]
      exact iff_of_false (not_agrees_none layer (by omega) value _) hunmapped
  constructor
  · intro hagrees ccNumber value hmessage
    refine (hone ccNumber value).mp (hagrees _ ?_)
    exact List.mem_filterMap.mpr ⟨_, hmessage, rfl⟩
  · intro hmapped routed hrouted
    obtain ⟨message, hmessage, hsome⟩ := List.mem_filterMap.mp hrouted
    cases message with
    | controlChange ccNumber value =>
        cases hsome
        exact (hone ccNumber value).mpr (hmapped ccNumber value hmessage)
    | noteOff note => cases hsome
    | other => cases hsome

/-! ### Cycles -/

theorem groupChannels_agrees {state : RouterState} (hrange : InRange state)
    (buffer? : Option Buffer) :
    InRange (groupChannels state buffer?).state ∧
      ∀ routed ∈ (groupChannels state buffer?).routed, Agrees routed.message (target routed) := by
  cases buffer? with
  | none => exact ⟨hrange, by simp [groupChannels]⟩
  | some buffer =>
      obtain ⟨hlayer, hagrees⟩ := groupPort_agrees buffer hrange.layer
      exact ⟨⟨hlayer, hrange.base, hrange.selected⟩, hagrees⟩

theorem inputChannelsMix_agrees {state : RouterState} (hrange : InRange state)
    (buffer? : Option Buffer) :
    InRange (inputChannelsMix state buffer?).state ∧
      ((∀ routed ∈ (inputChannelsMix state buffer?).routed,
          Agrees routed.message (target routed)) ↔
        ∀ buffer, buffer? = some buffer → ∀ ccNumber value,
          .controlChange ccNumber value ∈ getMidiMessages buffer →
            Parameters.IsInputMixController ccNumber) := by
  cases buffer? with
  | none => exact ⟨hrange, by simp [inputChannelsMix]⟩
  | some buffer =>
      obtain ⟨⟨layer, htext⟩, hbase, hlow, hhigh⟩ := hrange
      have hselected := toNat_ofInt (n := state.selectedChannelId) (by omega) (by omega)
      have hstart : MixInRange
          ⟨UInt8.ofInt state.baseChannelId, UInt8.ofInt state.selectedChannelId, []⟩ := by
        constructor
        · rcases hbase with hbase | hbase
          · exact Or.inl (by rw [hbase]; rfl)
          · exact Or.inr (by rw [hbase]; rfl)
        · show 1 ≤ (UInt8.ofInt state.selectedChannelId).toNat ∧
            (UInt8.ofInt state.selectedChannelId).toNat ≤ 16
          omega
      obtain ⟨hfinal, hagrees⟩ := mixPort_agrees layer (getMidiMessages buffer) hstart
      rw [← htext] at hfinal hagrees
      constructor
      · refine ⟨⟨layer, htext⟩, ?_, ?_, ?_⟩
        · rcases hfinal.base with h | h
          · exact Or.inl (by simp only [inputChannelsMix, processInputChannelsMixPort, h]; rfl)
          · exact Or.inr (by simp only [inputChannelsMix, processInputChannelsMixPort, h]; rfl)
        · exact Int.ofNat_le.mpr hfinal.selected.1
        · exact Int.ofNat_le.mpr hfinal.selected.2
      · rw [forall_mixMapped] at hagrees
        simpa [inputChannelsMix, processInputChannelsMixPort] using hagrees

theorem inputChannels_agrees {state : RouterState} (hrange : InRange state)
    (buffer? : Option Buffer) :
    (∀ routed ∈ inputChannels state buffer?, Agrees routed.message (target routed)) ↔
      ∀ buffer, buffer? = some buffer → ∀ ccNumber value,
        .controlChange ccNumber value ∈ getMidiMessages buffer →
          Parameters.IsInputController ccNumber := by
  cases buffer? with
  | none => simp [inputChannels]
  | some buffer =>
      obtain ⟨⟨layer, htext⟩, _, hlow, hhigh⟩ := hrange
      have hselected := toNat_ofInt (n := state.selectedChannelId) (by omega) (by omega)
      rw [inputChannels, htext, inputPort_agrees layer buffer ⟨by omega, by omega⟩]
      simp

/-- **One cycle.**  The state stays in range, and the messages agree exactly if
the controllers of the input ports have a parameter. -/
theorem process_agrees {state : RouterState} (hrange : InRange state) (buffers : Buffers) :
    InRange (process state buffers).state ∧
      ((∀ routed ∈ (process state buffers).routed, Agrees routed.message (target routed)) ↔
        Mapped buffers) := by
  unfold process Mapped
  by_cases hout : buffers.outBuffer = false
  · rw [if_pos hout]
    exact ⟨hrange, by simp [hout]⟩
  rw [if_neg hout]
  obtain ⟨hgroup, hgroupAgrees⟩ := groupChannels_agrees hrange buffers.groupChannels
  obtain ⟨hmix, hmixAgrees⟩ := inputChannelsMix_agrees hgroup buffers.inputChannelsMix
  refine ⟨hmix, ?_⟩
  rw [List.forall_mem_append, List.forall_mem_append, hmixAgrees,
    inputChannels_agrees hmix buffers.inputChannels]
  simp only [Bool.not_eq_false] at hout
  constructor
  · rintro ⟨⟨_, hmixMapped⟩, hinputMapped⟩ _
    exact ⟨hmixMapped, hinputMapped⟩
  · intro hmapped
    exact ⟨⟨hgroupAgrees, (hmapped hout).1⟩, (hmapped hout).2⟩

/-- **A run from any state in range.** -/
theorem processAll_agrees (cycles : List Buffers) {state : RouterState} (hrange : InRange state) :
    (∀ routed ∈ (processAll state cycles).2, Agrees routed.message (target routed)) ↔
      ∀ buffers ∈ cycles, Mapped buffers := by
  induction cycles generalizing state with
  | nil => simp [processAll]
  | cons buffers rest ih =>
      obtain ⟨hnext, hagrees⟩ := process_agrees hrange buffers
      rw [processAll, List.forall_mem_append, List.forall_mem_cons, hagrees, ih hnext]

theorem initial_inRange : InRange initialState :=
  ⟨⟨.A, rfl⟩, Or.inl rfl, by decide, by decide⟩

/-! ## The Z1 router -/

/-- What the router means by the address of a control: the equalizers of the two
layers.  The other controls have no parameter. -/
def fieldTarget : TraktorZ1.Field → Option OscPath
  | .hiL => some ⟨1, .layer, .A, Parameters.equalizerHigh⟩
  | .midL => some ⟨1, .layer, .A, Parameters.equalizerMid⟩
  | .lowL => some ⟨1, .layer, .A, Parameters.equalizerLow⟩
  | .faderL => some ⟨1, .layer, .A, Parameters.equalizerMaster⟩
  | .hiR => some ⟨1, .layer, .B, Parameters.equalizerHigh⟩
  | .midR => some ⟨1, .layer, .B, Parameters.equalizerMid⟩
  | .lowR => some ⟨1, .layer, .B, Parameters.equalizerLow⟩
  | .faderR => some ⟨1, .layer, .B, Parameters.equalizerMaster⟩
  | _ => none

theorem parse_of_target {f : TraktorZ1.Field} {decoded : OscPath}
    (h : fieldTarget f = some decoded) : parseOscPath f.path = .ok (.ok decoded) := by
  cases f <;> simp only [fieldTarget, reduceCtorEq] at h <;> cases h <;> rfl

theorem range_of_target {f : TraktorZ1.Field} {decoded : OscPath}
    (h : fieldTarget f = some decoded) :
    decoded.channelType = .layer ∧ decoded.parameter.min = -24 ∧ decoded.parameter.max = 24 := by
  cases f <;> simp only [fieldTarget, reduceCtorEq] at h <;> cases h <;> exact ⟨rfl, rfl, rfl⟩

/-- The position of a control as a message: only the lowest 25 positions of an
equalizer are gains. -/
theorem agrees_field_iff (f : TraktorZ1.Field) (value : UInt16) :
    Agrees (TraktorZ1.oscMessage (f.path, value)) (fieldTarget f) ↔
      (fieldTarget f).isSome ∧ value.toNat ≤ 24 := by
  constructor
  · rintro ⟨path, float, _, htarget, hfloat, _, hmax, _⟩
    have hvalue : float = value.toNat := by
      cases hfloat
      rfl
    rw [hvalue, (range_of_target htarget).2.2] at hmax
    exact ⟨Option.isSome_iff_exists.mpr ⟨path, htarget⟩, by exact_mod_cast hmax⟩
  · rintro ⟨hsome, hle⟩
    obtain ⟨path, htarget⟩ := Option.isSome_iff_exists.mp hsome
    obtain ⟨htype, hmin, hmax⟩ := range_of_target htarget
    refine ⟨path, value.toNat, parse_of_target htarget, htarget, rfl, ?_, ?_, ?_, ?_⟩
    · rw [hmin]
      exact le_trans (by norm_num) (Nat.cast_nonneg value.toNat)
    · rw [hmax]
      exact_mod_cast hle
    · intro hinput
      rw [htype] at hinput
      cases hinput
    · intro hgroup
      rw [htype] at hgroup
      cases hgroup

/-- **Agreement.**  Every message of both routers agrees exactly if the MIDI
controllers on the input ports have a parameter, and only equalizer controls of
the Z1 move, to positions up to 24. -/
theorem producers_agree_iff (midiCycles : List Buffers) (z1Cycles : List TraktorZ1.Cycle) :
    ((∀ routed ∈ (processAll initialState midiCycles).2,
        Agrees routed.message (target routed)) ∧
      ∀ message ∈ TraktorZ1.written TraktorZ1.initial z1Cycles,
        ∃ f, f.path = message.address ∧ Agrees message (fieldTarget f)) ↔
      (∀ buffers ∈ midiCycles, Mapped buffers) ∧
        ∀ pair ∈ consecutive (TraktorZ1.popped z1Cycles), ∀ f, pair.1.get f ≠ pair.2.get f →
          (fieldTarget f).isSome ∧ (pair.2.get f).toNat ≤ 24 := by
  have hwritten : TraktorZ1.written TraktorZ1.initial z1Cycles =
      (consecutive (TraktorZ1.popped z1Cycles)).flatMap TraktorZ1.messages :=
    TraktorZ1.written_eq z1Cycles TraktorZ1.initial
  rw [processAll_agrees midiCycles initial_inRange, hwritten]
  refine and_congr_right fun _ => ?_
  constructor
  · intro hagrees pair hpair f hmoved
    -- the address of a message tells which control has moved
    obtain ⟨g, hpath, hg⟩ := hagrees _
      (List.mem_flatMap.mpr ⟨pair, hpair, TraktorZ1.mem_messages.mpr ⟨f, hmoved, rfl⟩⟩)
    rw [TraktorZ1.path_injective hpath] at hg
    exact (agrees_field_iff f _).mp hg
  · intro hcondition message hmessage
    obtain ⟨pair, hpair, hmessage⟩ := List.mem_flatMap.mp hmessage
    obtain ⟨f, hmoved, rfl⟩ := TraktorZ1.mem_messages.mp hmessage
    exact ⟨f, rfl, (agrees_field_iff f _).mpr (hcondition pair hpair f hmoved)⟩

/-- A controller without a parameter, as the first message on the input port. -/
def unmappedController : Buffers :=
  ⟨true, none, none, some (.ok (Vector.ofFn fun i =>
    if i.val = 0 then some (.controlChange 0 0) else none))⟩

/-- The router publishes a message for it that the consumer rejects. -/
theorem unmapped_controller_rejected :
    ¬ ∀ routed ∈ (processAll initialState [unmappedController]).2,
      Agrees routed.message (target routed) := by
  rw [processAll_agrees _ initial_inRange]
  intro hmapped
  have hcontroller := (hmapped unmappedController (List.mem_singleton.mpr rfl) rfl).2 _ rfl 0 0
    (by decide)
  unfold Parameters.IsInputController at hcontroller
  revert hcontroller
  decide

end Pmx.Agreement
