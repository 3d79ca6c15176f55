import Pmx.Osc.Message
import Pmx.Osc.Path

/-!
# pmx-midi-router

In every cycle the signal processor reads the active layer, the first channel of
the active bank and the selected channel, works off the MIDI messages of its
three ports in a fixed order and routes controls to OSC addresses on the way.
Some messages switch the layer, the bank or the selected channel instead; the
result of a cycle is the new state, and whether it differs from the old one.

The group port skips a controller that has no parameter.  The two input ports
route it to the parameter `none`.
-/

namespace Pmx.MidiRouter

open Cxx Osc

/-- `pwcpp::midi::message`, as far as the router looks at it. -/
inductive Message
  | controlChange (ccNumber : UInt8) (value : UInt32)
  | noteOff (note : UInt8)
  | other
  deriving DecidableEq, Repr

/-- What `parse_midi<16>` makes of the buffer of a port. -/
abbrev Buffer := Except Str (Vector (Option Message) 16)

/-- `get_midi_messages`; a buffer that cannot be parsed is logged. -/
def getMidiMessages : Buffer → List Message
  | .ok slots => slots.toList.filterMap id
  | .error _ => []

/-- A control that is routed to a channel. -/
structure Routed where
  channelType : ChannelType
  layer : Str
  channel : UInt8
  parameter : Parameter
  controlValue : UInt32

/-- The message written for a routed control. -/
def Routed.message (routed : Routed) : OscMessage :=
  let path :=
    match routed.channelType with
    | .group => buildGroupChannelOscPath routed.channel routed.parameter routed.layer
    | _ => buildInputChannelOscPath routed.channel routed.parameter routed.layer
  floatMessage path (Parameters.interpolate routed.parameter routed.controlValue)

/-! ## The ports -/

/-- `mid_point`. -/
def midPoint : UInt32 := 2147483647

/-- The layer that the layer selector asks for. -/
def requestedLayer (value : UInt32) : Str :=
  if value < midPoint then lit "A" else lit "B"

def groupChannelsStep (current : Str × List Routed) : Message → Str × List Routed
  | .controlChange ccNumber value =>
      if ccNumber = 64 then (requestedLayer value, current.2)
      else
        match Parameters.findTargetParameterForGroupChannels ccNumber with
        | some target =>
            (current.1,
              current.2 ++ [⟨.group, current.1, target.groupId, target.parameter, value⟩])
        | none => current
  | _ => current

/-- `process_group_channels_port`. -/
def processGroupChannelsPort (buffer : Buffer) (activeLayer : Str) : Str × List Routed :=
  (getMidiMessages buffer).foldl groupChannelsStep (activeLayer, [])

/-- `process_input_channels_port`. -/
def processInputChannelsPort (buffer : Buffer) (activeLayer : Str) (channelId : UInt8) :
    List Routed :=
  (getMidiMessages buffer).filterMap fun
    | .controlChange ccNumber value =>
        some ⟨.input, activeLayer, channelId,
          Parameters.findTargetParameterForInputChannels ccNumber, value⟩
    | _ => none

/-- The notes of the two bank switches, with the bank they ask for. -/
def bankNotes : List (UInt8 × UInt8) :=
  [(25, 0), (26, 8)]

/-- The notes that select a channel of the bank. -/
def selectionNotes : List (UInt8 × UInt8) :=
  [(3, 1), (6, 2), (9, 3), (12, 4), (15, 5), (18, 6), (21, 7), (24, 8)]

theorem bank_of_note {note bank : UInt8} (h : bankNotes.lookup note = some bank) :
    bank = 0 ∨ bank = 8 := by
  have hall : ∀ n ∈ bankNotes.map fun entry => entry.2.toNat, n = 0 ∨ n = 8 := by decide
  rcases hall _ (List.mem_map.mpr ⟨_, mem_of_lookup h, rfl⟩) with h0 | h8
  · exact Or.inl (UInt8.toNat_inj.mp h0)
  · exact Or.inr (UInt8.toNat_inj.mp h8)

/-- A channel of a bank does not overflow. -/
theorem toNat_base_add {base channel : UInt8} (hbase : base = 0 ∨ base = 8)
    (hchannel : channel.toNat ≤ 8) :
    (base + channel).toNat = base.toNat + channel.toNat ∧ base.toNat ≤ 8 := by
  have hle : base.toNat ≤ 8 := by
    rcases hbase with rfl | rfl <;> decide
  rw [UInt8.toNat_add]
  omega

theorem selected_of_note {note offset base : UInt8}
    (h : selectionNotes.lookup note = some offset) (hbase : base = 0 ∨ base = 8) :
    1 ≤ (base + offset).toNat ∧ (base + offset).toNat ≤ 16 := by
  have hall : ∀ n ∈ selectionNotes.map fun entry => entry.2.toNat, 1 ≤ n ∧ n ≤ 8 := by decide
  have hoffset : 1 ≤ offset.toNat ∧ offset.toNat ≤ 8 :=
    hall _ (List.mem_map.mpr ⟨_, mem_of_lookup h, rfl⟩)
  obtain ⟨hsum, hle⟩ := toNat_base_add hbase hoffset.2
  omega

/-- What the mix port works on. -/
structure MixState where
  baseChannelId : UInt8
  selectedChannelId : UInt8
  routed : List Routed

def inputChannelsMixStep (activeLayer : Str) (current : MixState) : Message → MixState
  | .controlChange ccNumber value =>
      let target := Parameters.findTargetParameterForInputMixChannels ccNumber
      { current with routed := current.routed ++
          [⟨.input, activeLayer, current.baseChannelId + target.1, target.2, value⟩] }
  | .noteOff note =>
      match bankNotes.lookup note with
      | some bank => { current with baseChannelId := bank }
      | none =>
          match selectionNotes.lookup note with
          | some offset => { current with selectedChannelId := current.baseChannelId + offset }
          | none => current
  | .other => current

/-- `process_input_channels_mix_port`. -/
def processInputChannelsMixPort (buffer : Buffer) (activeLayer : Str)
    (baseChannelId selectedChannelId : UInt8) : MixState :=
  (getMidiMessages buffer).foldl (inputChannelsMixStep activeLayer)
    ⟨baseChannelId, selectedChannelId, []⟩

/-! ## A cycle -/

/-- The three node parameters.  They hold a string and two `int`s at the start,
and the router only ever writes these types. -/
@[ext] structure RouterState where
  activeLayer : Str
  baseChannelId : ℤ
  selectedChannelId : ℤ
  deriving DecidableEq, Repr

/-- The buffers of a cycle. -/
structure Buffers where
  outBuffer : Bool
  groupChannels : Option Buffer
  inputChannelsMix : Option Buffer
  inputChannels : Option Buffer

/-- What a cycle leaves: the state, whether it is to be pushed, and the controls routed. -/
structure Result where
  state : RouterState
  changes : Bool
  routed : List Routed

/-- The group port of a cycle. -/
def groupChannels (state : RouterState) : Option Buffer → Result
  | none => ⟨state, false, []⟩
  | some buffer =>
      let result := processGroupChannelsPort buffer state.activeLayer
      ⟨{ state with activeLayer := result.1 }, result.1 ≠ state.activeLayer, result.2⟩

/-- The mix port of a cycle: numbers come back as `uint8_t` and are compared with
the `int`s they were made from. -/
def inputChannelsMix (state : RouterState) : Option Buffer → Result
  | none => ⟨state, false, []⟩
  | some buffer =>
      let result := processInputChannelsMixPort buffer state.activeLayer
        (UInt8.ofInt state.baseChannelId) (UInt8.ofInt state.selectedChannelId)
      ⟨{ state with
          baseChannelId := result.baseChannelId.toNat
          selectedChannelId := result.selectedChannelId.toNat },
        (result.baseChannelId.toNat : ℤ) ≠ state.baseChannelId ∨
          (result.selectedChannelId.toNat : ℤ) ≠ state.selectedChannelId,
        result.routed⟩

/-- The input channel port of a cycle. -/
def inputChannels (state : RouterState) : Option Buffer → List Routed
  | none => []
  | some buffer =>
      processInputChannelsPort buffer state.activeLayer (UInt8.ofInt state.selectedChannelId)

/-- The signal processor on the state it has read.  Without an output buffer it
returns at once. -/
def process (state : RouterState) (buffers : Buffers) : Result :=
  if buffers.outBuffer = false then ⟨state, false, []⟩
  else
    let group := groupChannels state buffers.groupChannels
    let mix := inputChannelsMix group.state buffers.inputChannelsMix
    ⟨mix.state, group.changes || mix.changes,
      group.routed ++ mix.routed ++ inputChannels mix.state buffers.inputChannels⟩

/-- Cycles that each start from the state the previous one left. -/
def processAll (state : RouterState) : List Buffers → RouterState × List Routed
  | [] => (state, [])
  | buffers :: rest =>
      let result := process state buffers
      let remaining := processAll result.state rest
      (remaining.1, result.routed ++ remaining.2)

/-- The start values of the parameters. -/
def initialState : RouterState :=
  ⟨lit "A", 0, 1⟩

/-- An `int` in the range of `uint8_t` survives the conversion. -/
theorem toNat_ofInt {n : ℤ} (hlow : 0 ≤ n) (hhigh : n ≤ 255) : ((UInt8.ofInt n).toNat : ℤ) = n := by
  unfold UInt8.ofInt
  rw [UInt8.toNat_ofNat']
  omega

/-- The signal processor pushes exactly when its state has changed. -/
theorem changes_iff (state : RouterState) (buffers : Buffers) :
    (process state buffers).changes = true ↔ (process state buffers).state ≠ state := by
  have hgroup : ∀ buffer, (groupChannels state buffer).changes = true ↔
      (groupChannels state buffer).state.activeLayer ≠ state.activeLayer := by
    intro buffer
    cases buffer <;> simp [groupChannels]
  have hmix : ∀ (current : RouterState) buffer, (inputChannelsMix current buffer).changes = true ↔
      (inputChannelsMix current buffer).state.baseChannelId ≠ current.baseChannelId ∨
        (inputChannelsMix current buffer).state.selectedChannelId ≠
          current.selectedChannelId := by
    intro current buffer
    cases buffer <;> simp [inputChannelsMix]
  unfold process
  split_ifs
  · simp
  · simp only [Bool.or_eq_true, hgroup, hmix]
    -- the group port keeps the numbers, the mix port keeps the layer
    have hlayer : ∀ (current : RouterState) buffer,
        (inputChannelsMix current buffer).state.activeLayer = current.activeLayer := by
      intro current buffer
      cases buffer <;> rfl
    have hnumbers : ∀ buffer,
        (groupChannels state buffer).state.baseChannelId = state.baseChannelId ∧
          (groupChannels state buffer).state.selectedChannelId = state.selectedChannelId := by
      intro buffer
      cases buffer <;> exact ⟨rfl, rfl⟩
    rw [(hnumbers _).1, (hnumbers _).2, ne_eq, ne_eq, ne_eq, ne_eq, RouterState.ext_iff, hlayer]
    tauto

end Pmx.MidiRouter
