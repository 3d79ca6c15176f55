import Pmx.Library.Transducer
import Pmx.MidiRouter

/-!
# Where the buffers end

The group port and the mix port read MIDI messages of which some switch the
layer, the bank or the selected channel for those behind them, in the same
buffer or in a later one.  Message by message, both ports are transducers
(`groupStep`, `mixStep`), and a call for a buffer runs them on its messages; so
the ends of the buffers make no difference, and a message is addressed by the
last switch in front of it.
-/

namespace Pmx.MidiRouter

open Cxx Osc

/-! ## One message -/

/-- The layer that a message switches to. -/
def switchedLayer : Message → Option Str
  | .controlChange ccNumber value => if ccNumber = 64 then some (requestedLayer value) else none
  | _ => none

/-- What the group port routes for a message on a layer. -/
def groupRouted (activeLayer : Str) : Message → List Routed
  | .controlChange ccNumber value =>
      if ccNumber = 64 then []
      else
        ((Parameters.findTargetParameterForGroupChannels ccNumber).map fun target =>
          (⟨.group, activeLayer, target.groupId, target.parameter, value⟩ : Routed)).toList
  | _ => []

/-- The bank that a message switches to. -/
def switchedBank : Message → Option UInt8
  | .noteOff note => bankNotes.lookup note
  | _ => none

/-- What the mix port routes for a message in a bank. -/
def mixRouted (activeLayer : Str) (baseChannelId : UInt8) : Message → List Routed
  | .controlChange ccNumber value =>
      [⟨.input, activeLayer,
        baseChannelId + (Parameters.findTargetParameterForInputMixChannels ccNumber).1,
        (Parameters.findTargetParameterForInputMixChannels ccNumber).2, value⟩]
  | _ => []

/-- The channel that a message selects in a bank. -/
def selectedBy (baseChannelId : UInt8) : Message → Option UInt8
  | .noteOff note =>
      if (bankNotes.lookup note).isSome then none
      else (selectionNotes.lookup note).map fun offset => baseChannelId + offset
  | _ => none

/-- The layer at a message, by the messages in front of it. -/
def layerBefore (start : Str) (earlier : List Message) : Str :=
  (earlier.reverse.findSome? switchedLayer).getD start

/-- The base channel at a message, by the messages in front of it. -/
def bankBefore (start : UInt8) (earlier : List Message) : UInt8 :=
  (earlier.reverse.findSome? switchedBank).getD start

/-- Every message routed on the layer in front of it. -/
def addressedByLayer (start : Str) (messages : List Message) : List Routed :=
  (messages.inits.zip messages).flatMap fun position =>
    groupRouted (layerBefore start position.1) position.2

/-- Every message routed in the bank in front of it. -/
def addressedByBank (activeLayer : Str) (start : UInt8) (messages : List Message) :
    List Routed :=
  (messages.inits.zip messages).flatMap fun position =>
    mixRouted activeLayer (bankBefore start position.1) position.2

/-! ## The ports as transducers -/

/-- What a message of the group port does to the layer, and what it routes. -/
def groupStep (activeLayer : Str) (message : Message) : Str × List Routed :=
  ((switchedLayer message).getD activeLayer, groupRouted activeLayer message)

/-- The state is the base channel and the selected channel. -/
def mixStep (activeLayer : Str) (numbers : UInt8 × UInt8) (message : Message) :
    (UInt8 × UInt8) × List Routed :=
  (((switchedBank message).getD numbers.1, (selectedBy numbers.1 message).getD numbers.2),
    mixRouted activeLayer numbers.1 message)

theorem groupChannelsStep_eq (activeLayer : Str) (routed : List Routed) (message : Message) :
    groupChannelsStep (activeLayer, routed) message =
      ((groupStep activeLayer message).1, routed ++ (groupStep activeLayer message).2) := by
  cases message with
  | controlChange ccNumber value =>
      unfold groupChannelsStep groupStep switchedLayer groupRouted
      dsimp only
      split_ifs with hselector
      · simp
      · cases Parameters.findTargetParameterForGroupChannels ccNumber <;> simp
  | noteOff note => simp [groupChannelsStep, groupStep, switchedLayer, groupRouted]
  | other => simp [groupChannelsStep, groupStep, switchedLayer, groupRouted]

theorem inputChannelsMixStep_eq (activeLayer : Str) (numbers : UInt8 × UInt8)
    (routed : List Routed) (message : Message) :
    inputChannelsMixStep activeLayer ⟨numbers.1, numbers.2, routed⟩ message =
      ⟨(mixStep activeLayer numbers message).1.1, (mixStep activeLayer numbers message).1.2,
        routed ++ (mixStep activeLayer numbers message).2⟩ := by
  cases message with
  | controlChange ccNumber value => rfl
  | noteOff note =>
      unfold inputChannelsMixStep mixStep switchedBank selectedBy mixRouted
      dsimp only
      cases hbank : bankNotes.lookup note with
      | some bank => simp
      | none => cases selectionNotes.lookup note <;> simp
  | other => simp [inputChannelsMixStep, mixStep, switchedBank, selectedBy, mixRouted]

theorem processGroupChannelsPort_eq_run (buffer : Buffer) (activeLayer : Str) :
    processGroupChannelsPort buffer activeLayer =
      Transducer.run groupStep activeLayer (getMidiMessages buffer) :=
  Transducer.foldl_eq_run Prod.mk groupChannelsStep_eq activeLayer [] (getMidiMessages buffer)

theorem processInputChannelsMixPort_eq_run (buffer : Buffer) (activeLayer : Str)
    (numbers : UInt8 × UInt8) :
    processInputChannelsMixPort buffer activeLayer numbers.1 numbers.2 =
      ⟨(Transducer.run (mixStep activeLayer) numbers (getMidiMessages buffer)).1.1,
        (Transducer.run (mixStep activeLayer) numbers (getMidiMessages buffer)).1.2,
        (Transducer.run (mixStep activeLayer) numbers (getMidiMessages buffer)).2⟩ :=
  Transducer.foldl_eq_run
    (fun (numbers : UInt8 × UInt8) routed => MixState.mk numbers.1 numbers.2 routed)
    (inputChannelsMixStep_eq activeLayer) numbers [] (getMidiMessages buffer)

/-! ## Buffer after buffer -/

/-- Calls of `process_group_channels_port`, each on the layer of the previous one. -/
def groupChannelsBuffers (activeLayer : Str) (buffers : List Buffer) : Str × List Routed :=
  Transducer.run (fun layer buffer => processGroupChannelsPort buffer layer) activeLayer buffers

/-- Calls of `process_input_channels_mix_port`, each on the numbers of the previous
one. -/
def inputChannelsMixBuffers (activeLayer : Str) (numbers : UInt8 × UInt8)
    (buffers : List Buffer) : (UInt8 × UInt8) × List Routed :=
  Transducer.run (fun current buffer =>
    let result := processInputChannelsMixPort buffer activeLayer current.1 current.2
    ((result.baseChannelId, result.selectedChannelId), result.routed)) numbers buffers

theorem groupChannelsBuffers_eq_run (activeLayer : Str) (buffers : List Buffer) :
    groupChannelsBuffers activeLayer buffers =
      Transducer.run groupStep activeLayer (buffers.flatMap getMidiMessages) := by
  rw [← Transducer.run_chunks]
  simp only [groupChannelsBuffers, processGroupChannelsPort_eq_run]

theorem inputChannelsMixBuffers_eq_run (activeLayer : Str) (numbers : UInt8 × UInt8)
    (buffers : List Buffer) :
    inputChannelsMixBuffers activeLayer numbers buffers =
      Transducer.run (mixStep activeLayer) numbers (buffers.flatMap getMidiMessages) := by
  rw [← Transducer.run_chunks]
  simp only [inputChannelsMixBuffers, processInputChannelsMixPort_eq_run]

/-- One of the two layers. -/
def IsLayer (activeLayer : Str) : Prop :=
  activeLayer = lit "A" ∨ activeLayer = lit "B"

/-- A base channel of one of the two banks, and a selected channel. -/
structure AreNumbers (numbers : UInt8 × UInt8) : Prop where
  base : numbers.1 = 0 ∨ numbers.1 = 8
  selected : 1 ≤ numbers.2.toNat ∧ numbers.2.toNat ≤ 16

theorem isLayer_groupStep (activeLayer : Str) (message : Message) (h : IsLayer activeLayer) :
    IsLayer (groupStep activeLayer message).1 := by
  unfold groupStep switchedLayer
  cases message with
  | controlChange ccNumber value =>
      dsimp only
      split_ifs
      · unfold IsLayer requestedLayer
        simp only [Option.getD_some]
        split_ifs
        · exact Or.inl rfl
        · exact Or.inr rfl
      · exact h
  | noteOff note => exact h
  | other => exact h

theorem areNumbers_mixStep (activeLayer : Str) (numbers : UInt8 × UInt8) (message : Message)
    (h : AreNumbers numbers) : AreNumbers (mixStep activeLayer numbers message).1 := by
  obtain ⟨hbase, hselected⟩ := h
  cases message with
  | controlChange ccNumber value => exact ⟨hbase, hselected⟩
  | other => exact ⟨hbase, hselected⟩
  | noteOff note =>
      simp only [mixStep, switchedBank, selectedBy]
      cases hbank : bankNotes.lookup note with
      | some bank => exact ⟨bank_of_note hbank, hselected⟩
      | none =>
          cases hnote : selectionNotes.lookup note with
          | none => exact ⟨hbase, hselected⟩
          | some offset => exact ⟨hbase, selected_of_note hnote hbase⟩

/-- The group port on a list of messages, in whatever buffers they come. -/
theorem groupChannelsBuffers_spec {start : Str} (hstart : IsLayer start)
    (buffers : List Buffer) :
    IsLayer (groupChannelsBuffers start buffers).1 ∧
      groupChannelsBuffers start buffers =
        (layerBefore start (buffers.flatMap getMidiMessages),
          addressedByLayer start (buffers.flatMap getMidiMessages)) := by
  have hstate : ∀ messages : List Message,
      (Transducer.run groupStep start messages).1 = layerBefore start messages :=
    Transducer.run_state_of_switch id switchedLayer (fun _ _ => rfl) start
  rw [groupChannelsBuffers_eq_run]
  refine ⟨Transducer.run_invariant isLayer_groupStep hstart _, Prod.ext (hstate _) ?_⟩
  rw [Transducer.run_output]
  simp only [hstate]
  rfl

/-- The mix port on a list of messages, in whatever buffers they come. -/
theorem inputChannelsMixBuffers_spec (activeLayer : Str) {numbers : UInt8 × UInt8}
    (hnumbers : AreNumbers numbers) (buffers : List Buffer) :
    AreNumbers (inputChannelsMixBuffers activeLayer numbers buffers).1 ∧
      (inputChannelsMixBuffers activeLayer numbers buffers).1.1 =
        bankBefore numbers.1 (buffers.flatMap getMidiMessages) ∧
      (inputChannelsMixBuffers activeLayer numbers buffers).2 =
        addressedByBank activeLayer numbers.1 (buffers.flatMap getMidiMessages) := by
  have hstate : ∀ messages : List Message,
      (Transducer.run (mixStep activeLayer) numbers messages).1.1 =
        bankBefore numbers.1 messages :=
    Transducer.run_state_of_switch Prod.fst switchedBank (fun _ _ => rfl) numbers
  rw [inputChannelsMixBuffers_eq_run]
  refine ⟨Transducer.run_invariant (areNumbers_mixStep activeLayer) hnumbers _, hstate _, ?_⟩
  rw [Transducer.run_output]
  simp only [mixStep, hstate]
  rfl

/-! ## Cuts -/

/-- A buffer of some messages. -/
def bufferOf (messages : List Message) : Buffer :=
  .ok (Vector.ofFn fun slot => messages[slot.val]?)

/-- A list of messages in consecutive pieces that a buffer can hold. -/
structure IsCut (messages : List Message) (pieces : List (List Message)) : Prop where
  flatten : pieces.flatten = messages
  fit : ∀ piece ∈ pieces, piece.length ≤ 16

theorem getMidiMessages_bufferOf {messages : List Message} (h : messages.length ≤ 16) :
    getMidiMessages (bufferOf messages) = messages :=
  filterMap_slots h

/-- The port gets all messages, in whatever buffers they come. -/
theorem getMidiMessages_of_cut {messages : List Message} {pieces : List (List Message)}
    (h : IsCut messages pieces) : (pieces.map bufferOf).flatMap getMidiMessages = messages := by
  obtain ⟨hflatten, hfit⟩ := h
  calc (pieces.map bufferOf).flatMap getMidiMessages
      = pieces.flatMap (fun piece => getMidiMessages (bufferOf piece)) := List.flatMap_map ..
    _ = pieces.flatMap id :=
        List.flatMap_congr fun piece hpiece => getMidiMessages_bufferOf (hfit piece hpiece)
    _ = messages := by rw [List.flatMap_id, hflatten]

/-- **Buffer boundaries do not matter.**  Two ways to cut the same messages give
the same messages and the same state; every state on the way is a valid one; and
each message is addressed by the last switch in front of it. -/
theorem cuts_agree {start : Str} {numbers : UInt8 × UInt8} (hstart : IsLayer start)
    (hnumbers : AreNumbers numbers) {messages : List Message} {pieces pieces' : List (List Message)}
    (hcut : IsCut messages pieces) (hcut' : IsCut messages pieces') :
    (groupChannelsBuffers start (pieces.map bufferOf) =
          groupChannelsBuffers start (pieces'.map bufferOf) ∧
        (∀ earlier, earlier <+: pieces →
          IsLayer (groupChannelsBuffers start (earlier.map bufferOf)).1) ∧
        groupChannelsBuffers start (pieces.map bufferOf) =
          (layerBefore start messages, addressedByLayer start messages)) ∧
      inputChannelsMixBuffers start numbers (pieces.map bufferOf) =
          inputChannelsMixBuffers start numbers (pieces'.map bufferOf) ∧
        (∀ earlier, earlier <+: pieces →
          AreNumbers (inputChannelsMixBuffers start numbers (earlier.map bufferOf)).1) ∧
        (inputChannelsMixBuffers start numbers (pieces.map bufferOf)).1.1 =
          bankBefore numbers.1 messages ∧
        (inputChannelsMixBuffers start numbers (pieces.map bufferOf)).2 =
          addressedByBank start numbers.1 messages := by
  have hread := getMidiMessages_of_cut hcut
  have hread' := getMidiMessages_of_cut hcut'
  have hgroup := groupChannelsBuffers_spec hstart (pieces.map bufferOf)
  have hmix := inputChannelsMixBuffers_spec start hnumbers (pieces.map bufferOf)
  rw [hread] at hgroup hmix
  refine ⟨⟨?_, fun earlier _ => (groupChannelsBuffers_spec hstart _).1, hgroup.2⟩, ?_,
    fun earlier _ => (inputChannelsMixBuffers_spec start hnumbers _).1, hmix.2⟩
  · rw [groupChannelsBuffers_eq_run, groupChannelsBuffers_eq_run, hread, hread']
  · rw [inputChannelsMixBuffers_eq_run, inputChannelsMixBuffers_eq_run, hread, hread']

/-- A layer switch between two controllers, and then a bank switch between two. -/
def switches : List Message :=
  [.controlChange 10 5, .controlChange 64 4294967295, .controlChange 10 6, .controlChange 16 7,
    .noteOff 26, .controlChange 16 8]

/-- All in one buffer, or the switches each at the end of one. -/
theorem cuts_agree_two_ways :
    groupChannelsBuffers (lit "A") [bufferOf switches] =
        groupChannelsBuffers (lit "A")
          [bufferOf (switches.take 2), bufferOf [], bufferOf (switches.drop 2)] ∧
      (groupChannelsBuffers (lit "A") [bufferOf switches]).1 = lit "B" ∧
        inputChannelsMixBuffers (lit "A") (0, 1) [bufferOf switches] =
          inputChannelsMixBuffers (lit "A") (0, 1)
            [bufferOf (switches.take 2), bufferOf [], bufferOf (switches.drop 2)] ∧
          (inputChannelsMixBuffers (lit "A") (0, 1) [bufferOf switches]).1.1 = 8 := by
  have hstart : IsLayer (lit "A") := Or.inl rfl
  have hnumbers : AreNumbers (0, 1) := ⟨Or.inl rfl, by decide⟩
  have hwhole : IsCut switches [switches] := ⟨rfl, by decide⟩
  have hpieces : IsCut switches [switches.take 2, [], switches.drop 2] := ⟨rfl, by decide⟩
  obtain ⟨⟨hgroup, -, hstate⟩, hmix, -, hbank, -⟩ := cuts_agree hstart hnumbers hwhole hpieces
  exact ⟨hgroup, congrArg Prod.fst hstate, hmix, hbank⟩

end Pmx.MidiRouter
