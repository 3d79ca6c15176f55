import Pmx.FilterChainCtrl.Packets

/-!
# Independence of the packets

The packets of one buffer come from any sender, with any arguments.  An entry
for the queue needs a node id under the parameter of the packet's chain and a
float as the first argument; a packet without a node id is skipped before its
arguments are read, and a packet with one raises when the argument is not a
float.  Nothing catches that, so the packets behind it are lost.

`entryOf` is what a packet is worth on its own.  The loop gives every packet its
entry exactly when no packet with a node id has the wrong argument.
-/

namespace Pmx.FilterChainCtrl

open Cxx Osc

variable {capacity : ℕ}

/-- The four node parameters of the application. -/
structure NodeParameters where
  inputChannels : PropertyValue
  groupChannelsA : PropertyValue
  groupChannelsB : PropertyValue
  layerChannels : PropertyValue

/-- `parameters.parameters()`, in the order in which they are set up. -/
def NodeParameters.parameters (nodes : NodeParameters) : List (Str × PropertyValue) :=
  [(lit "inputChannels", nodes.inputChannels), (lit "groupChannelsA", nodes.groupChannelsA),
    (lit "groupChannelsB", nodes.groupChannelsB), (lit "layerChannels", nodes.layerChannels)]

/-- The node parameter of the chain that a path is for. -/
def NodeParameters.valueFor (nodes : NodeParameters) (path : OscPath) : Option PropertyValue :=
  match path.channelType, path.layer with
  | .input, _ => some nodes.inputChannels
  | .group, .A => some nodes.groupChannelsA
  | .group, .B => some nodes.groupChannelsB
  | .layer, _ => some nodes.layerChannels
  | .none, _ => none

/-- The node id that an `int` or a `long` stands for. -/
def PropertyValue.nodeId : PropertyValue → Option ℤ
  | .int value => some value
  | .long value => some value
  | _ => Option.none

/-- A `long` is within the range of an `int`. -/
def PropertyValue.FitsInt : PropertyValue → Prop
  | .long value => -2147483648 ≤ value ∧ value < 2147483648
  | _ => True

structure NodeParameters.FitInt (nodes : NodeParameters) : Prop where
  inputChannels : nodes.inputChannels.FitsInt
  groupChannelsA : nodes.groupChannelsA.FitsInt
  groupChannelsB : nodes.groupChannelsB.FitsInt
  layerChannels : nodes.layerChannels.FitsInt

/-- The float that a packet starts with. -/
def firstFloat (packet : OscMessage) : Option ℚ :=
  match packet.args with
  | .float32 value :: _ => some value
  | _ => none

/-- The path that an accepted address stands for. -/
def pathOf (packet : OscMessage) : Option OscPath :=
  match parseOscPath packet.address with
  | .ok (.ok path) => some path
  | _ => none

/-- The node id for a packet. -/
def nodeIdFor (nodes : NodeParameters) (packet : OscMessage) : Option ℤ :=
  (pathOf packet).bind fun path => (nodes.valueFor path).bind PropertyValue.nodeId

/-- The queue entry of a packet, whatever the other packets are. -/
def entryOf (nodes : NodeParameters) (packet : OscMessage) : Option QueueMessage := do
  let path ← pathOf packet
  let id ← nodeIdFor nodes packet
  let value ← firstFloat packet
  return ⟨path, id, value⟩

/-- The arguments of a packet are what the handler takes out of them. -/
def Readable (nodes : NodeParameters) (packet : OscMessage) : Prop :=
  (nodeIdFor nodes packet).isSome → (firstFloat packet).isSome

instance (nodes : NodeParameters) (packet : OscMessage) : Decidable (Readable nodes packet) :=
  inferInstanceAs (Decidable (_ → _))

/-! ## One packet -/

theorem intOfLong_of_fits {value : ℤ} (hfits : (PropertyValue.long value).FitsInt) :
    intOfLong value = value := by
  obtain ⟨hge, hlt⟩ := hfits
  unfold intOfLong
  rw [Int.bmod_eq_of_le] <;> omega

/-- The node id as it is read from a list that has the value under the name. -/
theorem filterChainId_of_find {name : Str} {parameters : List (Str × PropertyValue)}
    {value : PropertyValue}
    (hfind : parameters.find? (fun parameter => parameter.1 = name) = some (name, value))
    (hfits : value.FitsInt) : filterChainId name parameters = .ok value.nodeId := by
  simp only [filterChainId, getFromCollection, hfind, bind, Except.bind, pure, Except.pure]
  cases value with
  | int value => rfl
  | long value => exact congrArg (Except.ok ∘ some) (intOfLong_of_fits hfits)
  | float value => rfl
  | double value => rfl
  | string value => rfl
  | bool value => rfl
  | none => rfl

/-- The name of a chain's parameter leads to the chain's value. -/
theorem filterChainId_nodes {nodes : NodeParameters} (hfit : nodes.FitInt) {path : OscPath}
    {name : Str} (hname : nodeParameterName path = some name) :
    filterChainId name nodes.parameters =
      .ok ((nodes.valueFor path).bind PropertyValue.nodeId) := by
  unfold nodeParameterName at hname
  unfold NodeParameters.valueFor
  cases htype : path.channelType with
  | input =>
      simp only [htype, Option.some.injEq] at hname
      subst hname
      exact filterChainId_of_find rfl hfit.inputChannels
  | group =>
      cases hlayer : path.layer with
      | A =>
          simp only [htype, hlayer, Option.some.injEq] at hname
          subst hname
          exact filterChainId_of_find rfl hfit.groupChannelsA
      | B =>
          simp only [htype, hlayer, Option.some.injEq] at hname
          subst hname
          exact filterChainId_of_find rfl hfit.groupChannelsB
  | layer =>
      simp only [htype, Option.some.injEq] at hname
      subst hname
      exact filterChainId_of_find rfl hfit.layerChannels
  | none => simp [htype] at hname

/-- A parsed path is for one of the chains. -/
theorem exists_nodeParameterName {address : Str} {path : OscPath}
    (hparse : parseOscPath address = .ok (.ok path)) :
    ∃ name, nodeParameterName path = some name := by
  obtain ⟨_, haccepts⟩ := accepts_of_parse hparse
  have htype := haccepts.channelType
  unfold channelTypeOf at htype
  unfold nodeParameterName
  cases hpath : path.channelType with
  | input => exact ⟨_, rfl⟩
  | group => cases path.layer <;> exact ⟨_, rfl⟩
  | layer => exact ⟨_, rfl⟩
  | none =>
      rw [hpath] at htype
      split_ifs at htype <;> cases htype

theorem float32_eq (packet : OscMessage) :
    packet.float32 =
      match firstFloat packet with
      | some value => .ok value
      | none => .error .uncaught := by
  obtain ⟨address, args⟩ := packet
  match args with
  | [] => rfl
  | .float32 value :: rest => rfl
  | .int32 value :: rest => rfl
  | .string value :: rest => rfl
  | .blob value :: rest => rfl

/-- What an accepted packet does to the loop: it raises, or it adds its entry. -/
theorem handlePacket_eq {nodes : NodeParameters} (hfit : nodes.FitInt)
    (state : LoopState capacity) {packet : OscMessage} {path : OscPath}
    (hparse : parseOscPath packet.address = .ok (.ok path)) :
    handlePacket nodes.parameters state packet =
      if Readable nodes packet then
        .ok { state with
          queue := ((entryOf nodes packet).map fun entry => (state.queue.push entry).2).getD
            state.queue
          wakeupConsumer := state.wakeupConsumer || (entryOf nodes packet).isSome }
      else .error .uncaught := by
  obtain ⟨name, hname⟩ := exists_nodeParameterName hparse
  have hpath : pathOf packet = some path := by rw [pathOf, hparse]
  have hid : filterChainId name nodes.parameters = .ok (nodeIdFor nodes packet) := by
    rw [filterChainId_nodes hfit hname, nodeIdFor, hpath]
    rfl
  cases hnode : nodeIdFor nodes packet with
  | none =>
      have hreadable : Readable nodes packet := by simp [Readable, hnode]
      have hentry : entryOf nodes packet = none := by simp [entryOf, hnode]
      rw [if_pos hreadable, hentry]
      simp [handlePacket, hparse, hname, getFilterChainIdAndAddToQueue, hid, hnode, bind,
        Except.bind, pure, Except.pure]
  | some id =>
      cases hfloat : firstFloat packet with
      | none =>
          have hunreadable : ¬ Readable nodes packet := by simp [Readable, hnode, hfloat]
          rw [if_neg hunreadable]
          simp [handlePacket, hparse, hname, getFilterChainIdAndAddToQueue, hid, hnode,
            float32_eq, hfloat, bind, Except.bind]
      | some value =>
          have hreadable : Readable nodes packet := by simp [Readable, hfloat]
          have hentry : entryOf nodes packet = some ⟨path, id, value⟩ := by
            simp [entryOf, hpath, hnode, hfloat]
          rw [if_pos hreadable, hentry]
          simp [handlePacket, hparse, hname, getFilterChainIdAndAddToQueue, hid, hnode,
            float32_eq, hfloat, bind, Except.bind, pure, Except.pure]

/-! ## The loop -/

/-- The entries of readable packets are queued in packet order. -/
theorem packetLoop_of_readable {nodes : NodeParameters} (hfit : nodes.FitInt)
    {packets : List OscMessage}
    (haccepted : ∀ packet ∈ packets, ∃ path, parseOscPath packet.address = .ok (.ok path))
    (hreadable : ∀ packet ∈ packets, Readable nodes packet) (state : LoopState capacity)
    (hroom : state.queue.items.length + (packets.filterMap (entryOf nodes)).length ≤ capacity) :
    ∃ next, packetLoop nodes.parameters state packets = .ok next ∧
      next.queue.items = state.queue.items ++ packets.filterMap (entryOf nodes) ∧
      next.wakeupConsumer =
        (state.wakeupConsumer || packets.any fun packet => (entryOf nodes packet).isSome) ∧
      next.log = state.log := by
  induction packets generalizing state with
  | nil => exact ⟨state, rfl, by simp, by simp, rfl⟩
  | cons packet packets ih =>
      obtain ⟨⟨path, hparse⟩, haccepted⟩ := List.forall_mem_cons.mp haccepted
      obtain ⟨hhead, hreadable⟩ := List.forall_mem_cons.mp hreadable
      have hhandle := handlePacket_eq hfit state hparse
      rw [if_pos hhead] at hhandle
      rw [packetLoop_cons, hhandle]
      cases hentry : entryOf nodes packet with
      | none =>
          -- nothing is pushed for this packet, so the room stays
          rw [List.filterMap_cons_none hentry] at hroom
          obtain ⟨next, hnext, hitems, hwakeup, hlog⟩ := ih haccepted hreadable
            { state with wakeupConsumer := state.wakeupConsumer || false } hroom
          refine ⟨next, hnext, ?_, ?_, hlog⟩
          · rw [hitems, List.filterMap_cons_none hentry]
          · simpa [hentry] using hwakeup
      | some entry =>
          rw [List.filterMap_cons_some hentry, List.length_cons] at hroom
          -- one entry takes one place, and the others still have room
          have hpush : (state.queue.push entry).2.items = state.queue.items ++ [entry] :=
            BoundedFifo.items_push_of_hasRoom (show _ < _ by omega) entry
          obtain ⟨next, hnext, hitems, hwakeup, hlog⟩ := ih haccepted hreadable
            { state with
              queue := (state.queue.push entry).2
              wakeupConsumer := state.wakeupConsumer || true }
            (by rw [hpush, List.length_append, List.length_singleton]; omega)
          refine ⟨next, hnext, ?_, ?_, hlog⟩
          · rw [hitems, hpush, List.filterMap_cons_some hentry, List.append_assoc,
              List.singleton_append]
          · simpa [hentry] using hwakeup

/-- A packet that raises ends the loop, wherever it is in the buffer. -/
theorem packetLoop_of_unreadable {nodes : NodeParameters} (hfit : nodes.FitInt)
    {packets : List OscMessage}
    (haccepted : ∀ packet ∈ packets, ∃ path, parseOscPath packet.address = .ok (.ok path))
    {packet : OscMessage} (hmem : packet ∈ packets) (hunreadable : ¬ Readable nodes packet)
    (state : LoopState capacity) :
    packetLoop nodes.parameters state packets = .error .uncaught := by
  induction packets generalizing state with
  | nil => cases hmem
  | cons first packets ih =>
      obtain ⟨⟨path, hparse⟩, haccepted⟩ := List.forall_mem_cons.mp haccepted
      rw [packetLoop_cons, handlePacket_eq hfit state hparse]
      split_ifs with hfirst
      · rcases List.mem_cons.mp hmem with rfl | hmem
        · exact absurd hfirst hunreadable
        · exact ih haccepted hmem _
      · rfl

/-- The loop reaches the end of the buffer, every packet has given its own entry,
and nothing else is queued. -/
def Independent (nodes : NodeParameters) (queue : BoundedFifo capacity QueueMessage)
    (packets : List OscMessage) : Prop :=
  ∃ next, packetLoop nodes.parameters ⟨queue, false, []⟩ packets = .ok next ∧
    next.queue.items = queue.items ++ packets.filterMap (entryOf nodes) ∧
    next.wakeupConsumer = packets.any fun packet => (entryOf nodes packet).isSome

/-- **Packets are handled independently exactly when every packet with a node id
starts with a float.** -/
theorem independent_iff_readable (nodes : NodeParameters)
    (queue : BoundedFifo capacity QueueMessage) (packets : List OscMessage)
    (hfit : nodes.FitInt)
    (haccepted : ∀ packet ∈ packets, ∃ path, parseOscPath packet.address = .ok (.ok path))
    (hroom : queue.items.length + (packets.filterMap (entryOf nodes)).length ≤ capacity) :
    Independent nodes queue packets ↔ ∀ packet ∈ packets, Readable nodes packet := by
  constructor
  · rintro ⟨next, hnext, _⟩ packet hmem
    by_contra hunreadable
    rw [packetLoop_of_unreadable hfit haccepted hmem hunreadable] at hnext
    cases hnext
  · intro hreadable
    obtain ⟨next, hnext, hitems, hwakeup, _⟩ :=
      packetLoop_of_readable hfit haccepted hreadable ⟨queue, false, []⟩ hroom
    exact ⟨next, hnext, hitems, by simpa using hwakeup⟩

/-- Node 42 for the input channels, 43 as a `long` for the layers, nothing for
the groups. -/
def someNodes : NodeParameters :=
  ⟨.int 42, .none, .none, .long 43⟩

/-- A packet for a group without a node id may carry a string. -/
theorem independent_iff_readable_three :
    Independent someNodes (.empty : BoundedFifo 128 QueueMessage)
      [⟨lit "/I/A/1/EQU/low", [.float32 3]⟩, ⟨lit "/G/A/1/EQU/low", [.string (lit "x")]⟩,
        ⟨lit "/L/B/0/EQU/low", [.float32 4, .int32 1]⟩] := by
  have hlong : -2147483648 ≤ (43 : ℤ) ∧ (43 : ℤ) < 2147483648 := by decide
  refine (independent_iff_readable someNodes .empty _ ⟨trivial, trivial, trivial, hlong⟩ ?_
    ?_).mpr ?_
  · simp only [List.forall_mem_cons, List.not_mem_nil, false_implies, implies_true, and_true]
    exact ⟨⟨_, rfl⟩, ⟨_, rfl⟩, ⟨_, rfl⟩⟩
  · decide
  · decide

/-- An integer where the float should be takes the next packet's entry away. -/
theorem raised_loses_next :
    ¬ Independent someNodes (.empty : BoundedFifo 128 QueueMessage)
      [⟨lit "/I/A/1/EQU/low", [.int32 3]⟩, ⟨lit "/L/B/0/EQU/low", [.float32 4]⟩] := by
  rintro ⟨next, hnext, _⟩
  have hraises : packetLoop someNodes.parameters
      ⟨(.empty : BoundedFifo 128 QueueMessage), false, []⟩
      [⟨lit "/I/A/1/EQU/low", [.int32 3]⟩, ⟨lit "/L/B/0/EQU/low", [.float32 4]⟩] =
        .error .uncaught := rfl
  rw [hraises] at hnext
  cases hnext

end Pmx.FilterChainCtrl
