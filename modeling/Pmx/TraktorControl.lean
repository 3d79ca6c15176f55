import Pmx.Agreement
import Pmx.FilterChainCtrl.Feed
import Pmx.FilterChainCtrl.Names

/-!
# From the Z1 to the plugins

`pmx-traktor-z1-router` reads the reports of the device in one thread and publishes
in another one what has moved between them, and `pmx-filter-chain-ctrl` sets the
controls of the plugins.  Only the equalizers of the two layers have a parameter;
their controls are set to the positions as they are.

When no report moves two controls at once and nothing gets lost, every equalizer
control that has moved has the position of the last report, whatever the four
threads do in between (`positions_of_run`).
-/

namespace Pmx.TraktorControl

open Agreement Cxx DeltaEncoding FilterChainCtrl Osc TraktorZ1 Transition

variable {Client : Type}

/-- A control that has moved, with its new position. -/
abbrev Move := TraktorZ1.Field × UInt16

/-- The controls that two reports differ in, with their new positions. -/
def movesBetween (pair : TraktorZ1Message × TraktorZ1Message) : List Move :=
  delta TraktorZ1.Field.all pair.1.get pair.2.get

/-- The moves between neighbouring reports. -/
def moves (reports : List TraktorZ1Message) : List Move :=
  (consecutive reports).flatMap movesBetween

/-- The message that is published for a move. -/
def messageOf (move : Move) : OscMessage :=
  oscMessage (move.1.path, move.2)

/-- `reports` is the queue between the threads of the router, and `packets` are those of
the cycle that the packet loop has not come to.  `read` are all reports of the device,
and `moved` all moves that have been published. -/
structure State (Client : Type) where
  reports : BoundedFifo 128 TraktorZ1Message
  z1 : TraktorZ1.State
  packets : List OscMessage
  chains : FilterChainCtrl.State Client
  read : List TraktorZ1Message
  moved : List Move

/-- Nothing has been read. -/
def initial (Client : Type) (parameters : List (Str × PropertyValue)) : State Client :=
  ⟨.empty, TraktorZ1.initial, [], FilterChainCtrl.initial Client parameters, [], []⟩

/-- A report that is read, a cycle of the router, the next packet, or a step of the chains. -/
inductive Label
  | read (buffer : Vector UInt8 30)
  | cycle (outBuffer : Option ℕ)
  | packet
  | chains (label : FilterChainCtrl.Label)

/-- The reports that a cycle of the router works on. -/
def State.input (s : State Client) (outBuffer : Option ℕ) : Cycle :=
  ⟨outBuffer, s.reports.items⟩

/-- The router publishes when the packet loop is through with the last cycle. -/
def step (parseOsc : ParseOsc) (client : ℤ → Option Client) (s : State Client) :
    Label → Option (State Client)
  | .read buffer =>
      match readReport buffer with
      | some report => some { s with
          reports := (s.reports.push report).2
          read := s.read ++ [report] }
      | none => some s
  | .cycle outBuffer =>
      if s.packets.isEmpty then some { s with
        reports := if outBuffer.isSome then .empty else s.reports
        z1 := (TraktorZ1.cycle s.z1 (s.input outBuffer)).1
        packets := packetsOf
          (parseOsc (received (TraktorZ1.cycle s.z1 (s.input outBuffer)).2.toList))
        moved := s.moved ++ (comparedPairs s.z1 (s.input outBuffer)).flatMap movesBetween }
      else none
  | .packet =>
      match s.packets with
      | packet :: rest =>
          (FilterChainCtrl.step client s.chains (.packet packet)).map fun chains =>
            { s with chains, packets := rest }
      | [] => none
  | .chains (.packet _) => none
  | .chains label =>
      (FilterChainCtrl.step client s.chains label).map fun chains => { s with chains }

/-! ## What is wanted -/

/-- The name of a control of a layer. -/
def controlName (path : OscPath) : Str :=
  FilterGraph.node path.parameter.deviceName path.layer.text ++
    ':'.toUInt8 :: path.parameter.name

/-- The call that a move asks for: none without a parameter. -/
def wantedCall (layerChannels : Client) (move : Move) : Option (SetPropsParam Client) :=
  (fieldTarget move.1).map fun path => ⟨layerChannels, controlName path, move.2.toNat⟩

/-- Nothing gets lost: no report moves two controls at once, a cycle publishes no more
moves than the packet loop reads, queues have room, and each `pop` finds a single
message. -/
def Reliable (layerChannels : Client) (client : ℤ → Option Client) (s : State Client) :
    Label → Prop
  | .read buffer => ∀ report, readReport buffer = some report → s.reports.HasRoom ∧
      ∀ last, s.read.getLast? = some last → (movesBetween (last, report)).length ≤ 1
  | .cycle outBuffer => ∀ maxsize, outBuffer = some maxsize → 784 ≤ maxsize ∧
      ((comparedPairs s.z1 (s.input outBuffer)).flatMap movesBetween).length ≤ 16
  | .packet => Holds client s.chains.parameters (lit "layerChannels") layerChannels ∧
      ∀ packet, s.packets.head? = some packet → RoomForAccepted s.chains (.packet packet)
  | .chains label => SinglePop s.chains label

/-! ## The messages -/

theorem messages_eq_map (pair : TraktorZ1Message × TraktorZ1Message) :
    messages pair = (movesBetween pair).map messageOf := by
  rw [movesBetween]
  rfl

theorem flatMap_messages (pairs : List (TraktorZ1Message × TraktorZ1Message)) :
    pairs.flatMap messages = (pairs.flatMap movesBetween).map messageOf := by
  rw [List.map_flatMap]
  exact List.flatMap_congr fun pair _ => messages_eq_map pair

theorem size_messageOf_le (move : Move) : (messageOf move).size ≤ 28 := by
  obtain ⟨f, value⟩ := move
  have hpath : f.path.length ≤ 18 := by
    cases f <;> decide
  show stringSize f.path.length + stringSize (1 + 1) + (4 + 0) ≤ 28
  simp only [stringSize]
  omega

/-- A single message takes 48 bytes at most with its headers. -/
theorem bytesOf_group_le {group : List OscMessage} (hsingle : group.length ≤ 1)
    (hsize : ∀ message ∈ group, message.size ≤ 28) :
    PodBuilder.bytesOf (PodBuilder.groupWrites controlOsc OscMessage.size group) ≤
      48 * group.length := by
  match group, hsingle with
  | [], _ => exact Nat.zero_le _
  | [message], _ =>
      have hle := hsize message (List.mem_singleton_self _)
      show 8 + (PodBuilder.podSize message.size + 0) ≤ 48 * 1
      simp only [PodBuilder.podSize]
      omega

theorem groupsFit_of_single {pairs : List (TraktorZ1Message × TraktorZ1Message)}
    (hsingle : ∀ pair ∈ pairs, (movesBetween pair).length ≤ 1)
    (hlength : (pairs.flatMap movesBetween).length ≤ 16) {maxsize : ℕ} (hmaxsize : 784 ≤ maxsize) :
    PodBuilder.GroupsFit maxsize controlOsc OscMessage.size (pairs.map messages) := by
  have hbytes : PodBuilder.bytesOf ((pairs.map messages).flatMap
      (PodBuilder.groupWrites controlOsc OscMessage.size)) ≤
        48 * (pairs.flatMap movesBetween).length := by
    clear hlength
    induction pairs with
    | nil => exact Nat.zero_le _
    | cons pair rest ih =>
        have hpair : PodBuilder.bytesOf (PodBuilder.groupWrites controlOsc OscMessage.size
            (messages pair)) ≤ 48 * (messages pair).length := by
          refine bytesOf_group_le ?_ ?_ <;> rw [messages_eq_map]
          · rw [List.length_map]
            exact hsingle pair (List.mem_cons_self ..)
          · rw [List.forall_mem_map]
            exact fun move _ => size_messageOf_le move
        have hrest := ih fun other hother => hsingle other (List.mem_cons_of_mem _ hother)
        rw [messages_eq_map, List.length_map] at hpair
        rw [List.map_cons, List.flatMap_cons, PodBuilder.bytesOf_append, List.flatMap_cons,
          List.length_append, Nat.mul_add, messages_eq_map]
        exact Nat.add_le_add hpair hrest
  refine Or.inr ?_
  omega

/-- What a cycle publishes is read back whole. -/
theorem packetsOf_received {parseOsc : ParseOsc} (hparse : FindsSixteen parseOsc)
    (z1 : TraktorZ1.State) (input : Cycle)
    (hsingle : ∀ pair ∈ comparedPairs z1 input, (movesBetween pair).length ≤ 1)
    (hroom : ∀ maxsize, input.outBuffer = some maxsize →
      784 ≤ maxsize ∧ ((comparedPairs z1 input).flatMap movesBetween).length ≤ 16) :
    packetsOf (parseOsc (received (TraktorZ1.cycle z1 input).2.toList)) =
      ((comparedPairs z1 input).flatMap movesBetween).map messageOf := by
  have hlength : ((comparedPairs z1 input).flatMap movesBetween).length ≤ 16 := by
    cases hbuffer : input.outBuffer with
    | none =>
        -- without a buffer nothing is popped
        have hnothing : comparedPairs z1 input = [] := by
          rw [comparedPairs, Cycle.popped, hbuffer]
          cases z1.last <;> rfl
        rw [hnothing]
        exact Nat.zero_le _
    | some maxsize => exact (hroom maxsize hbuffer).2
  have hreceived : received (TraktorZ1.cycle z1 input).2.toList =
      (comparedPairs z1 input).flatMap messages := by
    refine (received_cycle z1 input).2.mpr ⟨fun pair hpair => ?_, fun maxsize hbuffer => ?_⟩
    · rw [messages_eq_map, List.length_map]
      exact hsingle pair hpair
    · exact groupsFit_of_single hsingle hlength (hroom maxsize hbuffer).1
  rw [hreceived, flatMap_messages, packetsOf_eq hparse (by rwa [List.length_map])]

theorem parameterName_eq {f : TraktorZ1.Field} {path : OscPath} (h : fieldTarget f = some path) :
    parameterName path = some (controlName path) := by
  rw [parameterName, nodeName_layer (range_of_target h).1, Option.map_some, controlName,
    List.append_assoc]
  rfl

theorem nodeParameterName_eq {f : TraktorZ1.Field} {path : OscPath}
    (h : fieldTarget f = some path) : nodeParameterName path = some (lit "layerChannels") := by
  simp only [nodeParameterName, (range_of_target h).1]

/-- The parser returns on the address of a control; on the others it reads beyond the
end of the text of its error. -/
def IsParsed (f : TraktorZ1.Field) : Prop :=
  f ≠ .cueMix ∧ f ≠ .crossFader

theorem parse_of_no_target {f : TraktorZ1.Field} (h : fieldTarget f = none) (hparsed : IsParsed f) :
    ∃ error, parseOscPath f.path = .ok (.error error) := by
  cases f with
  | gainL | filterL | gainR | filterR => exact ⟨_, rfl⟩
  | cueMix => exact absurd rfl hparsed.1
  | crossFader => exact absurd rfl hparsed.2
  | hiL | midL | lowL | faderL | hiR | midR | lowR | faderR => cases h

theorem parse_of_not_parsed {f : TraktorZ1.Field} (h : ¬ IsParsed f) :
    parseOscPath f.path = .error .indexOutOfBounds := by
  rw [IsParsed, not_and_or, not_not, not_not] at h
  rcases h with rfl | rfl <;> rfl

variable {layerChannels : Client} {client : ℤ → Option Client}

theorem handled_of_known {parameters : List (Str × PropertyValue)}
    (hknown : Holds client parameters (lit "layerChannels") layerChannels) {move : Move}
    (hparsed : IsParsed move.1) :
    Feed.Handled messageOf client (wantedCall layerChannels) parameters move := by
  obtain ⟨f, value⟩ := move
  cases htarget : fieldTarget f with
  | none =>
      obtain ⟨error, herror⟩ := parse_of_no_target htarget hparsed
      have hparse : parseOscPath (messageOf (f, value)).address = .ok (.error error) := herror
      have hnothing : acceptedMessage parameters (messageOf (f, value)) = none := by
        simp only [acceptedMessage, hparse]
      refine ⟨fun state => ⟨_, handlePacket_of_rejected hparse state⟩, ?_, ?_⟩
      · rw [hnothing]
        exact fun _ h => by cases h
      · rw [hnothing, wantedCall, htarget]
        rfl
  | some path =>
      obtain ⟨id, hfound, hclient⟩ := hknown
      have hparse : parseOscPath (messageOf (f, value)).address = .ok (.ok path) :=
        parse_of_target htarget
      have hname := nodeParameterName_eq htarget
      have hvalue : (messageOf (f, value)).float32 = .ok (value.toNat : ℚ) := rfl
      have haccepted : acceptedMessage parameters (messageOf (f, value)) =
          some ⟨path, id, value.toNat⟩ := by
        simp only [acceptedMessage, hparse, hname, hfound, hvalue]
      refine ⟨fun state => ?_, ?_, ?_⟩
      · simp [handlePacket, getFilterChainIdAndAddToQueue, hparse, hname, hfound, hvalue, bind,
          Except.bind, pure, Except.pure]
      · rw [haccepted]
        rintro _ ⟨⟩
        rw [hclient]
        rfl
      · rw [haccepted, wantedCall, htarget]
        simp [callOf, hclient, parameterName_eq htarget]

/-- A packet that the loop has been through was parsed. -/
theorem isParsed_of_step {s next : FilterChainCtrl.State Client} {move : Move}
    (h : FilterChainCtrl.step client s (.packet (messageOf move)) = some next) :
    IsParsed move.1 := by
  by_contra hparsed
  have hparse : parseOscPath (messageOf move).address = .error .indexOutOfBounds :=
    parse_of_not_parsed hparsed
  simp [FilterChainCtrl.step, handlePacket, hparse, bind, Except.bind] at h

/-! ## Runs -/

variable {parseOsc : ParseOsc}

/-- The queue has the reports that no cycle has popped, and published are the moves
between those that have been popped. -/
structure Sound (s : State Client) : Prop where
  popped : ∃ popped, s.read = popped ++ s.reports.items ∧ s.z1.last = popped.getLast? ∧
    s.moved = moves popped
  single : ∀ pair ∈ consecutive s.read, (movesBetween pair).length ≤ 1

theorem moves_append (first second : List TraktorZ1Message) :
    moves (first ++ second) = moves first ++ moves (first.getLast?.toList ++ second) := by
  rw [moves, consecutive_append, List.flatMap_append]
  rfl

theorem getLast?_carried (first second : List TraktorZ1Message) :
    (first.getLast?.toList ++ second).getLast? = (first ++ second).getLast? := by
  rw [List.getLast?_append, List.getLast?_append]
  cases first.getLast? <;> rfl

theorem sound_read {s s' : State Client} {buffer : Vector UInt8 30} (h : Sound s)
    (hreliable : Reliable layerChannels client s (.read buffer))
    (hstep : step parseOsc client s (.read buffer) = some s') : Sound s' := by
  simp only [step] at hstep
  split at hstep
  · rename_i report hreport
    cases hstep
    obtain ⟨hroom, hsingle⟩ := hreliable report hreport
    obtain ⟨popped, hread, hlast, hmoved⟩ := h.popped
    refine ⟨⟨popped, ?_, hlast, hmoved⟩, ?_⟩
    · show s.read ++ [report] = popped ++ (s.reports.push report).2.items
      rw [BoundedFifo.items_push_of_hasRoom hroom, hread, List.append_assoc]
    · show ∀ pair ∈ consecutive (s.read ++ [report]), _
      rw [consecutive_append, List.forall_mem_append]
      refine ⟨h.single, ?_⟩
      cases hprevious : s.read.getLast? with
      | none => exact fun _ hmem => absurd hmem List.not_mem_nil
      | some last => exact List.forall_mem_singleton.mpr (hsingle last hprevious)
  · cases hstep
    exact h

/-- The pairs that a cycle compares are neighbours among the reports. -/
theorem comparedPairs_subset {s : State Client} (h : Sound s) (outBuffer : Option ℕ) :
    ∀ pair ∈ comparedPairs s.z1 (s.input outBuffer), pair ∈ consecutive s.read := by
  obtain ⟨popped, hread, hlast, -⟩ := h.popped
  intro pair hpair
  rw [comparedPairs, hlast] at hpair
  cases outBuffer with
  | none =>
      simp only [State.input, Cycle.popped, List.append_nil] at hpair
      cases hpopped : popped.getLast? with
      | none =>
          rw [hpopped] at hpair
          exact absurd hpair List.not_mem_nil
      | some last =>
          rw [hpopped] at hpair
          exact absurd hpair List.not_mem_nil
  | some maxsize =>
      rw [hread, consecutive_append]
      exact List.mem_append_right _ hpair

theorem sound_cycle {s s' : State Client} {outBuffer : Option ℕ} (h : Sound s)
    (hstep : step parseOsc client s (.cycle outBuffer) = some s') : Sound s' := by
  obtain ⟨popped, hread, hlast, hmoved⟩ := h.popped
  simp only [step] at hstep
  split at hstep
  · cases hstep
    cases outBuffer with
    | none =>
        have hnothing : comparedPairs s.z1 (s.input none) = [] := by
          rw [comparedPairs]
          simp only [State.input, Cycle.popped, List.append_nil]
          cases s.z1.last <;> rfl
        refine ⟨⟨popped, hread, ?_, ?_⟩, h.single⟩
        · show (TraktorZ1.cycle s.z1 (s.input none)).1.last = _
          rw [last_cycle, ← hlast]
          simp only [State.input, Cycle.popped, List.append_nil]
          cases s.z1.last <;> rfl
        · show s.moved ++ (comparedPairs s.z1 (s.input none)).flatMap movesBetween = _
          rw [hnothing, hmoved]
          exact List.append_nil _
    | some maxsize =>
        refine ⟨⟨popped ++ s.reports.items, ?_, ?_, ?_⟩, h.single⟩
        · exact hread.trans (List.append_nil _).symm
        · show (TraktorZ1.cycle s.z1 (s.input (some maxsize))).1.last = _
          rw [last_cycle, hlast]
          exact getLast?_carried popped s.reports.items
        · show s.moved ++ (comparedPairs s.z1 (s.input (some maxsize))).flatMap movesBetween = _
          rw [moves_append, hmoved, comparedPairs, hlast]
          rfl
  · cases hstep

theorem sound_step {s s' : State Client} {label : Label} (h : Sound s)
    (hreliable : Reliable layerChannels client s label)
    (hstep : step parseOsc client s label = some s') : Sound s' := by
  cases label with
  | read buffer => exact sound_read h hreliable hstep
  | cycle outBuffer => exact sound_cycle h hstep
  | packet =>
      simp only [step] at hstep
      split at hstep
      · obtain ⟨next, hnext, rfl⟩ := Option.map_eq_some_iff.mp hstep
        exact ⟨h.popped, h.single⟩
      · cases hstep
  | chains label =>
      cases label with
      | packet packet => cases hstep
      | parameters | pop | call =>
          simp only [step] at hstep
          obtain ⟨next, hnext, rfl⟩ := Option.map_eq_some_iff.mp hstep
          exact ⟨h.popped, h.single⟩

theorem sound_of_run {parameters : List (Str × PropertyValue)} {labels : List Label}
    {s : State Client}
    (run : Run (step parseOsc client) (Reliable layerChannels client)
      (initial Client parameters) labels s) : Sound s := by
  refine run.state_invariant (I := Sound) ?_ fun _ _ _ h hreliable hstep =>
    sound_step h hreliable hstep
  exact ⟨⟨[], rfl, rfl, rfl⟩, fun _ h => absurd h List.not_mem_nil⟩

/-- What the packet loop and the calls see of the whole. -/
def State.feed (s : State Client) : Feed.State Move Client :=
  ⟨s.packets, s.chains, s.moved⟩

/-- A step of the whole is a step of the device alone, or one of the feed. -/
theorem feed_step (hparse : FindsSixteen parseOsc) {s s' : State Client} {label : Label}
    (h : Sound s) (hreliable : Reliable layerChannels client s label)
    (hstep : step parseOsc client s label = some s') :
    s'.feed = s.feed ∨ ∃ label',
      Feed.Reliable messageOf client (wantedCall layerChannels) s.feed label' ∧
        Feed.step messageOf client s.feed label' = some s'.feed := by
  cases label with
  | read buffer =>
      simp only [step] at hstep
      split at hstep <;> cases hstep <;> exact Or.inl rfl
  | cycle outBuffer =>
      simp only [step] at hstep
      split at hstep
      · rename_i hempty
        cases hstep
        refine Or.inr ⟨.publish ((comparedPairs s.z1 (s.input outBuffer)).flatMap movesBetween),
          trivial, (if_pos hempty).trans ?_⟩
        rw [State.feed, packetsOf_received hparse s.z1 (s.input outBuffer)
          (fun pair hpair => h.single pair (comparedPairs_subset h outBuffer pair hpair)) hreliable]
        rfl
      · cases hstep
  | packet =>
      obtain ⟨hknown, hroom⟩ := hreliable
      simp only [step] at hstep
      split at hstep
      · rename_i packet rest hpackets
        obtain ⟨next, hnext, rfl⟩ := Option.map_eq_some_iff.mp hstep
        refine Or.inr ⟨.packet, ⟨fun move _ hhead => handled_of_known hknown ?_, hroom⟩, ?_⟩
        · simp only [State.feed, hpackets, List.head?_cons, Option.some.injEq] at hhead
          rw [hhead] at hnext
          exact isParsed_of_step hnext
        · simp only [Feed.step, State.feed, hpackets, hnext, Option.map_some]
      · cases hstep
  | chains label =>
      refine Or.inr ⟨.chains label, hreliable, ?_⟩
      cases label with
      | packet packet => cases hstep
      | parameters | pop | call =>
          simp only [step] at hstep
          obtain ⟨next, hnext, rfl⟩ := Option.map_eq_some_iff.mp hstep
          simp only [Feed.step, State.feed, hnext, Option.map_some]

/-- What the packet loop and the calls do is a run of the feed. -/
theorem feed_of_run (hparse : FindsSixteen parseOsc) {parameters : List (Str × PropertyValue)}
    {labels : List Label} {s : State Client}
    (run : Run (step parseOsc client) (Reliable layerChannels client)
      (initial Client parameters) labels s) :
    ∃ labels', Run (Feed.step messageOf client)
      (Feed.Reliable messageOf client (wantedCall layerChannels))
      (Feed.initial Move Client parameters) labels' s.feed :=
  run.project State.feed fun _ _ _ _ run hreliable hstep =>
    feed_step hparse (sound_of_run run) hreliable hstep

/-! ## The positions of the controls -/

/-- A control has moved between two of the reports. -/
def HasMoved (reports : List TraktorZ1Message) (f : TraktorZ1.Field) : Prop :=
  ∃ pair ∈ consecutive reports, pair.1.get f ≠ pair.2.get f

instance (reports : List TraktorZ1Message) (f : TraktorZ1.Field) :
    Decidable (HasMoved reports f) :=
  inferInstanceAs (Decidable (∃ pair ∈ consecutive reports, pair.1.get f ≠ pair.2.get f))

theorem moves_eq_deltas (reports : List TraktorZ1Message) :
    moves reports = deltas TraktorZ1.Field.all (reports.map TraktorZ1Message.get) := by
  rw [moves, deltas, consecutive_map, List.flatMap_map]
  rfl

/-- The last move of a control was to its position in the last report. -/
theorem lastUpdate_moves (reports : List TraktorZ1Message) (f : TraktorZ1.Field) :
    (HasMoved reports f →
        lastUpdate f (moves reports) = reports.getLast?.map fun last => last.get f) ∧
      (¬ HasMoved reports f → lastUpdate f (moves reports) = none) := by
  have hlast := lastUpdate_deltas mem_all (reports.map TraktorZ1Message.get) f
  rw [← moves_eq_deltas, consecutive_map, List.forall_mem_map, List.getLast?_map,
    Option.map_map] at hlast
  rcases hlast with ⟨hsame, hnone⟩ | ⟨⟨_, hmem, hne⟩, hvalue⟩
  · exact ⟨fun ⟨pair, hpair, hne⟩ => absurd (hsame pair hpair) hne, fun _ => hnone⟩
  · obtain ⟨pair, hpair, rfl⟩ := List.mem_map.mp hmem
    exact ⟨fun _ => hvalue, fun hnever => absurd ⟨pair, hpair, hne⟩ hnever⟩

/-- Different controls of the device are for different controls of the layers. -/
theorem eq_of_controlName {f g : TraktorZ1.Field} {p q : OscPath} (hp : fieldTarget f = some p)
    (hq : fieldTarget g = some q) (hname : controlName p = controlName q) : f = g := by
  have hnodup : ((TraktorZ1.Field.all.filter fun f => (fieldTarget f).isSome).map fun f =>
      (fieldTarget f).map controlName).Nodup := by
    decide
  refine List.inj_on_of_nodup_map hnodup ?_ ?_ ?_
  · exact List.mem_filter.mpr ⟨mem_all f, by rw [hp]; rfl⟩
  · exact List.mem_filter.mpr ⟨mem_all g, by rw [hq]; rfl⟩
  · rw [hp, hq, Option.map_some, Option.map_some, hname]

theorem namesNode_of_target {f : TraktorZ1.Field} {path : OscPath}
    (h : fieldTarget f = some path) : NamesNode path := by
  have hpath : path.channelId ≤ 99 ∧ path.parameter.deviceName ∈ FilterGraph.devices ∧
      path.parameter.deviceName ≠ lit "Saturator" := by
    cases f with
    | gainL | filterL | gainR | filterR | cueMix | crossFader => cases h
    | hiL | midL | lowL | faderL | hiR | midR | lowR | faderR =>
        cases h
        exact ⟨by decide, by decide, by decide⟩
  rw [namesNode_iff hpath.1 hpath.2.1, InGraph, (range_of_target h).1]
  exact hpath.2.2

/-- The last call for a control of a layer sets it to the last move. -/
theorem controlValue_moves [DecidableEq Client] {f : TraktorZ1.Field} {path : OscPath}
    (h : fieldTarget f = some path) (published : List Move) :
    controlValue (published.filterMap (wantedCall layerChannels))
        (layerChannels, controlName path) =
      (lastUpdate f published).map fun position => (position.toNat : ℚ) := by
  rw [lastUpdate, Option.map_map]
  refine Feed.controlValue_filterMap (fun move _ hfor => ?_) fun move _ hother call hcall => ?_
  · refine ⟨⟨layerChannels, controlName path, move.2.toNat⟩, ?_, rfl, rfl⟩
    rw [wantedCall, hfor, h, Option.map_some]
  · obtain ⟨other, htarget, rfl⟩ := Option.map_eq_some_iff.mp hcall
    intro hsame
    exact hother (eq_of_controlName htarget h (congrArg Prod.snd hsame))

/-- A call for a move sets the control of the layers that the move is for. -/
theorem control_of_wantedCall {move : Move} {call : SetPropsParam Client}
    (hwanted : wantedCall layerChannels move = some call) :
    ∃ f path, fieldTarget f = some path ∧ NamesNode path ∧
      call.client = layerChannels ∧ call.parameterName = controlName path := by
  obtain ⟨path, htarget, rfl⟩ := Option.map_eq_some_iff.mp hwanted
  exact ⟨move.1, path, htarget, namesNode_of_target htarget, rfl, rfl⟩

/-- After the calls for all the moves a control that has moved has its position in the last
report, and one that never moved was not set. -/
theorem controlValue_reports [DecidableEq Client] {f : TraktorZ1.Field} {path : OscPath}
    (htarget : fieldTarget f = some path) (reports : List TraktorZ1Message) :
    (HasMoved reports f →
        controlValue ((moves reports).filterMap (wantedCall layerChannels))
            (layerChannels, controlName path) =
          reports.getLast?.map fun last => ((last.get f).toNat : ℚ)) ∧
      (¬ HasMoved reports f →
        controlValue ((moves reports).filterMap (wantedCall layerChannels))
          (layerChannels, controlName path) = none) := by
  obtain ⟨hchanged, hnever⟩ := lastUpdate_moves reports f
  rw [controlValue_moves htarget]
  constructor
  · intro hmove
    rw [hchanged hmove, Option.map_map]
    rfl
  · intro hmove
    rw [hnever hmove]
    rfl

/-- The packet loop takes the next packet just if the chains do. -/
theorem isSome_step_packet (s : State Client) :
    (step parseOsc client s .packet).isSome =
      (Feed.step messageOf client s.feed .packet).isSome := by
  cases hpackets : s.packets with
  | nil => simp only [step, Feed.step, State.feed, hpackets, Option.isSome_none]
  | cons packet rest => simp only [step, Feed.step, State.feed, hpackets, Option.isSome_map]

/-- A move whose packet the loop has taken was parsed. -/
theorem isParsed_of_isSome {s : State Client} {move : Move}
    (hhead : s.packets.head? = some (messageOf move))
    (hsome : (step parseOsc client s .packet).isSome) : IsParsed move.1 := by
  cases hpackets : s.packets with
  | nil =>
      rw [hpackets] at hhead
      cases hhead
  | cons packet rest =>
      rw [hpackets, List.head?_cons, Option.some.injEq] at hhead
      simp only [step, hpackets, hhead, Option.isSome_map] at hsome
      obtain ⟨next, hnext⟩ := Option.isSome_iff_exists.mp hsome
      exact isParsed_of_step hnext

/-- **From the Z1 to the plugins.**  In a reliable run the calls are made in the order of
the moves, one for each move of an equalizer control, and each sets a control that
the layers have.  The packet loop goes on unless the next packet is for one of the
controls that no channel has.  When everything is through, the equalizer controls
that have moved have the positions of the last report, and the others were never set. -/
theorem positions_of_run [DecidableEq Client] (hparse : FindsSixteen parseOsc)
    {parameters : List (Str × PropertyValue)} {labels : List Label} {s : State Client}
    (run : Run (step parseOsc client) (Reliable layerChannels client)
      (initial Client parameters) labels s) :
    (∃ outstanding,
        s.moved.filterMap (wantedCall layerChannels) = s.chains.calls ++ outstanding) ∧
      (∀ call ∈ s.chains.calls, ∃ f path, fieldTarget f = some path ∧ NamesNode path ∧
        call.client = layerChannels ∧ call.parameterName = controlName path) ∧
      (Holds client s.chains.parameters (lit "layerChannels") layerChannels → s.packets ≠ [] →
        ((step parseOsc client s .packet).isSome ↔
          ∀ move, s.packets.head? = some (messageOf move) → IsParsed move.1)) ∧
      (s.reports.items = [] → s.packets = [] → s.chains.queue.items = [] →
        s.chains.message = none →
          s.chains.calls = (moves s.read).filterMap (wantedCall layerChannels) ∧
            ∀ f path, fieldTarget f = some path →
              (HasMoved s.read f →
                controlValue s.chains.calls (layerChannels, controlName path) =
                  s.read.getLast?.map fun last => ((last.get f).toNat : ℚ)) ∧
              (¬ HasMoved s.read f →
                controlValue s.chains.calls (layerChannels, controlName path) = none)) := by
  obtain ⟨popped, hread, -, hmoved⟩ := (sound_of_run run).popped
  obtain ⟨_, hfeed⟩ := feed_of_run hparse run
  obtain ⟨⟨outstanding, hall⟩, hreturns, hthrough⟩ := Feed.calls_of_feed hfeed
  refine ⟨⟨outstanding, hall⟩, ?_, ?_, ?_⟩
  · intro call hcall
    have hmem : call ∈ s.feed.published.filterMap (wantedCall layerChannels) := by
      rw [hall]
      exact List.mem_append_left outstanding hcall
    obtain ⟨move, -, hwanted⟩ := List.mem_filterMap.mp hmem
    exact control_of_wantedCall hwanted
  · intro hknown hne
    constructor
    · intro hsome move hhead
      exact isParsed_of_isSome hhead hsome
    · intro hparsed
      rw [isSome_step_packet]
      exact hreturns (fun move _ hhead => handled_of_known hknown (hparsed move hhead)) hne
  · intro hreports hempty hqueue hmessage
    have hcalls : s.chains.calls = (moves s.read).filterMap (wantedCall layerChannels) := by
      rw [hread, hreports, List.append_nil, ← hmoved]
      exact hthrough hempty hqueue hmessage
    refine ⟨hcalls, fun f path htarget => ?_⟩
    rw [hcalls]
    exact controlValue_reports htarget s.read

/-- A report of the device with two knobs of the equalizer at some positions. -/
def reportAt (hiL midL : UInt8) : Vector UInt8 30 :=
  Vector.ofFn fun i =>
    if i.val = 0 then 1 else if i.val = 3 then hiL else if i.val = 5 then midL else 0

/-- One knob is turned, then the other one, and the first one again, on their way through
all threads. -/
def threeMoves : List Label :=
  [.read (reportAt 5 0), .read (reportAt 7 0), .read (reportAt 7 2), .cycle (some 4096),
    .packet, .chains .pop, .packet, .chains .call, .chains .pop, .chains .call,
    .read (reportAt 9 2), .cycle (some 4096), .packet, .chains .pop, .chains .call]

/-- A test for `Reliable` with the node id 40. -/
def isReliable (s : State ℕ) : Label → Bool
  | .read buffer => (readReport buffer).all fun report => s.reports.HasRoom &&
      s.read.getLast?.all fun last => (movesBetween (last, report)).length ≤ 1
  | .cycle outBuffer => outBuffer.all fun maxsize => 784 ≤ maxsize &&
      decide (((comparedPairs s.z1 (s.input outBuffer)).flatMap movesBetween).length ≤ 16)
  | .packet => s.chains.queue.HasRoom &&
      (filterChainId (lit "layerChannels") s.chains.parameters).toOption = some (some 40)
  | .chains label => decide (SinglePop s.chains label)

theorem reliable_of_isReliable {s : State ℕ} {label : Label} (h : isReliable s label = true) :
    Reliable 40 (fun id => some id.toNat) s label := by
  cases label with
  | read buffer =>
      intro report hreport
      rw [isReliable, hreport] at h
      simp only [Option.all_some, Bool.and_eq_true, decide_eq_true_eq] at h
      refine ⟨h.1, fun last hlast => ?_⟩
      rw [hlast] at h
      exact of_decide_eq_true h.2
  | cycle outBuffer =>
      intro maxsize hbuffer
      rw [isReliable, hbuffer] at h
      simp only [Option.all_some, Bool.and_eq_true, decide_eq_true_eq] at h
      rw [hbuffer]
      exact h
  | packet =>
      simp only [isReliable, Bool.and_eq_true, decide_eq_true_eq] at h
      exact ⟨holds_of_toOption h.2 rfl, fun _ _ _ => h.1⟩
  | chains label =>
      have hsingle : SinglePop s.chains label := of_decide_eq_true h
      exact hsingle

/-- Both knobs have moved, so the controls of layer A have their last positions. -/
theorem positions_of_run_three_moves : ∃ s : State ℕ,
    s.chains.calls.map (fun call => (call.client, call.parameterName)) =
        [(40, lit "Equalizer-A:high"), (40, lit "Equalizer-A:mid"),
          (40, lit "Equalizer-A:high")] ∧
      controlValue s.chains.calls (40, lit "Equalizer-A:high") = some 9 ∧
        controlValue s.chains.calls (40, lit "Equalizer-A:mid") = some 2 := by
  have htrace : (exec (fun s a => if isReliable s a then
      step parseFirst (fun id => some id.toNat) s a else none)
      (initial ℕ [(lit "layerChannels", .int 40)]) threeMoves).map (fun s =>
        s.reports.items.isEmpty && s.packets.isEmpty && s.chains.queue.items.isEmpty &&
          s.chains.message.isNone && decide (s.chains.calls.map (fun call =>
            (call.client, call.parameterName)) = [(40, lit "Equalizer-A:high"),
              (40, lit "Equalizer-A:mid"), (40, lit "Equalizer-A:high")]) &&
          decide (HasMoved s.read .hiL ∧ HasMoved s.read .midL ∧
            s.read.getLast?.map (fun last => (last.hiL, last.midL)) = some (9, 2))) =
      some true := by
    decide +kernel
  obtain ⟨s, hs, hlast⟩ := Option.map_eq_some_iff.mp htrace
  simp only [Bool.and_eq_true, List.isEmpty_iff, Option.isNone_iff_eq_none,
    decide_eq_true_eq] at hlast
  obtain ⟨⟨⟨⟨⟨hreports, hpackets⟩, hqueue⟩, hmessage⟩, hcalls⟩, hhigh, hmid, hpositions⟩ := hlast
  have hall := positions_of_run findsSixteen_parseFirst
    (run_of_checked (fun _ _ => reliable_of_isReliable) hs)
  obtain ⟨-, hvalues⟩ := hall.2.2.2 hreports hpackets hqueue hmessage
  obtain ⟨last, hread, hlast⟩ := Option.map_eq_some_iff.mp hpositions
  obtain ⟨hlastHigh, hlastMid⟩ := Prod.mk.inj hlast
  have hfirst := (hvalues .hiL ⟨1, .layer, .A, Parameters.equalizerHigh⟩ rfl).1 hhigh
  have hsecond := (hvalues .midL ⟨1, .layer, .A, Parameters.equalizerMid⟩ rfl).1 hmid
  rw [hread] at hfirst hsecond
  refine ⟨s, hcalls, hfirst.trans ?_, hsecond.trans ?_⟩
  · show some ((last.hiL.toNat : ℚ)) = some 9
    rw [hlastHigh]
    rfl
  · show some ((last.midL.toNat : ℚ)) = some 2
    rw [hlastMid]
    rfl

end Pmx.TraktorControl
