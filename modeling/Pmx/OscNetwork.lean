import Mathlib.Data.List.Flatten
import Mathlib.Data.List.Perm.Basic
import Mathlib.Data.List.Perm.Subperm
import Pmx.OscNetworkReceiver
import Pmx.OscNetworkSender

/-!
# OSC over the network

`pmx-osc-network-sender` sends the OSC controls of its input as datagrams, and
`pmx-osc-network-receiver` publishes the datagrams it receives as OSC controls.
Between the two is a network that may lose datagrams and deliver them in any
order.

Whatever the network does, a published message is a whole control that has been
offered, and none is published more often than it was offered.  With a network
that keeps datagrams and their order, queues that have room and buffers that fit,
the pair of programs is one first-in first-out pipe (`published_of_run`).
-/

namespace Pmx.OscNetwork

open Cxx PodBuilder Transition

/-- The sender, the datagrams on their way in the order of sending, and the
receiver. -/
structure State where
  sender : OscNetworkSender.State
  inFlight : List OscNetworkSender.QueueMessage
  receiver : OscNetworkReceiver.State

def initial : State :=
  ⟨OscNetworkSender.initial, [], OscNetworkReceiver.initial⟩

/-- A datagram that arrives or gets lost is meant by its position. -/
inductive Label
  | sender (label : OscNetworkSender.Label)
  | deliver (index : ℕ)
  | lose (index : ℕ)
  | receiver (label : OscNetworkReceiver.Label)

/-- A datagram of the sender fits into the array of the receiver. -/
def arrive (message : OscNetworkSender.QueueMessage) : OscNetworkReceiver.QueueMessage :=
  ⟨message.data, message.bounded⟩

/-- The receiver receives only what the network delivers. -/
def step (s : State) : Label → Option State
  | .sender label =>
      (OscNetworkSender.step s.sender label).map fun sender => { s with
        sender
        inFlight := s.inFlight ++ sender.sent.drop s.sender.sent.length }
  | .deliver index =>
      match s.inFlight[index]? with
      | some message =>
          (OscNetworkReceiver.step s.receiver (.receive (arrive message))).map fun receiver =>
            { s with receiver, inFlight := s.inFlight.eraseIdx index }
      | none => none
  -- a datagram may be lost, and any datagram may come next
  | .lose index =>
      if index < s.inFlight.length then some { s with inFlight := s.inFlight.eraseIdx index }
      else none
  | .receiver (.receive _) => none
  | .receiver label =>
      (OscNetworkReceiver.step s.receiver label).map fun receiver => { s with receiver }

/-- Nothing gets lost: the sender keeps all, the network delivers the oldest
datagram, and the receiver has room for it. -/
def Reliable (s : State) : Label → Prop
  | .sender label => OscNetworkSender.Keeps s.sender label
  | .deliver index => index = 0 ∧ s.receiver.queue.HasRoom
  | .lose _ => False
  | .receiver _ => True

instance (s : State) : DecidablePred (Reliable s)
  | .sender label => inferInstanceAs (Decidable (OscNetworkSender.Keeps s.sender label))
  | .deliver index => inferInstanceAs (Decidable (index = 0 ∧ s.receiver.queue.HasRoom))
  | .lose _ => isFalse id
  | .receiver _ => isTrue trivial

/-- The messages that the receiver has published. -/
def State.published (s : State) : List OscNetworkReceiver.QueueMessage :=
  s.receiver.published.flatMap fun sequence => values sequence.items

/-- The messages on their way: in the receiver's cycle and queue, in the network,
and in the sender's thread and queue. -/
def State.underWay (s : State) : List OscNetworkReceiver.QueueMessage :=
  s.receiver.phase.taken ++ s.receiver.queue.items ++
    (s.inFlight ++ s.sender.message.toList ++ s.sender.queue.items).map arrive

/-! ## The receiver with any queue -/

/-- What the receiver still has of the datagrams that it has received. -/
def pending (s : OscNetworkReceiver.State) : List OscNetworkReceiver.QueueMessage :=
  s.published.flatMap OscNetworkReceiver.Published.taken ++ s.phase.taken ++ s.queue.items

/-- It has them in their order, and published sequences have only messages of their
cycle. -/
structure Traced (s : OscNetworkReceiver.State) : Prop where
  received : (pending s).Sublist s.received
  holds : s.phase.Holds
  published : ∀ sequence ∈ s.published, (values sequence.items).Sublist sequence.taken

theorem traced_receive {s : OscNetworkReceiver.State} (h : Traced s)
    (message : OscNetworkReceiver.QueueMessage) :
    Traced { s with
      queue := (s.queue.push message).2
      received := s.received ++ [message] } := by
  refine ⟨?_, h.holds, h.published⟩
  show (_ ++ (s.queue.push message).2.items).Sublist (s.received ++ [message])
  rw [BoundedFifo.items_push]
  split
  · rw [← List.append_assoc]
    exact h.received.append (List.Sublist.refl _)
  · exact h.received.trans (List.sublist_append_left _ _)

theorem traced_phase {s : OscNetworkReceiver.State} (h : Traced s)
    {phase : OscNetworkReceiver.Phase} (htaken : phase.taken = s.phase.taken)
    (hholds : phase.Holds) : Traced { s with phase := phase } := by
  refine ⟨?_, hholds, h.published⟩
  show (_ ++ phase.taken ++ _).Sublist s.received
  rw [htaken]
  exact h.received

theorem traced_pop {s : OscNetworkReceiver.State} (h : Traced s)
    {builder : Builder OscNetworkReceiver.QueueMessage}
    {taken : List OscNetworkReceiver.QueueMessage} (hphase : s.phase = .draining builder taken)
    {message : OscNetworkReceiver.QueueMessage}
    {rest : BoundedFifo 128 OscNetworkReceiver.QueueMessage}
    (hpop : s.queue.pop = some (message, rest)) :
    Traced { s with
      queue := rest
      phase :=
        .draining (OscNetworkReceiver.addMessage builder message) (taken ++ [message]) } := by
  have hholds := h.holds
  rw [hphase] at hholds
  refine ⟨?_, OscNetworkReceiver.holds_addMessage hholds message, h.published⟩
  have hpending : s.published.flatMap OscNetworkReceiver.Published.taken ++
      (taken ++ [message]) ++ rest.items = pending s := by
    rw [pending, hphase, BoundedFifo.items_of_pop hpop]
    simp [OscNetworkReceiver.Phase.taken]
  show (_ ++ (taken ++ [message]) ++ rest.items).Sublist s.received
  rw [hpending]
  exact h.received

theorem traced_publish {s : OscNetworkReceiver.State} (h : Traced s)
    {builder : Builder OscNetworkReceiver.QueueMessage}
    {taken : List OscNetworkReceiver.QueueMessage}
    (hphase : s.phase = .finishing builder taken) :
    Traced { s with
      phase := .idle
      published := s.published ++ [⟨builder.size, builder.offset, builder.pop, taken⟩] } := by
  have hreceived := h.received
  have hholds := h.holds
  rw [pending, hphase] at hreceived
  rw [hphase] at hholds
  refine ⟨?_, trivial, ?_⟩
  · simpa [pending, OscNetworkReceiver.Phase.taken] using hreceived
  · intro sequence hmem
    rcases List.mem_append.mp hmem with hold | hnew
    · exact h.published sequence hold
    · cases List.mem_singleton.mp hnew
      show (values builder.pop).Sublist taken
      rw [(OscNetworkReceiver.published_of_holds hholds).2]
      exact ifFits_sublist ..

theorem traced_step {s s' : OscNetworkReceiver.State} {label : OscNetworkReceiver.Label}
    (h : Traced s) (hstep : OscNetworkReceiver.step s label = some s') : Traced s' := by
  cases OscNetworkReceiver.effect_step hstep with
  | receive message => exact traced_receive h message
  | phase phase htaken hholds => exact traced_phase h htaken (hholds h.holds)
  | pop hphase hpop => exact traced_pop h hphase hpop
  | publish hphase => exact traced_publish h hphase

theorem traced_of_run {labels : List OscNetworkReceiver.Label} {s : OscNetworkReceiver.State}
    (run : Reaches OscNetworkReceiver.step OscNetworkReceiver.initial labels s) : Traced s := by
  refine run.state_invariant ⟨List.Sublist.refl _, trivial, ?_⟩ fun _ _ _ h _ => traced_step h
  exact fun _ hmem => absurd hmem List.not_mem_nil

/-! ## The network -/

/-- A step of the sender sends something more, or nothing. -/
theorem sent_step {s s' : OscNetworkSender.State} {label : OscNetworkSender.Label}
    (h : OscNetworkSender.step s label = some s') :
    s.sent ++ s'.sent.drop s.sent.length = s'.sent := by
  rw [← List.prefix_iff_eq_append]
  cases label with
  | cycle buffer =>
      simp only [OscNetworkSender.step] at h
      split at h
      · cases h
        exact ⟨[], by rw [List.append_nil, OscNetworkSender.sent_startCycle]⟩
      · cases h
  | next =>
      simp only [OscNetworkSender.step] at h
      split at h
      · exact ⟨[], by rw [List.append_nil, OscNetworkSender.sent_handleControl h]⟩
      · cases h
        exact List.prefix_rfl
      · cases h
  | protocol protocol =>
      cases h
      exact List.prefix_rfl
  | pop =>
      simp only [OscNetworkSender.step] at h
      split at h
      · cases h
        exact List.prefix_rfl
      · cases h
  | send =>
      simp only [OscNetworkSender.step] at h
      split at h
      · cases h
        show s.sent <+: if s.protocol = lit "udp" then s.sent ++ [_] else s.sent
        split
        · exact List.prefix_append _ _
        · exact List.prefix_rfl
      · cases h

/-- Only an arrival changes what has been received. -/
theorem received_step {s s' : OscNetworkReceiver.State} {label : OscNetworkReceiver.Label}
    (hlabel : ∀ message, label ≠ .receive message)
    (h : OscNetworkReceiver.step s label = some s') : s'.received = s.received := by
  cases OscNetworkReceiver.effect_step h with
  | receive message => exact absurd rfl (hlabel message)
  | phase | pop | publish => rfl

theorem received_receive {s s' : OscNetworkReceiver.State}
    {message : OscNetworkReceiver.QueueMessage}
    (h : OscNetworkReceiver.step s (.receive message) = some s') :
    s'.received = s.received ++ [message] := by
  cases h
  rfl

/-- What a step of the whole means for its parts. -/
inductive Part (s : State) (label : Label) (s' : State) : Prop
  | sender (own : OscNetworkSender.Label) (isOwn : label = .sender own)
      (next : OscNetworkSender.step s.sender own = some s'.sender)
      (receiver : s'.receiver = s.receiver)
      (inFlight : s'.inFlight = s.inFlight ++ s'.sender.sent.drop s.sender.sent.length)
  | deliver (index : ℕ) (message : OscNetworkSender.QueueMessage) (isOwn : label = .deliver index)
      (found : s.inFlight[index]? = some message) (sender : s'.sender = s.sender)
      (next : OscNetworkReceiver.step s.receiver (.receive (arrive message)) = some s'.receiver)
      (inFlight : s'.inFlight = s.inFlight.eraseIdx index)
  | lose (index : ℕ) (isOwn : label = .lose index) (sender : s'.sender = s.sender)
      (receiver : s'.receiver = s.receiver) (inFlight : s'.inFlight = s.inFlight.eraseIdx index)
  | receiver (own : OscNetworkReceiver.Label) (isOwn : label = .receiver own)
      (other : ∀ message, own ≠ .receive message) (sender : s'.sender = s.sender)
      (next : OscNetworkReceiver.step s.receiver own = some s'.receiver)
      (inFlight : s'.inFlight = s.inFlight)

theorem part_step {s s' : State} {label : Label} (h : step s label = some s') :
    Part s label s' := by
  cases label with
  | sender own =>
      obtain ⟨sender, hnext, rfl⟩ := Option.map_eq_some_iff.mp h
      exact .sender own rfl hnext rfl rfl
  | deliver index =>
      simp only [step] at h
      split at h
      · rename_i message hfound
        obtain ⟨receiver, hnext, rfl⟩ := Option.map_eq_some_iff.mp h
        exact .deliver index message rfl hfound rfl hnext rfl
      · cases h
  | lose index =>
      simp only [step] at h
      split at h
      · cases h
        exact .lose index rfl rfl rfl rfl
      · cases h
  | receiver own =>
      cases own with
      | receive message => cases h
      | cycle | readAvailable | pop | publish =>
          obtain ⟨receiver, hnext, rfl⟩ := Option.map_eq_some_iff.mp h
          exact .receiver _ rfl (fun _ => by simp) rfl hnext rfl

variable {labels : List Label} {s : State}

/-- The sender's part of a run. -/
theorem run_sender {guard : State → Label → Prop}
    (guard' : OscNetworkSender.State → OscNetworkSender.Label → Prop)
    (hguard : ∀ s own, guard s (.sender own) → guard' s.sender own)
    (run : Run step guard initial labels s) :
    ∃ labels', Run OscNetworkSender.step guard' OscNetworkSender.initial labels' s.sender := by
  refine run.project State.sender fun _ s label s' _ hmeets hstep => ?_
  cases part_step hstep with
  | sender own hown hnext _ _ =>
      subst hown
      exact Or.inr ⟨own, hguard s own hmeets, hnext⟩
  | deliver _ _ _ _ hsame _ _ => exact Or.inl hsame
  | lose _ _ hsame _ _ => exact Or.inl hsame
  | receiver _ _ _ hsame _ _ => exact Or.inl hsame

/-- The receiver's part of a run. -/
theorem run_receiver {guard : State → Label → Prop}
    (guard' : OscNetworkReceiver.State → OscNetworkReceiver.Label → Prop)
    (harrival : ∀ s index message, guard s (.deliver index) → guard' s.receiver (.receive message))
    (hown : ∀ s own, (∀ message, own ≠ .receive message) → guard' s own)
    (run : Run step guard initial labels s) :
    ∃ labels',
      Run OscNetworkReceiver.step guard' OscNetworkReceiver.initial labels' s.receiver := by
  refine run.project State.receiver fun _ s label s' _ hmeets hstep => ?_
  cases part_step hstep with
  | sender _ _ _ hsame _ => exact Or.inl hsame
  | deliver index message hlabel _ _ hnext _ =>
      subst hlabel
      exact Or.inr ⟨_, harrival s index _ hmeets, hnext⟩
  | lose _ _ _ hsame _ => exact Or.inl hsame
  | receiver own _ hother _ hnext _ => exact Or.inr ⟨own, hown _ own hother, hnext⟩

/-- The network makes nothing up. -/
theorem subperm_sent (run : Reaches step initial labels s) :
    (s.receiver.received ++ s.inFlight.map arrive).Subperm (s.sender.sent.map arrive) := by
  refine run.state_invariant
    (I := fun s => (s.receiver.received ++ s.inFlight.map arrive).Subperm
      (s.sender.sent.map arrive)) (List.Subperm.refl _) ?_
  intro s label s' h _ hstep
  cases part_step hstep with
  | sender own _ hnext hreceiver hinFlight =>
      rw [hreceiver, hinFlight, List.map_append, ← List.append_assoc]
      nth_rewrite 2 [← sent_step hnext]
      rw [List.map_append]
      exact h.append (List.Subperm.refl _)
  | deliver index message _ hfound hsender hnext hinFlight =>
      have hreceived := received_receive hnext
      obtain ⟨hindex, rfl⟩ := List.getElem?_eq_some_iff.mp hfound
      -- the datagram goes from one list to the other
      have hperm : (s.receiver.received ++ [arrive s.inFlight[index]] ++
          (s.inFlight.eraseIdx index).map arrive).Perm
          (s.receiver.received ++ s.inFlight.map arrive) := by
        rw [List.append_assoc, List.singleton_append, ← List.map_cons]
        exact ((List.getElem_cons_eraseIdx_perm hindex).map arrive).append_left _
      rw [hreceived, hinFlight, hsender]
      exact hperm.subperm.trans h
  | lose index _ hsender hreceiver hinFlight =>
      rw [hreceiver, hinFlight, hsender]
      refine List.Subperm.trans (List.Sublist.subperm ?_) h
      exact (List.Sublist.refl _).append ((List.eraseIdx_sublist ..).map arrive)
  | receiver own _ hother hsender hnext hinFlight =>
      rw [received_step hother hnext, hinFlight, hsender]
      exact h

/-- A reliable network has what has been sent and not received. -/
theorem received_eq_sent (run : Run step Reliable initial labels s) :
    s.receiver.received ++ s.inFlight.map arrive = s.sender.sent.map arrive := by
  refine run.state_invariant (I := fun s => s.receiver.received ++ s.inFlight.map arrive =
    s.sender.sent.map arrive) rfl ?_
  intro s label s' h hreliable hstep
  cases part_step hstep with
  | sender own _ hnext hreceiver hinFlight =>
      rw [hreceiver, hinFlight, List.map_append, ← List.append_assoc, h, ← List.map_append,
        sent_step hnext]
  | deliver index message hlabel hfound hsender hnext hinFlight =>
      subst hlabel
      have hreceived := received_receive hnext
      obtain ⟨rfl, _⟩ := hreliable
      cases hflight : s.inFlight with
      | nil => simp [hflight] at hfound
      | cons oldest rest =>
          have holdest : oldest = message := by
            simpa [hflight] using hfound
          rw [hreceived, hinFlight, hsender, ← h, hflight, holdest]
          simp
  | lose index hlabel _ _ _ =>
      subst hlabel
      exact hreliable.elim
  | receiver own _ hother hsender hnext hinFlight =>
      rw [received_step hother hnext, hinFlight, hsender]
      exact h

/-! ## The whole way -/

/-- What is published and under way has been offered to the sender, each message
as often at most. -/
theorem subperm_offered (run : Reaches step initial labels s) :
    (s.published ++ s.underWay).Subperm (s.sender.offered.map arrive) := by
  obtain ⟨_, hsender⟩ := run_sender (fun _ _ => True) (fun _ _ _ => trivial) run
  obtain ⟨_, hreceiver⟩ := run_receiver (fun _ _ => True)
    (fun _ _ _ _ => trivial) (fun _ _ _ => trivial) run
  have hforwarded := OscNetworkSender.sublist_of_run hsender
  have htraced := traced_of_run hreceiver
  have hvalues : s.published.Sublist
      (s.receiver.published.flatMap OscNetworkReceiver.Published.taken) :=
    List.Sublist.flatMap_right _ fun sequence hmem => htraced.published sequence hmem
  have hpending : (s.published ++ (s.receiver.phase.taken ++ s.receiver.queue.items)).Sublist
      s.receiver.received := by
    rw [← List.append_assoc]
    exact ((hvalues.append_right _).append_right _).trans htraced.received
  have hsent : (s.published ++ (s.receiver.phase.taken ++ s.receiver.queue.items) ++
      s.inFlight.map arrive).Subperm (s.sender.sent.map arrive) :=
    (hpending.append_right _).subperm.trans (subperm_sent run)
  have hunderWay : s.published ++ s.underWay =
      s.published ++ (s.receiver.phase.taken ++ s.receiver.queue.items) ++
        s.inFlight.map arrive ++ (s.sender.message.toList ++ s.sender.queue.items).map arrive := by
    simp [State.underWay]
  have hwhole : s.sender.sent.map arrive ++
      (s.sender.message.toList ++ s.sender.queue.items).map arrive =
        s.sender.forwarded.map arrive := by
    simp [OscNetworkSender.State.forwarded]
  rw [hunderWay]
  refine (hsent.append (List.Subperm.refl _)).trans ?_
  rw [hwhole]
  exact (hforwarded.map arrive).subperm

/-- In a reliable run whose buffers fit, nothing is missing and the order is kept. -/
theorem published_append_underWay (run : Run step Reliable initial labels s)
    (hfits : ∀ sequence ∈ s.receiver.published, sequence.Fits) :
    s.published ++ s.underWay = s.sender.offered.map arrive := by
  obtain ⟨_, hsender⟩ := run_sender OscNetworkSender.Keeps (fun _ _ h => h) run
  obtain ⟨_, hreceiver⟩ := run_receiver OscNetworkReceiver.WithinQueue
    (fun _ _ _ h => h.2) (fun _ own hother => by
      cases own with
      | receive message => exact absurd rfl (hother message)
      | cycle | readAvailable | pop | publish => trivial) run
  have hforwarded := OscNetworkSender.forwarded_of_run hsender
  have haccounted := OscNetworkReceiver.accounted_of_run hreceiver
  have hpublished : s.published =
      s.receiver.published.flatMap OscNetworkReceiver.Published.taken :=
    List.flatMap_congr fun sequence hmem =>
      OscNetworkReceiver.values_of_fits haccounted hmem (hfits sequence hmem)
  calc s.published ++ s.underWay
      = s.receiver.received ++ s.inFlight.map arrive ++
          (s.sender.message.toList ++ s.sender.queue.items).map arrive := by
        rw [hpublished, ← haccounted.received]
        simp [State.underWay]
    _ = s.sender.sent.map arrive ++
          (s.sender.message.toList ++ s.sender.queue.items).map arrive := by
        rw [received_eq_sent run]
    _ = s.sender.forwarded.map arrive := by
        simp [OscNetworkSender.State.forwarded]
    _ = s.sender.offered.map arrive := by
        rw [hforwarded]

/-- **One pipe.**  Over any network, what has been published and what is under way
has been offered to the sender, each message as often at most.  Over a network
that keeps datagrams and their order, with room in both queues, a known protocol
and buffers that fit, it is exactly what has been offered, in its order. -/
theorem published_of_run :
    (∀ labels s, Reaches step initial labels s →
        (s.published ++ s.underWay).Subperm (s.sender.offered.map arrive)) ∧
      ∀ labels s, Run step Reliable initial labels s →
        (∀ sequence ∈ s.receiver.published, sequence.Fits) →
          s.published ++ s.underWay = s.sender.offered.map arrive :=
  ⟨fun _ _ run => subperm_offered run, fun _ _ run hfits => published_append_underWay run hfits⟩

instance : DecidablePred OscNetworkReceiver.Published.Fits := fun sequence =>
  inferInstanceAs (Decidable (16 + framedBytes OscNetworkReceiver.QueueMessage.size
    sequence.taken ≤ sequence.maxsize))

/-- Two OSC controls, the second of which arrives while the cycle of the first drains the
queue. -/
def twoControls : List Label :=
  [.sender (.cycle (some (some ⟨true, [⟨3, .bytes (lit "/a")⟩, ⟨3, .bytes (lit "/b")⟩]⟩))),
    .sender .next, .sender .next, .sender .next, .sender .pop, .sender .send, .sender .pop,
    .sender .send, .deliver 0, .receiver (.cycle (some 4096)), .receiver .readAvailable,
    .receiver .pop, .deliver 0, .receiver .pop, .receiver .pop, .receiver .publish]

theorem published_of_run_two_controls :
    ∃ s : State,
      s.published.map OscNetworkReceiver.QueueMessage.data = [lit "/a", lit "/b"] ∧
        s.published = s.sender.offered.map arrive := by
  have htrace : (exec (fun s a => if decide (Reliable s a) then step s a else none) initial
      twoControls).map (fun s => decide
        (s.published.map OscNetworkReceiver.QueueMessage.data = [lit "/a", lit "/b"] ∧
          s.underWay = [] ∧ ∀ sequence ∈ s.receiver.published, sequence.Fits)) = some true := by
    decide +kernel
  obtain ⟨s, hs, hlast⟩ := Option.map_eq_some_iff.mp htrace
  obtain ⟨hpublished, hdrained, hfits⟩ := of_decide_eq_true hlast
  have hrun : Run step Reliable initial twoControls s :=
    run_of_checked (fun _ _ => of_decide_eq_true) hs
  have hpipe := published_of_run.2 twoControls s hrun hfits
  rw [hdrained, List.append_nil] at hpipe
  exact ⟨s, hpublished, hpipe⟩

end Pmx.OscNetwork
