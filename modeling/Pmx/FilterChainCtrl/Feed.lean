import Mathlib.Data.List.ReduceOption
import Pmx.FilterChainCtrl.Delivery
import Pmx.FilterChainCtrl.Packets

/-!
# A producer in front of the packet loop

A producer publishes some messages in a cycle, `pmx-filter-chain-ctrl` reads them in
the same cycle, sixteen at most, and its other thread makes the calls.  Whatever the
producer is, each item that it publishes asks for a call or for none, and the calls
are made in the order of the items (`calls_of_feed`).
-/

namespace Pmx.FilterChainCtrl

open Cxx Osc Transition

/-- What `parse_osc<16>` makes of the messages in a buffer. -/
abbrev ParseOsc := List OscMessage → Except Str (Vector (Option OscMessage) 16)

/-- It finds the messages in their order, if there are no more than it has room for. -/
def FindsSixteen (parseOsc : ParseOsc) : Prop :=
  ∀ messages, messages.length ≤ 16 →
    ∃ slots, parseOsc messages = .ok slots ∧ slots.toList.reduceOption = messages

/-- The packets that the loop goes through; a buffer that cannot be parsed is logged. -/
def packetsOf : Except Str (Vector (Option OscMessage) 16) → List OscMessage
  | .ok slots => slots.toList.reduceOption
  | .error _ => []

theorem packetsOf_eq {parseOsc : ParseOsc} (hparse : FindsSixteen parseOsc)
    {messages : List OscMessage} (hlength : messages.length ≤ 16) :
    packetsOf (parseOsc messages) = messages := by
  obtain ⟨slots, hslots, hmessages⟩ := hparse messages hlength
  rw [hslots]
  exact hmessages

/-- A parser that leaves the slots behind the messages empty. -/
def parseFirst : ParseOsc := fun messages =>
  .ok (Vector.ofFn fun i => messages[i.val]?)

theorem findsSixteen_parseFirst : FindsSixteen parseFirst := by
  intro messages hlength
  exact ⟨_, rfl, filterMap_slots hlength⟩

variable {Item Client : Type}

/-- A node parameter holds the id of a chain. -/
def Holds (client : ℤ → Option Client) (parameters : List (Str × PropertyValue)) (name : Str)
    (chain : Client) : Prop :=
  ∃ id, filterChainId name parameters = .ok (some id) ∧ client id = some chain

theorem holds_of_toOption {client : ℤ → Option Client} {parameters : List (Str × PropertyValue)}
    {name : Str} {id : ℤ} {chain : Client}
    (hid : (filterChainId name parameters).toOption = some (some id))
    (hclient : client id = some chain) : Holds client parameters name chain := by
  cases hfound : filterChainId name parameters with
  | error fault => simp [hfound, Except.toOption] at hid
  | ok found =>
      rw [hfound] at hid
      cases hid
      exact ⟨id, hfound, hclient⟩

namespace Feed

/-- `packets` are those of the cycle that the packet loop has not come to, and
`published` all items that the producer has published. -/
structure State (Item Client : Type) where
  packets : List OscMessage
  chains : FilterChainCtrl.State Client
  published : List Item

def initial (Item Client : Type) (parameters : List (Str × PropertyValue)) : State Item Client :=
  ⟨[], FilterChainCtrl.initial Client parameters, []⟩

inductive Label (Item : Type)
  | publish (items : List Item)
  | packet
  | chains (label : FilterChainCtrl.Label)

variable (message : Item → OscMessage) (client : ℤ → Option Client)

/-- The producer publishes when the packet loop is through with the last cycle. -/
def step (s : State Item Client) : Label Item → Option (State Item Client)
  | .publish items =>
      if s.packets.isEmpty then some { s with
        packets := items.map message
        published := s.published ++ items }
      else none
  | .packet =>
      match s.packets with
      | packet :: rest =>
          (FilterChainCtrl.step client s.chains (.packet packet)).map fun chains =>
            { s with chains, packets := rest }
      | [] => none
  -- packets come from the producers only
  | .chains (.packet _) => none
  | .chains label =>
      (FilterChainCtrl.step client s.chains label).map fun chains => { s with chains }

variable (wanted : Item → Option (SetPropsParam Client))

/-- The message of an item is handled, and accepted as the one for the call that the
item asks for. -/
structure Handled (parameters : List (Str × PropertyValue)) (item : Item) : Prop where
  returns : ∀ state : LoopState 128, ∃ next, handlePacket parameters state (message item) = .ok next
  target : ∀ accepted, acceptedMessage parameters (message item) = some accepted →
    (client accepted.filterChainId).isSome
  calls : (acceptedMessage parameters (message item)).toList.map (callOf client) =
    (wanted item).toList.map some

/-- The items whose message comes next are handled. -/
def NextHandled (s : State Item Client) : Prop :=
  ∀ item ∈ s.published, s.packets.head? = some (message item) →
    Handled message client wanted s.chains.parameters item

/-- The next packet is handled, and finds room in the queue if it is accepted; and none
is queued behind the message that is popped. -/
def Reliable (s : State Item Client) : Label Item → Prop
  | .packet => NextHandled message client wanted s ∧
      ∀ packet, s.packets.head? = some packet → RoomForAccepted s.chains (.packet packet)
  | .chains label => SinglePop s.chains label
  | .publish _ => True

/-- The calls for the packets that have been read are under way, and the rest is
still to be read. -/
structure Follows (s : State Item Client) : Prop where
  lossless : Lossless client s.chains
  packets : ∃ read unread, s.published = read ++ unread ∧ s.packets = unread.map message ∧
    s.chains.accepted.map (callOf client) = (read.filterMap wanted).map some

variable {message client wanted}

theorem follows_publish {s s' : State Item Client} {items : List Item}
    (h : Follows message client wanted s)
    (hstep : step message client s (.publish items) = some s') :
    Follows message client wanted s' := by
  obtain ⟨read, unread, hsplit, hpackets, haccepted⟩ := h.packets
  simp only [step] at hstep
  split_ifs at hstep with hempty
  cases hstep
  -- the packets of the last cycle have all been read
  have hall : unread = [] := by
    rw [List.isEmpty_iff.mp hempty] at hpackets
    exact List.map_eq_nil_iff.mp hpackets.symm
  refine ⟨h.lossless, read, items, ?_, rfl, haccepted⟩
  rw [hsplit, hall, List.append_nil]

theorem follows_packet {s s' : State Item Client} (h : Follows message client wanted s)
    (hreliable : Reliable message client wanted s .packet)
    (hstep : step message client s .packet = some s') : Follows message client wanted s' := by
  obtain ⟨read, unread, hsplit, hpackets, haccepted⟩ := h.packets
  obtain ⟨hhandled, hroom⟩ := hreliable
  cases unread with
  | nil => simp [step, hpackets] at hstep
  | cons item rest =>
      simp only [step, hpackets, List.map_cons] at hstep
      obtain ⟨next, hnext, rfl⟩ := Option.map_eq_some_iff.mp hstep
      have hmem : item ∈ s.published := by simp [hsplit]
      have hhead : s.packets.head? = some (message item) := by rw [hpackets]; rfl
      have hitem := hhandled item hmem hhead
      have htarget : TargetKnown client s.chains (.packet (message item)) := hitem.target
      have hlossless : Lossless client next :=
        lossless_step h.lossless ⟨htarget, hroom (message item) hhead, trivial⟩ hnext
      have hnew : next.accepted = s.chains.accepted ++
          (acceptedMessage s.chains.parameters (message item)).toList := by
        simp only [FilterChainCtrl.step] at hnext
        split at hnext <;> cases hnext
        rfl
      refine ⟨hlossless, read ++ [item], rest, ?_, rfl, ?_⟩
      · rw [hsplit, List.append_assoc]
        rfl
      · show next.accepted.map (callOf client) = _
        rw [hnew, List.map_append, haccepted, hitem.calls, List.filterMap_append,
          List.map_append]
        cases hwanted : wanted item <;> simp [hwanted]

theorem follows_chains {s : State Item Client} {label : FilterChainCtrl.Label}
    (hlabel : ∀ packet, label ≠ .packet packet) (h : Follows message client wanted s)
    (hsingle : SinglePop s.chains label) {next : FilterChainCtrl.State Client}
    (hnext : FilterChainCtrl.step client s.chains label = some next) :
    Follows message client wanted { s with chains := next } := by
  have hkeeps : Keeps client s.chains label := by
    cases label with
    | packet packet => exact absurd rfl (hlabel packet)
    | parameters | pop | call => exact ⟨trivial, trivial, hsingle⟩
  have hsame : next.accepted = s.chains.accepted := by
    cases label with
    | packet packet => exact absurd rfl (hlabel packet)
    | parameters parameters =>
        cases hnext
        rfl
    | pop | call =>
        simp only [FilterChainCtrl.step] at hnext
        split at hnext <;> cases hnext
        rfl
  refine ⟨lossless_step h.lossless hkeeps hnext, ?_⟩
  obtain ⟨read, unread, hsplit, hpackets, haccepted⟩ := h.packets
  exact ⟨read, unread, hsplit, hpackets, hsame ▸ haccepted⟩

theorem follows_step {s s' : State Item Client} {label : Label Item}
    (h : Follows message client wanted s) (hreliable : Reliable message client wanted s label)
    (hstep : step message client s label = some s') : Follows message client wanted s' := by
  cases label with
  | publish items => exact follows_publish h hstep
  | packet => exact follows_packet h hreliable hstep
  | chains label =>
      have hsingle : SinglePop s.chains label := hreliable
      cases label with
      | packet packet => cases hstep
      | parameters | pop | call =>
          simp only [step] at hstep
          obtain ⟨next, hnext, rfl⟩ := Option.map_eq_some_iff.mp hstep
          exact follows_chains (fun _ => by simp) h hsingle hnext

theorem follows_of_run {parameters : List (Str × PropertyValue)} {labels : List (Label Item)}
    {s : State Item Client}
    (run : Run (step message client) (Reliable message client wanted)
      (initial Item Client parameters) labels s) : Follows message client wanted s := by
  refine run.state_invariant (I := Follows message client wanted) ?_ fun _ _ _ h hreliable hstep =>
    follows_step h hreliable hstep
  exact ⟨⟨rfl, fun _ h => absurd h List.not_mem_nil, [], rfl, rfl⟩, [], [], rfl, rfl, rfl⟩

/-- The last call for a control is the one for the last item that is for it. -/
theorem controlValue_filterMap [DecidableEq Client] {isFor : Item → Prop} [DecidablePred isFor]
    {value : Item → ℚ} {control : Client × Str} {items : List Item}
    (hfor : ∀ item ∈ items, isFor item →
      ∃ call, wanted item = some call ∧ (call.client, call.parameterName) = control ∧
        call.value = value item)
    (hother : ∀ item ∈ items, ¬ isFor item → ∀ call, wanted item = some call →
      (call.client, call.parameterName) ≠ control) :
    controlValue (items.filterMap wanted) control =
      (items.reverse.find? fun item => isFor item).map value := by
  induction items using List.reverseRecOn with
  | nil => rfl
  | append_singleton before last ih =>
      rw [List.forall_mem_append, List.forall_mem_singleton] at hfor hother
      have hbefore := ih hfor.1 hother.1
      unfold controlValue at hbefore ⊢
      rw [List.filterMap_append, List.reverse_append, List.reverse_append,
        List.reverse_singleton, List.singleton_append, List.find?_cons]
      by_cases hlast : isFor last
      · obtain ⟨call, hcall, hcontrol, hvalue⟩ := hfor.2 hlast
        simp [hcall, hcontrol, hlast, hvalue]
      · cases hcall : wanted last with
        | none => simpa [hcall, hlast] using hbefore
        | some call =>
            have hskip : decide ((call.client, call.parameterName) = control) = false :=
              decide_eq_false (hother.2 hlast call hcall)
            have hcalls : [last].filterMap wanted = [call] := by
              simp [hcall]
            rw [hcalls, List.reverse_singleton, List.singleton_append, List.find?_cons]
            simp only [hskip, hlast, decide_false]
            exact hbefore

/-- **Any producer.**  The calls are made in the order of the items, one for each item
that asks for one; the packet loop goes on if the next packet is handled; and when
everything is through all calls have been made. -/
theorem calls_of_feed {parameters : List (Str × PropertyValue)} {labels : List (Label Item)}
    {s : State Item Client}
    (run : Run (step message client) (Reliable message client wanted)
      (initial Item Client parameters) labels s) :
    (∃ outstanding, s.published.filterMap wanted = s.chains.calls ++ outstanding) ∧
      (NextHandled message client wanted s → s.packets ≠ [] →
        (step message client s .packet).isSome) ∧
      (s.packets = [] → s.chains.queue.items = [] → s.chains.message = none →
        s.chains.calls = s.published.filterMap wanted) := by
  have hfollows := follows_of_run run
  obtain ⟨read, unread, hsplit, hpackets, haccepted⟩ := hfollows.packets
  obtain ⟨_, _, delivered, hpartition, hdelivered⟩ := hfollows.lossless
  have hcalls : s.chains.calls.map some ++
      (s.chains.message.toList ++ s.chains.queue.items).map (callOf client) =
        (read.filterMap wanted).map some := by
    rw [← haccepted, hpartition, ← hdelivered]
    simp
  obtain ⟨made, rest, hread, hmade, _⟩ := List.map_eq_append_iff.mp hcalls.symm
  have hinjective : made = s.chains.calls :=
    List.map_injective_iff.mpr (Option.some_injective _) hmade
  refine ⟨⟨rest ++ unread.filterMap wanted, ?_⟩, ?_, ?_⟩
  · rw [hsplit, List.filterMap_append, hread, hinjective, List.append_assoc]
  · intro hhandled hne
    cases unread with
    | nil => exact absurd hpackets hne
    | cons item more =>
        have hmem : item ∈ s.published := by simp [hsplit]
        have hitem := hhandled item hmem (by rw [hpackets]; rfl)
        obtain ⟨next, hnext⟩ := hitem.returns ⟨s.chains.queue, false, []⟩
        simp [step, hpackets, FilterChainCtrl.step, hnext]
  · intro hempty hqueue hmessage
    rw [hempty] at hpackets
    rw [hqueue, hmessage] at hcalls
    have hread : s.published = read := by
      rw [hsplit, List.map_eq_nil_iff.mp hpackets.symm, List.append_nil]
    rw [hread]
    refine List.map_injective_iff.mpr (Option.some_injective _) ?_
    simpa using hcalls

end Feed

end Pmx.FilterChainCtrl
