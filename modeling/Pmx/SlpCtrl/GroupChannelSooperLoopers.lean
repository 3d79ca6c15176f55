import Pmx.CtrlPipe
import Pmx.SlpCtrl.Leds

/-!
# `GroupChannelSooperLoopers`

The class keeps the eight loops as the signal processor does, and reads the same
reports.  It takes a report as it comes, while the signal processor first
collects the updates of a buffer.  An index from the network goes straight into
the array of the class; the signal processor passes over one that is not below
eight (`readSlOsc_inside`).

Where every reported index is one of the eight, the two leave the same states
(`agree_iff_inside`).
-/

namespace Pmx.SlpCtrl

open Cxx Osc

/-- `_loopers` by their states, and `_known_eighth_per_cycle`. -/
structure GroupChannelSooperLoopers where
  loopers : Fin 8 → State
  knownEighthPerCycle : ℚ

/-- A control of an OSC sequence. -/
inductive OscControl
  | osc (packet : Packet)
  | other

/-- `_loopers[loop_index].set_state(state)`. -/
def GroupChannelSooperLoopers.setState (group : GroupChannelSooperLoopers) (loopIndex : Int32)
    (state : State) : Except Fault GroupChannelSooperLoopers :=
  if h : 0 ≤ loopIndex.toInt ∧ loopIndex.toInt < 8 then
    .ok { group with
      loopers := Function.update group.loopers ⟨loopIndex.toInt.toNat, by omega⟩ state }
  else .error .indexOutOfBounds

/-- The body of the loop over the controls. -/
def GroupChannelSooperLoopers.handle (group : GroupChannelSooperLoopers) :
    OscControl → Except Fault GroupChannelSooperLoopers
  | .other => return group
  | .osc packet =>
      if packet.address = lit "/sl/global" then do
        let (_, parameterName, value) ← packet.arguments
        return if parameterName = lit "eighth_per_cycle" then
          { group with knownEighthPerCycle := value }
        else group
      else if packet.address = lit "/sl/loops" then do
        let (loopIndex, parameterName, value) ← packet.arguments
        if parameterName = lit "state" then group.setState loopIndex (translateState value)
        else return group
      else return group

/-- `update_states`; the buffer may have no pod. -/
def GroupChannelSooperLoopers.updateStates (group : GroupChannelSooperLoopers)
    (pod : Option (CtrlPipe.Pod OscControl)) : Except Fault GroupChannelSooperLoopers :=
  match pod with
  | none => return group
  | some pod =>
      if !pod.isSequence then return group
      else pod.controls.foldlM GroupChannelSooperLoopers.handle group

/-! ## Messages -/

/-- A control message that can be read. -/
structure Message where
  address : Str
  loopIndex : Int32
  parameterName : Str
  value : ℚ

def Message.packet (message : Message) : Packet :=
  ⟨message.address, .ok (message.loopIndex, message.parameterName, message.value)⟩

/-- The message reports a state of a loop that there is not. -/
def Message.isOutside (message : Message) : Bool :=
  message.address = lit "/sl/loops" && message.parameterName = lit "state" &&
    !(0 ≤ message.loopIndex.toInt && message.loopIndex.toInt < 8)

/-- The buffer for the class. -/
def podOf (messages : List Message) : Option (CtrlPipe.Pod OscControl) :=
  some ⟨true, messages.map fun message => .osc message.packet⟩

/-- The buffer for the signal processor. -/
def bufferOf (messages : List Message) : Option OscBuffer :=
  some (.ok (Vector.ofFn fun i : Fin 16 => messages[i.val]?.map Message.packet))

/-- The two handlers leave the same states, and leave them too without the reports for
loops that there are not. -/
def Agree (memory : Memory) (known : ℚ) (messages : List Message) : Prop :=
  ∃ states : Fin 8 → State,
    ∀ heard ∈ [messages, messages.filter fun message => !message.isOutside],
      ((⟨memory.groupChannelLoopers, known⟩ : GroupChannelSooperLoopers).updateStates
        (podOf heard)).map GroupChannelSooperLoopers.loopers = .ok states ∧
      (readSlOsc memory (bufferOf heard)).map Memory.groupChannelLoopers = .ok states

/-- The updates that some messages report. -/
def updatesOf (messages : List Message) : List StateUpdate :=
  (messages.filterMap fun message => reportOf message.packet).map update

theorem reportOf_packet (message : Message) :
    reportOf message.packet =
      if message.address = lit "/sl/loops" ∧ message.parameterName = lit "state" then
        some (message.loopIndex, translateState message.value)
      else none := rfl

theorem isOutside_iff (message : Message) :
    message.isOutside = true ↔
      (message.address = lit "/sl/loops" ∧ message.parameterName = lit "state") ∧
        ¬ (0 ≤ message.loopIndex.toInt ∧ message.loopIndex.toInt < 8) := by
  simp only [Message.isOutside, Bool.and_eq_true, decide_eq_true_eq, Bool.not_eq_true',
    Bool.and_eq_false_iff, decide_eq_false_iff_not, not_and_or]

theorem updatesOf_cons (message : Message) (rest : List Message) :
    updatesOf (message :: rest) =
      ((reportOf message.packet).map update).toList ++ updatesOf rest := by
  rw [updatesOf, List.filterMap_cons]
  cases reportOf message.packet <;> rfl

/-! ## The class -/

/-- A report for one of the eight loops is applied at once. -/
theorem setState_of_inside (group : GroupChannelSooperLoopers) {loopIndex : Int32} (state : State)
    (h : 0 ≤ loopIndex.toInt ∧ loopIndex.toInt < 8) :
    group.setState loopIndex state =
      .ok { group with loopers := applyUpdate group.loopers (update (loopIndex, state)) } := by
  have hloopers : Function.update group.loopers ⟨loopIndex.toInt.toNat, by omega⟩ state =
      applyUpdate group.loopers (update (loopIndex, state)) := by
    funext other
    have hindex : other = ⟨loopIndex.toInt.toNat, by omega⟩ ↔
        loopIndex.toInt = (other.val : ℤ) := by
      rw [Fin.ext_iff]
      show other.val = loopIndex.toInt.toNat ↔ _
      omega
    rw [applyUpdate_update, Function.update_apply]
    exact if_congr hindex rfl rfl
  rw [GroupChannelSooperLoopers.setState, dif_pos h, hloopers]

theorem handle_of_report (group : GroupChannelSooperLoopers) {message : Message}
    (hreport : message.address = lit "/sl/loops" ∧ message.parameterName = lit "state") :
    group.handle (.osc message.packet) =
      group.setState message.loopIndex (translateState message.value) := by
  have hglobal : message.address ≠ lit "/sl/global" := by
    rw [hreport.1]
    decide
  rw [GroupChannelSooperLoopers.handle, Message.packet, if_neg hglobal, if_pos hreport.1]
  exact if_pos hreport.2

/-- What is no report leaves the loops alone. -/
theorem handle_of_other (group : GroupChannelSooperLoopers) {message : Message}
    (hreport : ¬ (message.address = lit "/sl/loops" ∧ message.parameterName = lit "state")) :
    ∃ next, group.handle (.osc message.packet) = .ok next ∧ next.loopers = group.loopers := by
  rw [GroupChannelSooperLoopers.handle, Message.packet]
  by_cases hglobal : message.address = lit "/sl/global"
  · rw [if_pos hglobal]
    refine ⟨_, rfl, ?_⟩
    split_ifs <;> rfl
  · rw [if_neg hglobal]
    by_cases hloops : message.address = lit "/sl/loops"
    · rw [if_pos hloops]
      exact ⟨group, if_neg fun hstate => hreport ⟨hloops, hstate⟩, rfl⟩
    · rw [if_neg hloops]
      exact ⟨group, rfl, rfl⟩

theorem handle_of_inside (group : GroupChannelSooperLoopers) {message : Message}
    (h : message.isOutside = false) :
    ∃ next, group.handle (.osc message.packet) = .ok next ∧
      next.loopers =
        ((reportOf message.packet).map update).toList.foldl applyUpdate group.loopers := by
  rw [reportOf_packet]
  by_cases hreport : message.address = lit "/sl/loops" ∧ message.parameterName = lit "state"
  · have hindex : 0 ≤ message.loopIndex.toInt ∧ message.loopIndex.toInt < 8 := by
      by_contra houtside
      rw [(isOutside_iff message).mpr ⟨hreport, houtside⟩] at h
      cases h
    rw [if_pos hreport, handle_of_report group hreport, setState_of_inside group _ hindex]
    exact ⟨_, rfl, rfl⟩
  · rw [if_neg hreport]
    exact handle_of_other group hreport

/-- A report for another loop is written beside the array. -/
theorem handle_of_outside (group : GroupChannelSooperLoopers) {message : Message}
    (h : message.isOutside = true) :
    group.handle (.osc message.packet) = .error .indexOutOfBounds := by
  obtain ⟨hreport, hindex⟩ := (isOutside_iff message).mp h
  rw [handle_of_report group hreport]
  exact dif_neg hindex

theorem updateStates_of_inside (group : GroupChannelSooperLoopers) {messages : List Message}
    (h : ∀ message ∈ messages, message.isOutside = false) :
    ∃ next, group.updateStates (podOf messages) = .ok next ∧
      next.loopers = (updatesOf messages).foldl applyUpdate group.loopers := by
  induction messages generalizing group with
  | nil => exact ⟨group, rfl, rfl⟩
  | cons message rest ih =>
      rw [List.forall_mem_cons] at h
      obtain ⟨middle, hmiddle, hloopers⟩ := handle_of_inside group h.1
      obtain ⟨next, hnext, hrest⟩ := ih middle h.2
      refine ⟨next, bind_eq_ok.mpr ⟨middle, hmiddle, hnext⟩, ?_⟩
      calc next.loopers = (updatesOf rest).foldl applyUpdate middle.loopers := hrest
        _ = (updatesOf (message :: rest)).foldl applyUpdate group.loopers := by
            rw [hloopers, updatesOf_cons, List.foldl_append]

theorem inside_of_updateStates {group next : GroupChannelSooperLoopers} {messages : List Message}
    (h : group.updateStates (podOf messages) = .ok next) :
    ∀ message ∈ messages, message.isOutside = false := by
  induction messages generalizing group with
  | nil => simp
  | cons message rest ih =>
      obtain ⟨middle, hmiddle, hrest⟩ := bind_eq_ok.mp h
      refine List.forall_mem_cons.mpr ⟨?_, ih hrest⟩
      by_contra houtside
      rw [handle_of_outside group (Bool.eq_true_of_not_eq_false houtside)] at hmiddle
      cases hmiddle

/-! ## The signal processor -/

theorem filterMap_ofFn_getElem? {α : Type} (entries : List α) (n : ℕ) :
    (List.ofFn fun i : Fin n => entries[i.val]?).filterMap id = entries.take n := by
  induction n generalizing entries with
  | zero => simp
  | succ n ih =>
      rw [List.ofFn_succ]
      cases entries with
      | nil => simp
      | cons entry rest => simpa using ih rest

/-- The buffer holds the messages. -/
theorem packets_bufferOf {messages : List Message} (hlength : messages.length ≤ 16) :
    ∃ buffer, bufferOf messages = some buffer ∧
      buffer.packets = messages.map Message.packet := by
  refine ⟨_, rfl, ?_⟩
  have hmap : (fun i : Fin 16 => messages[i.val]?.map Message.packet) =
      fun i : Fin 16 => (messages.map Message.packet)[i.val]? := by
    funext i
    exact List.getElem?_map.symm
  rw [OscBuffer.packets, Vector.toList_ofFn, hmap, filterMap_ofFn_getElem?,
    List.take_of_length_le (by simpa using hlength)]

/-- A message that can be read raises no exception. -/
theorem foldlM_handlePacket_ok (current : ℚ × List StateUpdate) (messages : List Message) :
    ∃ next, (messages.map Message.packet).foldlM handlePacket current = .ok next := by
  induction messages generalizing current with
  | nil => exact ⟨current, rfl⟩
  | cons message rest ih =>
      obtain ⟨middle, hmiddle⟩ : ∃ middle, handlePacket current message.packet = .ok middle := by
        unfold handlePacket Message.packet
        split_ifs
        · exact ⟨_, rfl⟩
        · exact ⟨_, rfl⟩
        · exact ⟨_, rfl⟩
      obtain ⟨next, hnext⟩ := ih middle
      exact ⟨next, bind_eq_ok.mpr ⟨middle, hmiddle, hnext⟩⟩

theorem readSlOsc_bufferOf (memory : Memory) {messages : List Message}
    (hlength : messages.length ≤ 16) :
    (readSlOsc memory (bufferOf messages)).map Memory.groupChannelLoopers =
      .ok ((updatesOf messages).foldl applyUpdate memory.groupChannelLoopers) := by
  obtain ⟨buffer, hbuffer, hpackets⟩ := packets_bufferOf hlength
  obtain ⟨⟨known, updates⟩, hfold⟩ :=
    foldlM_handlePacket_ok (memory.knownEighthPerCycle, []) messages
  have hupdates : updates = updatesOf messages := by
    have hreported := foldlM_handlePacket_updates hfold
    rwa [List.filterMap_map] at hreported
  rw [hbuffer, readSlOsc, hpackets, hfold, ← hupdates]
  rfl

/-- A report for another loop is passed over. -/
theorem foldl_updatesOf_inside (loopers : Fin 8 → State) (messages : List Message) :
    (updatesOf (messages.filter fun message => !message.isOutside)).foldl applyUpdate loopers =
      (updatesOf messages).foldl applyUpdate loopers := by
  induction messages generalizing loopers with
  | nil => rfl
  | cons message rest ih =>
      rw [updatesOf_cons, List.foldl_append]
      cases houtside : message.isOutside with
      | false =>
          rw [List.filter_cons_of_pos (by simp [houtside]), updatesOf_cons, List.foldl_append, ih]
      | true =>
          obtain ⟨hreport, hindex⟩ := (isOutside_iff message).mp houtside
          have hsame : applyUpdate loopers
              (update (message.loopIndex, translateState message.value)) = loopers := by
            funext other
            rw [applyUpdate_update]
            refine if_neg fun heq => hindex ?_
            have heq : message.loopIndex.toInt = other.val := heq
            omega
          rw [List.filter_cons_of_neg (by simp [houtside]), ih, reportOf_packet, if_pos hreport]
          exact (congrArg (fun loopers => List.foldl applyUpdate loopers (updatesOf rest))
            hsame).symm

/-- The signal processor passes over the reports for loops that there are not. -/
theorem readSlOsc_inside (memory : Memory) {messages : List Message}
    (hlength : messages.length ≤ 16) :
    (readSlOsc memory (bufferOf (messages.filter fun message => !message.isOutside))).map
        Memory.groupChannelLoopers =
      (readSlOsc memory (bufferOf messages)).map Memory.groupChannelLoopers := by
  rw [readSlOsc_bufferOf memory hlength,
    readSlOsc_bufferOf memory ((List.length_filter_le _ _).trans hlength),
    foldl_updatesOf_inside]

/-! ## Both -/

/-- **The two handlers agree just if every reported index is one of the eight.** -/
theorem agree_iff_inside (memory : Memory) (known : ℚ) (messages : List Message)
    (hlength : messages.length ≤ 16) :
    Agree memory known messages ↔ ∀ message ∈ messages, message.isOutside = false := by
  constructor
  · rintro ⟨states, h⟩
    obtain ⟨next, hnext, -⟩ := map_eq_ok.mp (h messages (by simp)).1
    exact inside_of_updateStates hnext
  · intro hinside
    have hfilter : messages.filter (fun message => !message.isOutside) = messages :=
      List.filter_eq_self.mpr fun message hmem => by rw [hinside message hmem]; rfl
    obtain ⟨next, hnext, hloopers⟩ :=
      updateStates_of_inside ⟨memory.groupChannelLoopers, known⟩ hinside
    refine ⟨(updatesOf messages).foldl applyUpdate memory.groupChannelLoopers, ?_⟩
    intro heard hheard
    obtain rfl : heard = messages := by simpa [hfilter] using hheard
    exact ⟨map_eq_ok.mpr ⟨next, hnext, hloopers⟩, readSlOsc_bufferOf memory hlength⟩

/-- The first loop is recording, and the last one is reported twice. -/
def heardMessages : List Message :=
  [⟨lit "/sl/loops", 0, lit "state", 2⟩, ⟨lit "/sl/loops", 7, lit "state", 4⟩,
    ⟨lit "/sl/loops", 7, lit "state", 10⟩, ⟨lit "/sl/global", 0, lit "eighth_per_cycle", 16⟩]

theorem agree_iff_inside_heardMessages : Agree initial 0 heardMessages :=
  (agree_iff_inside initial 0 heardMessages (by decide)).mpr (by decide)

/-- The looper reports a ninth loop. -/
theorem not_agree_ninth : ¬ Agree initial 0 [⟨lit "/sl/loops", 8, lit "state", 4⟩] := by
  rintro ⟨states, h⟩
  obtain ⟨next, hnext, -⟩ := map_eq_ok.mp (h _ (List.mem_cons_self ..)).1
  exact absurd (inside_of_updateStates hnext _ (List.mem_cons_self ..)) (by decide)

end Pmx.SlpCtrl
