import Mathlib.Data.List.Sort
import Pmx.SlpCtrl

/-!
# Pad presses

A press is a message of the Launchpad, and for each press the looper is to get
one record command.  The presses of a cycle make up a set, so two presses of a
pad in one cycle are one command.  As long as the last `eighth_per_cycle` that the
looper has reported is not 64, the same sequence ends with a reminder.  Without an
output buffer, or with one that is too small for the sequence, all of it is gone
(`emitted_eq_received_iff`).
-/

namespace Pmx.SlpCtrl

open Cxx Osc PodBuilder Ump

/-- The press of the pad of a loop. -/
def pressControl (loopIndex : ℕ) : Control :=
  ⟨controlUmp, .length8 (0x40805100 + loopIndex.toUInt32 * 0x100) 0⟩

/-- The controls that the Launchpad has sent in some cycles. -/
def lpMiniControls (cycles : List Cycle) : List Control :=
  cycles.flatMap fun input => input.lpMini.getD []

/-- The presses of a pad. -/
def received (loopIndex : ℕ) (cycles : List Cycle) : ℕ :=
  (lpMiniControls cycles).count (pressControl loopIndex)

/-- The OSC messages that come out of a cycle. -/
def Output.messages (output : Output) : List OscMessage :=
  output.slOsc.elim [] values

/-- The record commands for a loop. -/
def emitted (loopIndex : ℕ) (outputs : List Output) : ℕ :=
  (outputs.flatMap Output.messages).count (hitMessage loopIndex)

/-- A cycle with output buffers and no input. -/
structure Quiet (input : Cycle) : Prop where
  slOsc : input.slOsc = none
  lpMini : input.lpMini = none
  midiClock : input.midiClock = none
  slOscOut : input.slOscOut.isSome
  lpMiniOut : input.lpMiniOut.isSome

/-- The loops whose pads have been pressed. -/
def pressedLoops (controls : List Control) : List ℕ :=
  (List.range 8).filter fun loopIndex => pressControl loopIndex ∈ controls

/-! ## What is asked for -/

/-- The `eighth_per_cycle` that a packet reports. -/
def eighthPerCycle (packet : Packet) : Option ℚ :=
  if packet.address = lit "/sl/global" then
    match packet.arguments with
    | .ok (_, parameterName, value) =>
        if parameterName = lit "eighth_per_cycle" then some value else none
    | .error _ => none
  else none

/-- The packets of a cycle. -/
def Cycle.packets (input : Cycle) : List Packet :=
  input.slOsc.elim [] OscBuffer.packets

/-- The last `eighth_per_cycle` after a cycle. -/
def lastEighth (known : ℚ) (input : Cycle) : ℚ :=
  (input.packets.filterMap eighthPerCycle).getLastD known

/-- The loops whose pads have been pressed are recorded, in ascending order. -/
def recordCommands (input : Cycle) : List OscMessage :=
  (pressedLoops (input.lpMini.getD [])).map hitMessage

/-- The commands of a cycle. -/
def commandsOf (known : ℚ) (input : Cycle) : List OscMessage :=
  recordCommands input ++ if lastEighth known input ≠ 64 then [eighthPerCycleMessage] else []

/-- The bytes of the reminder. -/
def reminderBytes (known : ℚ) (input : Cycle) : ℕ :=
  if lastEighth known input ≠ 64 then 56 else 0

/-- No pad is pressed twice in the cycle, and if any is pressed, there is an output buffer
with room for a command for each and for the reminder. -/
structure Conveyed (known : ℚ) (input : Cycle) : Prop where
  once : ∀ loopIndex < 8, (input.lpMini.getD []).count (pressControl loopIndex) ≤ 1
  room : pressedLoops (input.lpMini.getD []) ≠ [] → ∃ maxsize, input.slOscOut = some maxsize ∧
    16 + 40 * (pressedLoops (input.lpMini.getD [])).length + reminderBytes known input ≤ maxsize

/-- Every cycle conveys its presses. -/
def AllConveyed (known : ℚ) : List Cycle → Prop
  | [] => True
  | input :: rest => Conveyed known input ∧ AllConveyed (lastEighth known input) rest

/-! ## The set of presses -/

theorem lookup_loopCtrlPresses {first : UInt32} {loopIndex : ℕ} :
    loopCtrlPresses.lookup first = some loopIndex ↔
      loopIndex < 8 ∧ first = 0x40805100 + loopIndex.toUInt32 * 0x100 := by
  constructor
  · intro h
    have hmem := mem_of_lookup h
    simp only [loopCtrlPresses, List.mem_cons, Prod.mk.injEq, List.not_mem_nil, or_false] at hmem
    rcases hmem with ⟨rfl, rfl⟩ | ⟨rfl, rfl⟩ | ⟨rfl, rfl⟩ | ⟨rfl, rfl⟩ | ⟨rfl, rfl⟩ | ⟨rfl, rfl⟩ |
      ⟨rfl, rfl⟩ | ⟨rfl, rfl⟩ <;> decide
  · rintro ⟨hlt, rfl⟩
    interval_cases loopIndex <;> decide

theorem pressControl_eq_iff {control : Control} {loopIndex : ℕ} :
    control = pressControl loopIndex ↔ control.type = controlUmp ∧
      control.body = .length8 (0x40805100 + loopIndex.toUInt32 * 0x100) 0 := by
  cases control
  exact Control.mk.injEq .. ▸ Iff.rfl

/-- One control registers the loop whose pad it presses. -/
theorem handleLpMini_cases (presses : Presses) (control : Control) :
    (∃ loopIndex < 8, control = pressControl loopIndex ∧
      (handleLpMini presses control).registered = setInsert loopIndex presses.registered) ∨
      (∀ loopIndex < 8, control ≠ pressControl loopIndex) ∧
        (handleLpMini presses control).registered = presses.registered := by
  obtain ⟨type, body⟩ := control
  by_cases htype : type = controlUmp
  · cases body with
    | length8 first second =>
        by_cases hsecond : second = 0
        · cases hlookup : loopCtrlPresses.lookup first with
          | some loopIndex =>
              obtain ⟨hlt, hfirst⟩ := lookup_loopCtrlPresses.mp hlookup
              refine Or.inl ⟨loopIndex, hlt, ?_, ?_⟩
              · rw [pressControl_eq_iff, htype, hfirst, hsecond]
                exact ⟨rfl, rfl⟩
              · simp [handleLpMini, htype, hsecond, hlookup]
          | none =>
              refine Or.inr ⟨fun loopIndex hlt heq => ?_, ?_⟩
              · have hfirst := (Body.length8.inj (pressControl_eq_iff.mp heq).2).1
                rw [lookup_loopCtrlPresses.mpr ⟨hlt, hfirst⟩] at hlookup
                cases hlookup
              · simp only [handleLpMini, htype, hsecond, hlookup, ne_eq, not_true_eq_false,
                  if_false]
                split <;> rfl
        · refine Or.inr ⟨fun loopIndex _ heq => ?_, ?_⟩
          · exact hsecond (Body.length8.inj (pressControl_eq_iff.mp heq).2).2
          · simp [handleLpMini, htype, hsecond]
    | length4 | other =>
        refine Or.inr ⟨fun loopIndex _ heq => ?_, ?_⟩
        · cases (pressControl_eq_iff.mp heq).2
        · simp [handleLpMini]
  · refine Or.inr ⟨fun loopIndex _ heq => ?_, ?_⟩
    · exact htype (pressControl_eq_iff.mp heq).1
    · simp [handleLpMini, htype]

theorem pressControl_injective {i j : ℕ} (hi : i < 8) (hj : j < 8)
    (h : pressControl i = pressControl j) : i = j := by
  have hword := (Body.length8.inj (Control.mk.inj h).2).1
  have hboth := (lookup_loopCtrlPresses.mpr ⟨hi, rfl⟩).symm.trans
    (lookup_loopCtrlPresses.mpr ⟨hj, hword⟩)
  exact Option.some.inj hboth

theorem mem_registered_foldl {presses : Presses} {controls : List Control} {loopIndex : ℕ} :
    loopIndex ∈ (controls.foldl handleLpMini presses).registered ↔
      (loopIndex < 8 ∧ pressControl loopIndex ∈ controls) ∨ loopIndex ∈ presses.registered := by
  induction controls generalizing presses with
  | nil => simp
  | cons control rest ih =>
      rw [List.foldl_cons, ih, List.mem_cons]
      rcases handleLpMini_cases presses control with ⟨pressed, hlt, rfl, hregistered⟩ |
        ⟨hother, hregistered⟩
      · rw [hregistered, mem_setInsert]
        have hsame : loopIndex < 8 → (pressControl loopIndex = pressControl pressed ↔
            loopIndex = pressed) := fun hindex =>
          ⟨pressControl_injective hindex hlt, fun heq => heq ▸ rfl⟩
        constructor
        · rintro (⟨hindex, hmem⟩ | heq | hmem)
          · exact Or.inl ⟨hindex, Or.inr hmem⟩
          · exact Or.inl ⟨heq ▸ hlt, Or.inl (heq ▸ rfl)⟩
          · exact Or.inr hmem
        · rintro (⟨hindex, heq | hmem⟩ | hmem)
          · exact Or.inr (Or.inl ((hsame hindex).mp heq))
          · exact Or.inl ⟨hindex, hmem⟩
          · exact Or.inr (Or.inr hmem)
      · rw [hregistered]
        refine or_congr_left (and_congr_right fun hindex => ?_)
        rw [or_iff_right fun heq => hother loopIndex hindex heq.symm]

theorem nodup_registered_foldl {presses : Presses} (h : presses.registered.Nodup)
    (controls : List Control) : (controls.foldl handleLpMini presses).registered.Nodup := by
  refine List.foldlRecOn controls handleLpMini
    (motive := fun presses => presses.registered.Nodup) h fun current hcurrent control _ => ?_
  rcases handleLpMini_cases current control with ⟨_, _, _, hregistered⟩ | ⟨_, hregistered⟩
  · rw [hregistered]
    exact nodup_setInsert hcurrent
  · rw [hregistered]
    exact hcurrent

theorem mem_pressedLoops {controls : List Control} {loopIndex : ℕ} :
    loopIndex ∈ pressedLoops controls ↔ loopIndex < 8 ∧ pressControl loopIndex ∈ controls := by
  simp [pressedLoops]

/-- The set of a cycle holds the loops whose pads have been pressed. -/
theorem registered_perm (controls : Option (List Control)) :
    (readLpMini controls).registered.Perm (pressedLoops (controls.getD [])) := by
  refine (List.perm_ext_iff_of_nodup (nodup_registered_foldl List.nodup_nil _)
    (List.nodup_range.filter _)).mpr fun loopIndex => ?_
  refine mem_registered_foldl.trans (Iff.trans ?_ mem_pressedLoops.symm)
  exact or_iff_left List.not_mem_nil

/-! ## What the controller makes of it -/

theorem known_handlePacket {current next : ℚ × List StateUpdate} {packet : Packet}
    (h : handlePacket current packet = .ok next) :
    next.1 = (eighthPerCycle packet).getD current.1 := by
  unfold handlePacket at h
  split_ifs at h with hglobal hloops
  · obtain ⟨⟨_, parameterName, value⟩, harguments, hnext⟩ := bind_eq_ok.mp h
    cases hnext
    simp only [eighthPerCycle, if_pos hglobal, harguments]
    split_ifs <;> rfl
  · obtain ⟨⟨loopIndex, parameterName, value⟩, harguments, hnext⟩ := bind_eq_ok.mp h
    cases hnext
    simp only [eighthPerCycle, if_neg hglobal]
    split_ifs <;> rfl
  · cases h
    simp only [eighthPerCycle, if_neg hglobal]
    rfl

theorem known_foldlM {packets : List Packet} {current next : ℚ × List StateUpdate}
    (h : packets.foldlM handlePacket current = .ok next) :
    next.1 = (packets.filterMap eighthPerCycle).getLastD current.1 := by
  induction packets generalizing current with
  | nil => cases h; rfl
  | cons packet rest ih =>
      rw [List.foldlM_cons] at h
      obtain ⟨middle, hmiddle, hrest⟩ := bind_eq_ok.mp h
      rw [ih hrest, known_handlePacket hmiddle]
      cases hreport : eighthPerCycle packet with
      | none => rw [List.filterMap_cons_none hreport]; rfl
      | some value => rw [List.filterMap_cons_some hreport, List.getLastD_cons]; rfl

theorem known_readSlOsc {memory read : Memory} {input : Cycle}
    (h : readSlOsc memory input.slOsc = .ok read) :
    read.knownEighthPerCycle = lastEighth memory.knownEighthPerCycle input := by
  rw [lastEighth, Cycle.packets]
  cases hbuffer : input.slOsc with
  | none =>
      rw [hbuffer] at h
      cases h
      rfl
  | some buffer =>
      rw [hbuffer] at h
      obtain ⟨⟨known, updates⟩, hfold, hread⟩ := bind_eq_ok.mp h
      cases hread
      exact known_foldlM hfold

theorem pairwise_setInsert {element : ℕ} {set : List ℕ} (h : set.Pairwise (· ≤ ·)) :
    (setInsert element set).Pairwise (· ≤ ·) := by
  unfold setInsert
  split
  · exact h
  · exact h.orderedInsert element set

theorem pairwise_registered_foldl {presses : Presses}
    (h : presses.registered.Pairwise (· ≤ ·)) (controls : List Control) :
    (controls.foldl handleLpMini presses).registered.Pairwise (· ≤ ·) := by
  induction controls generalizing presses with
  | nil => exact h
  | cons control rest ih =>
      refine ih ?_
      rcases handleLpMini_cases presses control with ⟨_, _, _, hregistered⟩ | ⟨_, hregistered⟩
      · rw [hregistered]
        exact pairwise_setInsert h
      · rw [hregistered]
        exact h

/-- The set of a cycle in its order. -/
theorem registered_eq (controls : Option (List Control)) :
    (readLpMini controls).registered = pressedLoops (controls.getD []) := by
  have hsorted : (readLpMini controls).registered.Pairwise (· ≤ ·) :=
    pairwise_registered_foldl List.Pairwise.nil _
  have hrange : (pressedLoops (controls.getD [])).Pairwise (· ≤ ·) :=
    (List.pairwise_lt_range.imp le_of_lt).filter _
  exact (registered_perm controls).eq_of_pairwise' hsorted hrange

/-- What a cycle keeps and publishes for the looper. -/
theorem slOsc_of_cycle {memory memory' : Memory} {input : Cycle} {output : Output}
    (h : cycle memory input = .ok (memory', output)) :
    memory'.knownEighthPerCycle = lastEighth memory.knownEighthPerCycle input ∧
      output.slOsc = input.slOscOut.map (sequence controlOsc OscMessage.size
        (commandsOf memory.knownEighthPerCycle input)) := by
  obtain ⟨read, hread, hrest⟩ := bind_eq_ok.mp h
  have hknown := known_readSlOsc hread
  cases hrest
  refine ⟨hknown, ?_⟩
  rw [commandsOf, recordCommands, ← hknown, ← registered_eq]
  rfl

/-! ## One cycle -/

theorem hitMessage_injective : Function.Injective hitMessage := by
  intro i j h
  have haddress := (OscMessage.mk.inj h).1
  rw [List.append_cancel_right_eq, List.append_cancel_left_eq] at haddress
  exact decimal_injective haddress

theorem hitMessage_ne_eighthPerCycle (loopIndex : ℕ) :
    hitMessage loopIndex ≠ eighthPerCycleMessage := by
  intro h
  have hargs := (OscMessage.mk.inj h).2
  revert hargs
  decide

theorem framedBytes_hits {loops : List ℕ} (h : ∀ loopIndex ∈ loops, loopIndex < 8) :
    framedBytes OscMessage.size (loops.map hitMessage) = 40 * loops.length := by
  induction loops with
  | nil => rfl
  | cons loopIndex rest ih =>
      have hsize : (hitMessage loopIndex).size = 24 := by
        have hlt := h loopIndex (List.mem_cons_self ..)
        interval_cases loopIndex <;> decide
      have hpod : podSize 24 = 32 := by decide
      rw [List.map_cons, framedBytes_cons, ih fun i hi => h i (List.mem_cons_of_mem _ hi), hsize,
        hpod, List.length_cons]
      omega

/-- The bytes of the commands of a cycle. -/
theorem framedBytes_commandsOf (known : ℚ) (input : Cycle) :
    framedBytes OscMessage.size (commandsOf known input) =
      40 * (pressedLoops (input.lpMini.getD [])).length + reminderBytes known input := by
  have hloops : ∀ loopIndex ∈ pressedLoops (input.lpMini.getD []), loopIndex < 8 :=
    fun _ hmem => (mem_pressedLoops.mp hmem).1
  have hreminder : framedBytes OscMessage.size [eighthPerCycleMessage] = 56 := by decide
  rw [commandsOf, framedBytes_append, recordCommands, framedBytes_hits hloops, reminderBytes]
  split_ifs
  · rw [hreminder]
  · rw [framedBytes_nil]

/-- Each pressed pad has one record command. -/
theorem count_commandsOf (known : ℚ) (input : Cycle) {loopIndex : ℕ} (hlt : loopIndex < 8) :
    (commandsOf known input).count (hitMessage loopIndex) =
      min 1 ((input.lpMini.getD []).count (pressControl loopIndex)) := by
  have hreminder : List.count (hitMessage loopIndex)
      (if lastEighth known input ≠ 64 then [eighthPerCycleMessage] else []) = 0 := by
    rw [List.count_eq_zero]
    split
    · simpa using hitMessage_ne_eighthPerCycle loopIndex
    · exact List.not_mem_nil
  have hnodup : (pressedLoops (input.lpMini.getD [])).Nodup := List.nodup_range.filter _
  rw [commandsOf, List.count_append, hreminder, Nat.add_zero, recordCommands,
    List.count_map_of_injective _ _ hitMessage_injective]
  by_cases hmem : pressControl loopIndex ∈ input.lpMini.getD []
  · have hpressed := mem_pressedLoops.mpr ⟨hlt, hmem⟩
    have hpos := List.count_pos_iff.mpr hmem
    rw [List.count_eq_one_of_mem hnodup hpressed]
    omega
  · have hpressed : loopIndex ∉ pressedLoops (input.lpMini.getD []) := fun h =>
      hmem (mem_pressedLoops.mp h).2
    rw [List.count_eq_zero_of_not_mem hpressed, List.count_eq_zero_of_not_mem hmem]
    rfl

/-- The OSC output of a cycle with some input. -/
def Produces (known : ℚ) (input : Cycle) (output : Output) : Prop :=
  output.slOsc = input.slOscOut.map
    (sequence controlOsc OscMessage.size (commandsOf known input))

section OneCycle

variable {known : ℚ} {input : Cycle} {output : Output} (h : Produces known input output)
include h

/-- All commands of a cycle come out, or none of them. -/
theorem messages_of_produces :
    output.messages =
      input.slOscOut.elim [] fun maxsize =>
        ifFits OscMessage.size maxsize (commandsOf known input) := by
  rw [Output.messages, h]
  cases input.slOscOut with
  | none => rfl
  | some maxsize => exact values_sequence ..

/-- No cycle makes up a command. -/
theorem count_messages_le {loopIndex : ℕ} (hlt : loopIndex < 8) :
    output.messages.count (hitMessage loopIndex) ≤
      min 1 ((input.lpMini.getD []).count (pressControl loopIndex)) := by
  rw [messages_of_produces h, ← count_commandsOf known input hlt]
  cases input.slOscOut with
  | none => exact Nat.zero_le _
  | some maxsize => exact (ifFits_sublist ..).count_le _

/-- A cycle that loses no press and merges none has conveyed all. -/
theorem conveyed_of_conserved (hcounts : ∀ loopIndex < 8,
    output.messages.count (hitMessage loopIndex) =
      (input.lpMini.getD []).count (pressControl loopIndex)) : Conveyed known input := by
  constructor
  · intro loopIndex hlt
    have hle := count_messages_le h hlt
    rw [hcounts loopIndex hlt] at hle
    omega
  · intro hpressed
    -- a pad that is pressed has a command
    obtain ⟨loopIndex, hmem⟩ := List.exists_mem_of_ne_nil _ hpressed
    obtain ⟨hlt, hcontrol⟩ := mem_pressedLoops.mp hmem
    have hcommand : output.messages ≠ [] := by
      intro hnil
      have hcount := hcounts loopIndex hlt
      rw [hnil, List.count_nil] at hcount
      exact (List.count_pos_iff.mpr hcontrol).ne hcount
    rw [messages_of_produces h] at hcommand
    cases hout : input.slOscOut with
    | none =>
        rw [hout] at hcommand
        exact absurd rfl hcommand
    | some maxsize =>
        refine ⟨maxsize, rfl, not_lt.mp fun hover => hcommand ?_⟩
        rw [hout]
        refine ifFits_of_overflow ?_
        rw [framedBytes_commandsOf]
        omega

/-- With room for them, all commands come out. -/
theorem messages_of_conveyed (hconveyed : Conveyed known input)
    (hpressed : pressedLoops (input.lpMini.getD []) ≠ []) :
    output.messages = commandsOf known input := by
  obtain ⟨maxsize, hout, hfits⟩ := hconveyed.room hpressed
  rw [messages_of_produces h, hout]
  refine ifFits_of_fits ?_
  rw [framedBytes_commandsOf]
  omega

theorem conserved_iff_conveyed :
    (∀ loopIndex < 8, output.messages.count (hitMessage loopIndex) =
      (input.lpMini.getD []).count (pressControl loopIndex)) ↔ Conveyed known input := by
  refine ⟨conveyed_of_conserved h, fun hconveyed loopIndex hlt => ?_⟩
  have hle := count_messages_le h hlt
  have honce := hconveyed.once loopIndex hlt
  by_cases hpressed : pressedLoops (input.lpMini.getD []) = []
  · have hnone : (input.lpMini.getD []).count (pressControl loopIndex) = 0 := by
      rw [List.count_eq_zero]
      intro hmem
      have hloop := mem_pressedLoops.mpr ⟨hlt, hmem⟩
      rw [hpressed] at hloop
      cases hloop
    omega
  · rw [messages_of_conveyed h hconveyed hpressed, count_commandsOf known input hlt]
    omega

end OneCycle

/-! ## Runs -/

theorem emitted_cons (loopIndex : ℕ) (output : Output) (outputs : List Output) :
    emitted loopIndex (output :: outputs) =
      output.messages.count (hitMessage loopIndex) + emitted loopIndex outputs := by
  rw [emitted, List.flatMap_cons, List.count_append]
  rfl

theorem received_cons (loopIndex : ℕ) (input : Cycle) (cycles : List Cycle) :
    received loopIndex (input :: cycles) =
      (input.lpMini.getD []).count (pressControl loopIndex) + received loopIndex cycles := by
  rw [received, lpMiniControls, List.flatMap_cons, List.count_append]
  rfl

theorem emitted_le_received {memory memory' : Memory} {cycles : List Cycle}
    {outputs : List Output} (hrun : run memory cycles = .ok (memory', outputs))
    {loopIndex : ℕ} (hlt : loopIndex < 8) :
    emitted loopIndex outputs ≤ received loopIndex cycles := by
  induction cycles generalizing memory outputs with
  | nil =>
      cases hrun
      exact le_rfl
  | cons input rest ih =>
      obtain ⟨middle, output, later, hcycle, hlater, rfl⟩ := run_cons_of_ok hrun
      have hfirst := count_messages_le (slOsc_of_cycle hcycle).2 hlt
      have hothers := ih hlater
      rw [emitted_cons, received_cons]
      omega

theorem allConveyed_iff {memory memory' : Memory} {cycles : List Cycle} {outputs : List Output}
    (hrun : run memory cycles = .ok (memory', outputs)) :
    (∀ loopIndex < 8, emitted loopIndex outputs = received loopIndex cycles) ↔
      AllConveyed memory.knownEighthPerCycle cycles := by
  induction cycles generalizing memory outputs with
  | nil =>
      cases hrun
      simp [emitted, received, lpMiniControls, AllConveyed]
  | cons input rest ih =>
      obtain ⟨middle, output, later, hcycle, hlater, rfl⟩ := run_cons_of_ok hrun
      obtain ⟨hknown, hproduces⟩ := slOsc_of_cycle hcycle
      rw [AllConveyed, ← hknown, ← ih hlater, ← conserved_iff_conveyed hproduces]
      constructor
      · intro hcounts
        -- no cycle can make up for another
        refine ⟨fun loopIndex hlt => ?_, fun loopIndex hlt => ?_⟩ <;>
        · have htotal := hcounts loopIndex hlt
          have hfirst := count_messages_le hproduces hlt
          have hothers := emitted_le_received hlater hlt
          rw [emitted_cons, received_cons] at htotal
          omega
      · rintro ⟨hfirst, hothers⟩ loopIndex hlt
        rw [emitted_cons, received_cons, hfirst loopIndex hlt, hothers loopIndex hlt]

theorem conveyed_of_quiet {input : Cycle} (h : Quiet input) (known : ℚ) :
    Conveyed known input := by
  refine ⟨fun loopIndex _ => ?_, fun hpressed => absurd ?_ hpressed⟩
  · rw [h.lpMini]
    exact Nat.zero_le _
  · rw [h.lpMini]
    decide

theorem allConveyed_concat {last : Cycle} (hquiet : Quiet last) (known : ℚ)
    (cycles : List Cycle) :
    AllConveyed known (cycles ++ [last]) ↔ AllConveyed known cycles := by
  induction cycles generalizing known with
  | nil => exact iff_of_true ⟨conveyed_of_quiet hquiet known, trivial⟩ trivial
  | cons input rest ih => exact and_congr_right' (ih _)

/-- **Presses.**  In a run that ends with a quiet cycle, every pad gets as many
record commands as it has been pressed, exactly when every cycle conveys its
presses. -/
theorem emitted_eq_received_iff {memory memory' : Memory} {cycles : List Cycle} {last : Cycle}
    {outputs : List Output} (hquiet : Quiet last)
    (hrun : run memory (cycles ++ [last]) = .ok (memory', outputs)) :
    (∀ loopIndex < 8, emitted loopIndex outputs = received loopIndex (cycles ++ [last])) ↔
      AllConveyed memory.knownEighthPerCycle cycles := by
  rw [allConveyed_iff hrun, allConveyed_concat hquiet]

/-- A cycle in which pads are pressed, and the looper may report its `eighth_per_cycle`. -/
def pressCycle (eighth : Option ℚ) (loops : List ℕ) (slOscOut : Option ℕ) : Cycle :=
  ⟨eighth.map fun value => .ok (Vector.ofFn fun i =>
      if i.val = 0 then some ⟨lit "/sl/global", .ok (0, lit "eighth_per_cycle", value)⟩ else none),
    some (loops.map pressControl), none, slOscOut, none⟩

def quietCycle : Cycle :=
  ⟨none, none, none, some 4096, some 4096⟩

theorem quiet_quietCycle : Quiet quietCycle :=
  ⟨rfl, rfl, rfl, rfl, rfl⟩

/-- Two pads, then one of them again, with a reminder. -/
def pressCycles : List Cycle :=
  [pressCycle none [3, 5] (some 96), pressCycle (some 32) [3] (some 112)]

theorem emitted_eq_received_iff_two_pads :
    ∃ memory outputs, run initial (pressCycles ++ [quietCycle]) = .ok (memory, outputs) ∧
      ∀ loopIndex < 8, emitted loopIndex outputs =
        received loopIndex (pressCycles ++ [quietCycle]) := by
  obtain ⟨⟨memory, outputs⟩, hrun⟩ : ∃ result,
      run initial (pressCycles ++ [quietCycle]) = .ok result := ⟨_, rfl⟩
  refine ⟨memory, outputs, hrun, (emitted_eq_received_iff quiet_quietCycle hrun).mpr ?_⟩
  exact ⟨⟨by decide, fun _ => ⟨96, rfl, by decide⟩⟩, ⟨by decide, fun _ => ⟨112, rfl, by decide⟩⟩,
    trivial⟩

/-- A pad is pressed in a cycle that has no OSC output buffer. -/
theorem press_lost :
    ¬ ∀ memory' cycles last outputs, Quiet last →
      run initial (cycles ++ [last]) = .ok (memory', outputs) →
        ∀ loopIndex < 8, emitted loopIndex outputs = received loopIndex (cycles ++ [last]) := by
  intro h
  have hclaimed := h _ [pressCycle none [0] none] quietCycle _ quiet_quietCycle rfl 0 (by decide)
  revert hclaimed
  decide

end Pmx.SlpCtrl
