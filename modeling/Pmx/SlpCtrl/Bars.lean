import Pmx.SlpCtrl.Leds

/-!
# Bar LEDs

Eight LEDs show the bar of the song, from the number of MIDI clocks that have
been counted: 24 for a quarter note, four quarter notes for a bar.

The count goes back to zero with MIDI Continue, which goes on with the song where
it was stopped, and not with MIDI Start, which begins it again.  What is shown is
the count at the last cycle that had a buffer for the Launchpad with room for its
messages (`shows_continue`), so the LEDs show the bar of the song just if that count
and the clocks since the last Start are of the same bar (`shows_iff`).
-/

namespace Pmx.SlpCtrl

open Cxx PodBuilder Ump

/-! ## Counting since a reset -/

/-- How many of the entries behind the last reset pass a test. -/
def countSince {α : Type} (reset counted : α → Bool) (entries : List α) : ℕ :=
  (entries.reverse.takeWhile fun entry => !reset entry).countP counted

theorem countSince_append_singleton {α : Type} (reset counted : α → Bool) (entries : List α)
    (entry : α) :
    countSince reset counted (entries ++ [entry]) =
      if reset entry then 0
      else countSince reset counted entries + if counted entry then 1 else 0 := by
  rw [countSince, List.reverse_append, List.reverse_singleton, List.singleton_append,
    List.takeWhile_cons]
  cases reset entry with
  | true => rfl
  | false => exact List.countP_cons

theorem countSince_le {α : Type} (reset counted : α → Bool) (entries : List α) :
    countSince reset counted entries ≤ entries.countP counted := by
  rw [← List.countP_reverse (l := entries)]
  exact (List.takeWhile_sublist _).countP_le

/-! ## Clocks -/

/-- MIDI Clock, Start and Continue. -/
def clockWord : UInt32 := 0x10F80000
def startWord : UInt32 := 0x10FA0000
def continueWord : UInt32 := 0x10FB0000

/-- The control is a message of one word. -/
def isWord (word : UInt32) (control : Control) : Bool :=
  control.type = controlUmp && control.body = .length4 word

/-- The controls on the port `midi_clock` in some cycles. -/
def midiClocks (cycles : List Cycle) : List Control :=
  cycles.flatMap fun input => input.midiClock.getD []

/-- The clocks since the last message with some word, or since the beginning. -/
def clocksSince (word : UInt32) (cycles : List Cycle) : ℕ :=
  countSince (isWord word) (isWord clockWord) (midiClocks cycles)

/-- All clocks. -/
def clocks (cycles : List Cycle) : ℕ :=
  (midiClocks cycles).countP (isWord clockWord)

theorem clocks_append (first second : List Cycle) :
    clocks (first ++ second) = clocks first + clocks second := by
  rw [clocks, midiClocks, List.flatMap_append, List.countP_append]
  rfl

/-! ## What is shown -/

/-- A control change of a controller, on any channel. -/
def isControlChange (controller : ℕ) : UmpMessage → Bool
  | [message] =>
      message.toNat / 2 ^ 28 = 2 && message.toNat / 2 ^ 20 % 16 = 11 &&
        message.toNat / 2 ^ 8 % 256 = controller
  | _ => false

/-- The controllers from 89 down to 19. -/
def barController (bar : Fin 8) : ℕ :=
  89 - 10 * bar.val

/-- The value of a bar LED: that of the last control change for it. -/
def barLed (bar : Fin 8) (outputs : List Output) : Option ℕ :=
  ((outputs.flatMap Output.umpMessages).reverse.find? (isControlChange (barController bar))).map
    fun message => (message.headD 0).toNat % 256

/-- Its value after some clocks: the bar is highlighted, or it is not. -/
def barValue (count : ℕ) (bar : Fin 8) : ℕ :=
  if bar.val = count / 96 % 8 then 49 else 33

/-- The LED of the bar after some clocks is highlighted, and no other. -/
def Shows (outputs : List Output) (count : ℕ) : Prop :=
  ∀ bar : Fin 8, barLed bar outputs = some (barValue count bar)

/-- The loops behind a cycle: as it reports them, and as before. -/
def reportedLoopers (loopers : Fin 8 → State) (input : Cycle) (loopIndex : Fin 8) : State :=
  (lastReport loopIndex (reports [input])).getD (loopers loopIndex)

/-- There is a buffer for the Launchpad, with room for the messages of the cycle. -/
def Publishes (loopers : Fin 8 → State) (input : Cycle) : Prop :=
  ∃ maxsize ∈ input.lpMiniOut, neededBytes loopers input ≤ maxsize

instance (loopers : Fin 8 → State) (input : Cycle) : Decidable (Publishes loopers input) :=
  inferInstanceAs (Decidable (∃ maxsize ∈ input.lpMiniOut, neededBytes loopers input ≤ maxsize))

/-- The cycles up to the last one whose messages for the Launchpad come out, from some states
of the loops. -/
def shownCycles (loopers : Fin 8 → State) : List Cycle → List Cycle
  | [] => []
  | input :: rest =>
      if shownCycles (reportedLoopers loopers input) rest ≠ [] then
        input :: shownCycles (reportedLoopers loopers input) rest
      else if Publishes (reportedLoopers loopers input) input then [input] else []

/-! ## The count -/

theorem handleMidiClock_eq (ppmCount : UInt64) (control : Control) :
    handleMidiClock ppmCount control =
      if isWord continueWord control then 0
      else if isWord clockWord control then ppmCount + 1 else ppmCount := by
  obtain ⟨type, body⟩ := control
  unfold handleMidiClock
  by_cases htype : type = controlUmp
  · cases body with
    | length4 message => simp [htype, isWord, continueWord, clockWord]
    | length8 first second => simp [htype, isWord]
    | other => simp [htype, isWord]
  · simp [htype, isWord]

/-- The count is that of the clocks since the last Continue. -/
theorem foldl_handleMidiClock {controls : List Control}
    (hclocks : controls.countP (isWord clockWord) < 2 ^ 64) :
    (controls.foldl handleMidiClock 0).toNat =
      countSince (isWord continueWord) (isWord clockWord) controls := by
  induction controls using List.reverseRecOn with
  | nil => rfl
  | append_singleton controls control ih =>
      rw [List.countP_append] at hclocks
      have hcount := ih (by omega)
      rw [List.foldl_concat, handleMidiClock_eq, countSince_append_singleton]
      by_cases hcontinue : isWord continueWord control
      · rw [if_pos hcontinue, if_pos hcontinue]
        rfl
      · rw [if_neg hcontinue, if_neg hcontinue]
        by_cases hclock : isWord clockWord control
        · have hle := countSince_le (isWord continueWord) (isWord clockWord)
            controls
          rw [List.countP_singleton, if_pos hclock] at hclocks
          rw [if_pos hclock, if_pos hclock, UInt64.toNat_add, hcount]
          exact Nat.mod_eq_of_lt (by simp; omega)
        · rw [if_neg hclock, if_neg hclock, hcount, Nat.add_zero]

/-- The OSC input leaves the count alone. -/
theorem ppmCount_of_readSlOsc {memory read : Memory} {buffer : Option OscBuffer}
    (h : readSlOsc memory buffer = .ok read) : read.ppmCount = memory.ppmCount := by
  cases buffer with
  | none =>
      cases h
      rfl
  | some buffer =>
      obtain ⟨_, _, hread⟩ := bind_eq_ok.mp h
      cases hread
      rfl

theorem ppmCount_of_cycle {memory memory' : Memory} {input : Cycle} {output : Output}
    (h : cycle memory input = .ok (memory', output)) :
    memory'.ppmCount = (input.midiClock.getD []).foldl handleMidiClock memory.ppmCount := by
  obtain ⟨read, hread, hrest⟩ := bind_eq_ok.mp h
  cases hrest
  rw [← ppmCount_of_readSlOsc hread]

/-! ## One output -/

/-- What holds of both values. -/
theorem of_barValue {p : ℕ → Prop} (count : ℕ) (bar : Fin 8) (hbar : p 49) (hother : p 33) :
    p (barValue count bar) := by
  unfold barValue
  split_ifs
  · exact hbar
  · exact hother

theorem barMessages_eq (ppmCount : UInt64) :
    barMessages ppmCount = (List.finRange 8).map fun bar =>
      barMessage (barController bar).toUInt32 (barValue ppmCount.toNat bar).toUInt32 := by
  have hentries : barToCcMapping.zipIdx =
      (List.finRange 8).map fun bar => ((barController bar).toUInt32, bar.val) := rfl
  have hbar : (ppmCount / 24 / 4 % 8).toNat = ppmCount.toNat / 96 % 8 := by
    rw [UInt64.toNat_mod, UInt64.toNat_div, UInt64.toNat_div]
    exact congrArg (· % 8) (Nat.div_div_eq_div_mul ..)
  rw [barMessages, hentries, List.map_map]
  refine List.map_congr_left fun bar _ => ?_
  simp only [Function.comp_apply, hbar, barValue, eq_comm (a := bar.val)]
  split_ifs <;> rfl

theorem isControlChange_barMessage (bar other : Fin 8) (count : ℕ) :
    isControlChange (barController bar)
        (barMessage (barController other).toUInt32 (barValue count other).toUInt32) = true ↔
      other = bar := by
  refine of_barValue (p := fun value => isControlChange (barController bar)
    (barMessage (barController other).toUInt32 value.toUInt32) = true ↔ other = bar) count other
    ?_ ?_
  · revert bar other
    decide
  · revert bar other
    decide

theorem value_barMessage (bar : Fin 8) (count : ℕ) :
    ((barMessage (barController bar).toUInt32 (barValue count bar).toUInt32).headD 0).toNat % 256 =
      barValue count bar := by
  refine of_barValue (p := fun value =>
    ((barMessage (barController bar).toUInt32 value.toUInt32).headD 0).toNat % 256 = value) count
    bar ?_ ?_
  · revert bar
    decide
  · revert bar
    decide

theorem isControlChange_padMessage {state : State} {entry : UInt32 × UInt32}
    (h : colour state = some entry) (bar loopIndex : Fin 8) :
    isControlChange (barController bar) (padMessage loopIndex entry.1 entry.2) = false := by
  cases state <;> cases h <;> revert bar loopIndex <;> decide

theorem isControlChange_padMessages (bar : Fin 8) (loopers : Fin 8 → State) :
    ∀ message ∈ padMessages loopers, isControlChange (barController bar) message = false := by
  intro message hmem
  obtain ⟨loopIndex, _, hmessage⟩ := List.mem_filterMap.mp hmem
  obtain ⟨entry, hentry, rfl⟩ := Option.map_eq_some_iff.mp hmessage
  exact isControlChange_padMessage hentry bar loopIndex

theorem isControlChange_mixerMessages (bar : Fin 8) :
    ∀ message ∈ mixerMessages, isControlChange (barController bar) message = false := by
  revert bar
  decide

/-- In the messages of a cycle there is one control change for each bar. -/
theorem find?_isControlChange (memory : Memory) (presses : Presses) (bar : Fin 8) :
    (lpMiniMessages memory presses).reverse.find? (isControlChange (barController bar)) =
      some (barMessage (barController bar).toUInt32
        (barValue memory.ppmCount.toNat bar).toUInt32) := by
  have hmessage : barMessage (barController bar).toUInt32
      (barValue memory.ppmCount.toNat bar).toUInt32 ∈ barMessages memory.ppmCount := by
    rw [barMessages_eq]
    exact List.mem_map.mpr ⟨bar, List.mem_finRange bar, rfl⟩
  refine find?_eq_of_unique (List.mem_reverse.mpr ?_)
    ((isControlChange_barMessage bar bar _).mpr rfl) ?_
  · exact List.mem_append_left _ (List.mem_append_right _ hmessage)
  · intro message hmem hchange
    rcases List.mem_append.mp (List.mem_reverse.mp hmem) with hfirst | hmixer
    · rcases List.mem_append.mp hfirst with hpad | hbar
      · rw [isControlChange_padMessages bar _ message hpad] at hchange
        cases hchange
      · rw [barMessages_eq] at hbar
        obtain ⟨other, _, rfl⟩ := List.mem_map.mp hbar
        rw [(isControlChange_barMessage bar other _).mp hchange]
    · split_ifs at hmixer
      · rw [isControlChange_mixerMessages bar message hmixer] at hchange
        cases hchange
      · cases hmixer

theorem shows_singleton {memory memory' : Memory} {input : Cycle} {output : Output}
    (hcycle : cycle memory input = .ok (memory', output))
    (hpublishes : Publishes memory'.groupChannelLoopers input) :
    Shows [output] memory'.ppmCount.toNat := by
  obtain ⟨maxsize, hout, hroom⟩ := hpublishes
  intro bar
  rw [barLed, List.flatMap_singleton, umpMessages_of_cycle hcycle hout, if_pos hroom,
    find?_isControlChange, Option.map_some, value_barMessage]

/-- Without a buffer, or without room in it, nothing is sent. -/
theorem barLed_singleton_eq_none {memory memory' : Memory} {input : Cycle} {output : Output}
    (hcycle : cycle memory input = .ok (memory', output))
    (hdark : ¬ Publishes memory'.groupChannelLoopers input) (bar : Fin 8) :
    barLed bar [output] = none := by
  have hnothing : output.umpMessages = [] := by
    cases hout : input.lpMiniOut with
    | none =>
        obtain ⟨_, _, houtput⟩ := cycle_of_ok hcycle
        rw [Output.umpMessages, houtput, hout]
        rfl
    | some maxsize =>
        rw [umpMessages_of_cycle hcycle hout, if_neg fun hroom => hdark ⟨maxsize, hout, hroom⟩]
  rw [barLed, List.flatMap_singleton, hnothing]
  rfl

theorem loopers_eq_reported {memory memory' : Memory} {input : Cycle} {output : Output}
    (hcycle : cycle memory input = .ok (memory', output)) :
    memory'.groupChannelLoopers = reportedLoopers memory.groupChannelLoopers input :=
  funext (loopers_of_cycle hcycle)

/-! ## Runs -/

theorem barLed_cons (bar : Fin 8) (output : Output) (later : List Output) :
    barLed bar (output :: later) = (barLed bar later).or (barLed bar [output]) := by
  rw [barLed, ← List.singleton_append, List.flatMap_append, List.reverse_append,
    List.find?_append, Option.map_or]
  rfl

theorem shownCycles_prefix (loopers : Fin 8 → State) (cycles : List Cycle) :
    shownCycles loopers cycles <+: cycles := by
  induction cycles generalizing loopers with
  | nil => exact List.prefix_rfl
  | cons input rest ih =>
      rw [shownCycles]
      split_ifs
      · exact List.cons_prefix_cons.mpr ⟨rfl, ih _⟩
      · exact List.cons_prefix_cons.mpr ⟨rfl, List.nil_prefix⟩
      · exact List.nil_prefix

/-- The LEDs show the count at the last cycle whose messages came out, and nothing before the
first. -/
theorem shows_of_run {memory memory' : Memory} {cycles : List Cycle} {outputs : List Output}
    (hrun : run memory cycles = .ok (memory', outputs)) :
    (shownCycles memory.groupChannelLoopers cycles = [] → ∀ bar, barLed bar outputs = none) ∧
      (shownCycles memory.groupChannelLoopers cycles ≠ [] → Shows outputs
        ((midiClocks (shownCycles memory.groupChannelLoopers cycles)).foldl handleMidiClock
          memory.ppmCount).toNat) := by
  induction cycles generalizing memory outputs with
  | nil =>
      cases hrun
      exact ⟨fun _ _ => rfl, fun hne => absurd rfl hne⟩
  | cons input rest ih =>
      obtain ⟨middle, output, later, hcycle, hlater, rfl⟩ := run_cons_of_ok hrun
      obtain ⟨hdark, hshown⟩ := ih hlater
      have hcount := ppmCount_of_cycle hcycle
      rw [shownCycles, ← loopers_eq_reported hcycle]
      by_cases hrest : shownCycles middle.groupChannelLoopers rest ≠ []
      · -- a later cycle covers this one
        rw [if_pos hrest]
        refine ⟨fun h => absurd h (List.cons_ne_nil _ _), fun _ bar => ?_⟩
        rw [barLed_cons, hshown hrest bar, Option.some_or, hcount, ← List.foldl_append]
        rfl
      · rw [if_neg hrest]
        have hlaterDark := hdark (not_not.mp hrest)
        by_cases hpublishes : Publishes middle.groupChannelLoopers input
        · rw [if_pos hpublishes]
          refine ⟨fun h => absurd h (List.cons_ne_nil _ _), fun _ bar => ?_⟩
          rw [barLed_cons, hlaterDark, Option.none_or, shows_singleton hcycle hpublishes bar,
            hcount]
          simp [midiClocks]
        · rw [if_neg hpublishes]
          refine ⟨fun _ bar => ?_, fun h => absurd rfl h⟩
          rw [barLed_cons, hlaterDark, barLed_singleton_eq_none hcycle hpublishes, Option.none_or]

/-- The cycles of a run from the start that are shown. -/
def shownFromStart (cycles : List Cycle) : List Cycle :=
  shownCycles initial.groupChannelLoopers cycles

/-- The LEDs show the clocks since the last Continue. -/
theorem shows_continue {cycles : List Cycle} {memory : Memory} {outputs : List Output}
    (hclocks : clocks cycles < 2 ^ 64) (hrun : run initial cycles = .ok (memory, outputs))
    (hshown : shownFromStart cycles ≠ []) :
    Shows outputs (clocksSince continueWord (shownFromStart cycles)) := by
  obtain ⟨rest, hrest⟩ := shownCycles_prefix initial.groupChannelLoopers cycles
  have hsplit : clocks cycles = clocks (shownFromStart cycles) + clocks rest :=
    (congrArg clocks hrest).symm.trans (clocks_append _ _)
  have hlt : clocks (shownFromStart cycles) < 2 ^ 64 := by omega
  rw [clocksSince, ← foldl_handleMidiClock hlt]
  exact (shows_of_run hrun).2 hshown

/-- LEDs that show two counts show the same bar. -/
theorem bar_eq_of_shows {outputs : List Output} {count other : ℕ} (h : Shows outputs count)
    (h' : Shows outputs other) : count / 96 % 8 = other / 96 % 8 := by
  have hvalue : barValue count ⟨count / 96 % 8, by omega⟩ =
      barValue other ⟨count / 96 % 8, by omega⟩ :=
    Option.some.inj ((h _).symm.trans (h' _))
  by_contra hne
  simp [barValue, hne] at hvalue

/-- **The LEDs show the bar of the song just if there has been a buffer for the Launchpad with
room for its messages, and the clocks since the last Continue, up to the last such buffer,
are of the bar of the clocks since the last Start.** -/
theorem shows_iff (cycles : List Cycle) (memory : Memory) (outputs : List Output)
    (hclocks : clocks cycles < 2 ^ 64) (hrun : run initial cycles = .ok (memory, outputs)) :
    Shows outputs (clocksSince startWord cycles) ↔
      shownFromStart cycles ≠ [] ∧
        clocksSince continueWord (shownFromStart cycles) / 96 % 8 =
          clocksSince startWord cycles / 96 % 8 := by
  constructor
  · intro hstart
    have hshown : shownFromStart cycles ≠ [] := by
      intro hnone
      have hdark := (shows_of_run hrun).1 hnone 0
      rw [hstart 0] at hdark
      cases hdark
    exact ⟨hshown, bar_eq_of_shows (shows_continue hclocks hrun hshown) hstart⟩
  · rintro ⟨hshown, hsame⟩ bar
    rw [shows_continue hclocks hrun hshown bar, barValue, barValue, hsame]

/-- A cycle with some words on the clock port. -/
def clockCycle (words : List UInt32) : Cycle :=
  ⟨none, none, some (words.map fun word => ⟨controlUmp, .length4 word⟩), some 4096, some 4096⟩

/-- A clock in a cycle whose buffer for the Launchpad is too small for its messages. -/
def tightCycle : Cycle :=
  { clockCycle [clockWord] with lpMiniOut := some 399 }

/-- The second bar of a song goes on while nothing comes out. -/
theorem shows_iff_second_bar :
    ∃ memory outputs, run initial
        ([[startWord], List.replicate 96 clockWord].map clockCycle ++ [tightCycle]) =
        .ok (memory, outputs) ∧
      Shows outputs 97 := by
  refine ⟨_, _, rfl, ?_⟩
  exact (shows_iff ([[startWord], List.replicate 96 clockWord].map clockCycle ++ [tightCycle])
    _ _ (by decide +kernel) rfl).mpr (by decide +kernel)

/-- A song is begun again in its second bar. -/
theorem not_shows_restarted :
    ∃ memory outputs, run initial ([List.replicate 96 clockWord, [startWord]].map clockCycle) =
        .ok (memory, outputs) ∧
      ¬ Shows outputs
        (clocksSince startWord ([List.replicate 96 clockWord, [startWord]].map clockCycle)) := by
  refine ⟨_, _, rfl, fun hstart => ?_⟩
  have hcontinue : Shows _ (clocksSince continueWord
      (shownFromStart ([List.replicate 96 clockWord, [startWord]].map clockCycle))) :=
    shows_continue (by decide +kernel) rfl (by decide +kernel)
  exact absurd (bar_eq_of_shows hcontinue hstart) (by decide +kernel)

end Pmx.SlpCtrl
