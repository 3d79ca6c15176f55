import Pmx.Library.Cxx
import Pmx.Library.Patchbay
import Pmx.Ports

/-!
# The scripts that link MIDI ports

`pmx_connect_launchpad_mini_init.lua` and `pmx_connect_launchpad_mini_sooperlooper.lua`
link a program with the Launchpad in both directions; they differ in the names of
the ports only.  `pmx_midi_routing_matrix.lua` links the Hapax and the MIDI clock
to lists of synthesizers, and `pmx_connect_controllers.lua` links two controllers
to the MIDI router.

Each script is two patch bays.  The launchpad scripts keep all ports that came.
The routing matrix keeps the targets but only the last source, and the
controllers' script keeps the last port on both sides.  A new port links the
whole table again: a list of links names a pair once for every time.
-/

namespace Pmx.ConnectMidiPorts

open Cxx
open Patchbay (lastOf)

/-- What the scripts look at of a port. -/
structure Port where
  objectId : ℕ
  portAlias : Str
  portName : Str
  direction : Direction
  deriving DecidableEq

/-- An output port and an input port. -/
abbrev Link := Port × Port

/-! ## The Launchpad -/

/-- The aliases of the ports of the program, with the constraints on their
directions, and the alias that the two ports of the Launchpad share. -/
structure LaunchpadNames where
  outPort : Str
  outDirection : Option Direction
  inPort : Str
  inDirection : Option Direction
  mk3 : Str
  /-- The ports of the program differ in their aliases or in their directions. -/
  apart : outPort ≠ inPort ∨ outDirection = some .output ∧ inDirection = some .input
  other : outPort ≠ mk3 ∧ inPort ≠ mk3

/-- `pmx_connect_launchpad_mini_init.lua`. -/
def launchpadMiniInit : LaunchpadNames where
  outPort := lit "pmx-lp-mini-init:lp_mini_out"
  outDirection := none
  inPort := lit "pmx-lp-mini-init:lp_mini_in"
  inDirection := none
  mk3 := lit "Launchpad Mini MK3:Launchpad Mini MK3 LPMiniMK3 MI"
  apart := Or.inl (by decide)
  other := by decide

/-- `pmx_connect_launchpad_mini_sooperlooper.lua`. -/
def launchpadMiniSooperlooper : LaunchpadNames where
  outPort := lit "pmx-slp-ctrl:lp_mini"
  outDirection := some .output
  inPort := lit "pmx-slp-ctrl:lp_mini"
  inDirection := some .input
  mk3 := lit "Launchpad Mini MK3:Launchpad Mini MK3 LPMiniMK3 DA"
  apart := Or.inr ⟨rfl, rfl⟩
  other := by decide

/-- The four tables and the links, output first. -/
structure Launchpad where
  slpCtrlOutputPorts : List Port
  slpCtrlInputPorts : List Port
  lpMiniMk3OutputPorts : List Port
  lpMiniMk3InputPorts : List Port
  links : List Link

/-- The tables are empty when the script is loaded. -/
def Launchpad.initial : Launchpad :=
  ⟨[], [], [], [], []⟩

/-- `connect_output_to_mk3_input`: all outputs of the program to all inputs of the Launchpad. -/
def connectOutputToMk3Input (s : Launchpad) : Launchpad :=
  { s with links := s.links ++ s.slpCtrlOutputPorts.flatMap fun outputPort =>
      s.lpMiniMk3InputPorts.map fun inputPort => (outputPort, inputPort) }

/-- The inputs are the outer loop here. -/
def connectInputToMk3Output (s : Launchpad) : Launchpad :=
  { s with links := s.links ++ s.slpCtrlInputPorts.flatMap fun inputPort =>
      s.lpMiniMk3OutputPorts.map fun outputPort => (outputPort, inputPort) }

/-- The hooks, in the order of the file. -/
inductive Hook
  | watchOutPorts
  | watchInPorts
  | watchMk3OutPorts
  | watchMk3InPorts
  deriving DecidableEq

/-- A constraint on the direction, if there is one. -/
def hasDirection (direction : Option Direction) (port : Port) : Bool :=
  direction.all (· = port.direction)

/-- The `port.alias` in the interest of a hook. -/
def LaunchpadNames.portAlias (names : LaunchpadNames) : Hook → Str
  | .watchOutPorts => names.outPort
  | .watchInPorts => names.inPort
  | .watchMk3OutPorts | .watchMk3InPorts => names.mk3

/-- The `port.direction` in the interest of a hook, if it has one. -/
def LaunchpadNames.direction (names : LaunchpadNames) : Hook → Option Direction
  | .watchOutPorts => names.outDirection
  | .watchInPorts => names.inDirection
  | .watchMk3OutPorts => some .output
  | .watchMk3InPorts => some .input

/-- The interest of a hook. -/
def interest (names : LaunchpadNames) (hook : Hook) (port : Port) : Bool :=
  port.portAlias = names.portAlias hook && hasDirection (names.direction hook) port

/-- A hook enters the port in its table and links both tables of its side. -/
def execute (hook : Hook) (s : Launchpad) (port : Port) : Launchpad :=
  match hook with
  | .watchOutPorts =>
      connectOutputToMk3Input { s with slpCtrlOutputPorts := s.slpCtrlOutputPorts ++ [port] }
  | .watchInPorts =>
      connectInputToMk3Output { s with slpCtrlInputPorts := s.slpCtrlInputPorts ++ [port] }
  | .watchMk3OutPorts =>
      connectInputToMk3Output { s with lpMiniMk3OutputPorts := s.lpMiniMk3OutputPorts ++ [port] }
  | .watchMk3InPorts =>
      connectOutputToMk3Input { s with lpMiniMk3InputPorts := s.lpMiniMk3InputPorts ++ [port] }

/-- A port is added: all hooks with an interest in it run. -/
def Launchpad.portAdded (names : LaunchpadNames) (s : Launchpad) (port : Port) : Launchpad :=
  [Hook.watchOutPorts, .watchInPorts, .watchMk3OutPorts, .watchMk3InPorts].foldl
    (fun s hook => if interest names hook port then execute hook s port else s) s

/-- The state after ports have come. -/
def Launchpad.run (names : LaunchpadNames) (ports : List Port) : Launchpad :=
  ports.foldl (Launchpad.portAdded names) Launchpad.initial

/-! ### Two patch bays -/

theorem not_both_directions {port : Port} (houtput : hasDirection (some .output) port = true) :
    hasDirection (some .input) port = false := by
  simp only [hasDirection, Option.all_some, decide_eq_true_eq] at houtput
  simp [hasDirection, ← houtput]

/-- No port is of interest to two hooks. -/
theorem interest_unique {names : LaunchpadNames} {hook hook' : Hook} {port : Port}
    (h : interest names hook port = true) (h' : interest names hook' port = true) :
    hook = hook' := by
  simp only [interest, Bool.and_eq_true, decide_eq_true_eq] at h h'
  have halias : names.portAlias hook = names.portAlias hook' := h.1.symm.trans h'.1
  have hdirection : ¬ (names.direction hook = some .output ∧
      names.direction hook' = some .input) := by
    rintro ⟨houtput, hinput⟩
    rw [houtput] at h
    rw [hinput, not_both_directions h.2] at h'
    cases h'.2
  have hdirection' : ¬ (names.direction hook' = some .output ∧
      names.direction hook = some .input) := by
    rintro ⟨houtput, hinput⟩
    rw [houtput] at h'
    rw [hinput, not_both_directions h'.2] at h
    cases h.2
  obtain ⟨hout, hin⟩ := names.other
  cases hook <;> cases hook' <;> first
    | rfl
    | exact absurd halias hout
    | exact absurd halias.symm hout
    | exact absurd halias hin
    | exact absurd halias.symm hin
    | exact absurd ⟨rfl, rfl⟩ hdirection
    | exact absurd ⟨rfl, rfl⟩ hdirection'
    | exact absurd halias (names.apart.resolve_right hdirection)
    | exact absurd halias.symm (names.apart.resolve_right hdirection')

theorem not_interest {names : LaunchpadNames} {hook hook' : Hook} (hne : hook ≠ hook') {port : Port}
    (h : interest names hook port = true) : interest names hook' port = false :=
  Bool.eq_false_iff.mpr fun h' => hne (interest_unique h h')

theorem portAdded_cases (names : LaunchpadNames) (s : Launchpad) (port : Port) :
    (∃ hook, interest names hook port = true ∧
        Launchpad.portAdded names s port = execute hook s port) ∨
      (∀ hook, interest names hook port = false) ∧ Launchpad.portAdded names s port = s := by
  by_cases h : ∃ hook, interest names hook port = true
  · obtain ⟨hook, hook_interest⟩ := h
    refine Or.inl ⟨hook, hook_interest, ?_⟩
    have hothers : ∀ hook', hook ≠ hook' → interest names hook' port = false :=
      fun hook' hne => not_interest hne hook_interest
    cases hook <;> simp [Launchpad.portAdded, hook_interest, hothers]
  · have hnone : ∀ hook, interest names hook port = false := fun hook =>
      Bool.eq_false_iff.mpr fun hhook => h ⟨hook, hhook⟩
    exact Or.inr ⟨hnone, by simp [Launchpad.portAdded, hnone]⟩

/-- From the program to the Launchpad. -/
def outRule (names : LaunchpadNames) : Patchbay.Rule Port where
  isSource := interest names .watchOutPorts
  isTarget := interest names .watchMk3InPorts
  keepsSources := true
  keepsTargets := true
  disjoint _ h := not_interest Hook.noConfusion h

/-- From the Launchpad to the program. -/
def inRule (names : LaunchpadNames) : Patchbay.Rule Port where
  isSource := interest names .watchMk3OutPorts
  isTarget := interest names .watchInPorts
  keepsSources := true
  keepsTargets := true
  disjoint _ h := not_interest Hook.noConfusion h

/-- The tables of the script are those of the two bays, and so are the links. -/
def Launchpad.Bays (s : Launchpad) (out inn : Patchbay.Bay Port) : Prop :=
  Patchbay.Pair s.slpCtrlOutputPorts s.lpMiniMk3InputPorts s.lpMiniMk3OutputPorts
    s.slpCtrlInputPorts s.links out inn

theorem bays_execute {names : LaunchpadNames} {s : Launchpad} {out inn : Patchbay.Bay Port}
    (h : s.Bays out inn) {hook : Hook} {port : Port} (hport : interest names hook port = true) :
    (execute hook s port).Bays (Patchbay.portAdded (outRule names) out port)
      (Patchbay.portAdded (inRule names) inn port) := by
  have hothers : ∀ hook', hook ≠ hook' → interest names hook' port = false :=
    fun hook' hne => not_interest hne hport
  cases hook with
  | watchOutPorts =>
      rw [Patchbay.portAdded_source hport, Patchbay.portAdded_other (hothers _ Hook.noConfusion)
        (hothers _ Hook.noConfusion)]
      exact h.sourceAdded_first (outRule names) port rfl
  | watchMk3InPorts =>
      rw [Patchbay.portAdded_target hport, Patchbay.portAdded_other (hothers _ Hook.noConfusion)
        (hothers _ Hook.noConfusion)]
      exact h.targetAdded_first (outRule names) port rfl
  | watchMk3OutPorts =>
      rw [Patchbay.portAdded_other (hothers _ Hook.noConfusion) (hothers _ Hook.noConfusion),
        Patchbay.portAdded_source hport]
      exact h.sourceAdded_second (inRule names) port (Patchbay.product_perm _ _)
  | watchInPorts =>
      rw [Patchbay.portAdded_other (hothers _ Hook.noConfusion) (hothers _ Hook.noConfusion),
        Patchbay.portAdded_target hport]
      exact h.targetAdded_second (inRule names) port (Patchbay.product_perm _ _)

theorem bays_launchpad_portAdded {names : LaunchpadNames} {s : Launchpad}
    {out inn : Patchbay.Bay Port} (h : s.Bays out inn) (port : Port) :
    (Launchpad.portAdded names s port).Bays (Patchbay.portAdded (outRule names) out port)
      (Patchbay.portAdded (inRule names) inn port) := by
  rcases portAdded_cases names s port with ⟨hook, hport, hadded⟩ | ⟨hnone, hsame⟩
  · rw [hadded]
    exact bays_execute h hport
  · rw [hsame, Patchbay.portAdded_other (hnone _) (hnone _),
      Patchbay.portAdded_other (hnone _) (hnone _)]
    exact h

theorem bays_launchpad_run (names : LaunchpadNames) (ports : List Port) :
    (Launchpad.run names ports).Bays (Patchbay.run (outRule names) ports)
      (Patchbay.run (inRule names) ports) :=
  Patchbay.bays_foldl Launchpad.Bays
    (show Launchpad.initial.Bays Patchbay.empty Patchbay.empty from Patchbay.Pair.empty)
    (fun _ _ _ port h => bays_launchpad_portAdded h port) ports

/-- An output of the program with an input of the Launchpad, or an output of the
Launchpad with an input of the program. -/
def Connects (names : LaunchpadNames) (outputPort inputPort : Port) : Prop :=
  interest names .watchOutPorts outputPort = true ∧
      interest names .watchMk3InPorts inputPort = true ∨
    interest names .watchMk3OutPorts outputPort = true ∧
      interest names .watchInPorts inputPort = true

theorem mem_launchpad_links {names : LaunchpadNames} {ports : List Port}
    {outputPort inputPort : Port} :
    (outputPort, inputPort) ∈ (Launchpad.run names ports).links ↔
      outputPort ∈ ports ∧ inputPort ∈ ports ∧ Connects names outputPort inputPort := by
  rw [Patchbay.Pair.mem_links (bays_launchpad_run names ports), Patchbay.mem_links_keeps rfl rfl,
    Patchbay.mem_links_keeps rfl rfl]
  constructor
  · rintro (⟨⟨houtput, hsource⟩, hinput, htarget⟩ | ⟨⟨houtput, hsource⟩, hinput, htarget⟩)
    · exact ⟨houtput, hinput, Or.inl ⟨hsource, htarget⟩⟩
    · exact ⟨houtput, hinput, Or.inr ⟨hsource, htarget⟩⟩
  · rintro ⟨houtput, hinput, ⟨hsource, htarget⟩ | ⟨hsource, htarget⟩⟩
    · exact Or.inl ⟨⟨houtput, hsource⟩, hinput, htarget⟩
    · exact Or.inr ⟨⟨houtput, hsource⟩, hinput, htarget⟩

theorem portAlias_of_interest {names : LaunchpadNames} {hook : Hook} {port : Port}
    (h : interest names hook port = true) : port.portAlias = names.portAlias hook := by
  simpa using (Bool.and_eq_true_iff.mp h).1

/-- The two scripts have no port of the other's. -/
theorem not_connects_both (outputPort inputPort : Port) :
    ¬ (Connects launchpadMiniInit outputPort inputPort ∧
      Connects launchpadMiniSooperlooper outputPort inputPort) := by
  have hdistinct : ∀ hook hook' : Hook,
      launchpadMiniInit.portAlias hook ≠ launchpadMiniSooperlooper.portAlias hook' := by
    intro hook hook'
    cases hook <;> cases hook' <;> decide
  have hapart : ∀ hook hook' : Hook, interest launchpadMiniInit hook outputPort = true →
      interest launchpadMiniSooperlooper hook' outputPort = true → False := fun hook hook' h h' =>
    hdistinct hook hook' ((portAlias_of_interest h).symm.trans (portAlias_of_interest h'))
  rintro ⟨h | h, h' | h'⟩
  all_goals exact hapart _ _ h.1 h'.1

/-- **Launchpad.**  Each script links two ports exactly when both have come and are the
two ends of one direction, in whatever order they came, and no two ports are linked
by both scripts. -/
theorem mem_launchpad_links_iff (ports : List Port) (outputPort inputPort : Port) :
    (∀ names : LaunchpadNames, (outputPort, inputPort) ∈ (Launchpad.run names ports).links ↔
      outputPort ∈ ports ∧ inputPort ∈ ports ∧ Connects names outputPort inputPort) ∧
    ¬ ((outputPort, inputPort) ∈ (Launchpad.run launchpadMiniInit ports).links ∧
      (outputPort, inputPort) ∈ (Launchpad.run launchpadMiniSooperlooper ports).links) := by
  refine ⟨fun names => mem_launchpad_links, ?_⟩
  rintro ⟨hinit, hsooperlooper⟩
  exact not_connects_both outputPort inputPort
    ⟨(mem_launchpad_links.mp hinit).2.2, (mem_launchpad_links.mp hsooperlooper).2.2⟩

/-! ## The routing matrix -/

/-- The global variables and the links.  A source variable is an empty table at
first (`none`), in which no object id can be looked up.  `failed` are the ports
whose hook ended in this error. -/
structure Matrix where
  hapaxOutPort : Option Port
  hapaxTargetPorts : List Port
  midiClockOutputPort : Option Port
  midiClockTargetPorts : List Port
  links : List Link
  failed : List Port

/-- No source has come, and the tables of targets are empty. -/
def Matrix.initial : Matrix :=
  ⟨none, [], none, [], [], []⟩

/-- `connect_all`: the links, and whether the loop ended in an error. -/
def connectAll (sourcePort : Option Port) : List Port → List Link × Bool
  | [] => ([], false)
  | targetPort :: rest =>
      match sourcePort with
      | none => ([], true)
      | some source =>
          ((source, targetPort) :: (connectAll sourcePort rest).1, (connectAll sourcePort rest).2)

/-- The rest of a hook after `connect_all`. -/
def Matrix.connected (s : Matrix) (port : Port) (result : List Link × Bool) : Matrix :=
  { s with
    links := s.links ++ result.1
    failed := if result.2 then s.failed ++ [port] else s.failed }

/-- The aliases of `Hapax Targets`. -/
def hapaxTargets : List Str :=
  [lit "Prophet Rev2 Module:Prophet Rev2 Module MIDI 1", lit "COBALT8:COBALT8 MIDI 1",
    lit "Modor NF-1:Modor NF-1 MIDI 1", lit "SE-02:SE-02 MIDI 1",
    lit "SYSTEM-1m:SYSTEM-1m MIDI 1"]

/-- The aliases of `Midi Clock Targets`. -/
def midiClockTargets : List Str :=
  [lit "Prophet Rev2 Module:Prophet Rev2 Module MIDI 1", lit "COBALT8:COBALT8 MIDI 1",
    lit "HAPAX:HAPAX MIDI 1", lit "Modor NF-1:Modor NF-1 MIDI 1", lit "SE-02:SE-02 MIDI 1",
    lit "RME RayDAT_a5963e:HDSPMxa5963e MIDI 1", lit "SYSTEM-1m:SYSTEM-1m MIDI 1",
    lit "pmx-slp-ctrl:midi_clock", lit "sooperlooper:sooperlooper"]

/-- The interest of `find_hapax`. -/
def isHapax (port : Port) : Bool :=
  hasDirection (some .output) port && port.portAlias = lit "HAPAX:HAPAX MIDI 1"

/-- The interest of `find_midi_clock_port`. -/
def isMidiClock (port : Port) : Bool :=
  hasDirection (some .output) port && port.portAlias = lit "jack_midi_clock:mclk_out"

/-- A port that comes in with one of some aliases. -/
def isTargetOf (aliases : List Str) (port : Port) : Bool :=
  hasDirection (some .input) port && aliases.contains port.portAlias

/-- The hook links the new source to all targets that have come. -/
def findHapax (s : Matrix) (port : Port) : Matrix :=
  Matrix.connected { s with hapaxOutPort := some port } port
    (connectAll (some port) s.hapaxTargetPorts)

/-- The hook for the MIDI clock, which does the same with its own targets. -/
def findMidiClockPort (s : Matrix) (port : Port) : Matrix :=
  Matrix.connected { s with midiClockOutputPort := some port } port
    (connectAll (some port) s.midiClockTargetPorts)

/-- The hook links the last Hapax to all targets, those that were linked before included. -/
def hapaxTarget (s : Matrix) (port : Port) : Matrix :=
  Matrix.connected { s with hapaxTargetPorts := s.hapaxTargetPorts ++ [port] } port
    (connectAll s.hapaxOutPort (s.hapaxTargetPorts ++ [port]))

/-- The hook for the targets of the MIDI clock. -/
def midiClockTarget (s : Matrix) (port : Port) : Matrix :=
  Matrix.connected { s with midiClockTargetPorts := s.midiClockTargetPorts ++ [port] } port
    (connectAll s.midiClockOutputPort (s.midiClockTargetPorts ++ [port]))

/-- The four hooks run on a port that they have an interest in. -/
def Matrix.portAdded (s : Matrix) (port : Port) : Matrix :=
  let s := if isHapax port then findHapax s port else s
  let s := if isMidiClock port then findMidiClockPort s port else s
  let s := if isTargetOf hapaxTargets port then hapaxTarget s port else s
  if isTargetOf midiClockTargets port then midiClockTarget s port else s

/-- The state after ports have come. -/
def Matrix.run (ports : List Port) : Matrix :=
  ports.foldl Matrix.portAdded Matrix.initial

/-! ### Two patch bays with a last source -/

theorem links_connectAll (sourcePort : Option Port) (targetPorts : List Port) :
    (connectAll sourcePort targetPorts).1 = sourcePort.toList.product targetPorts := by
  induction targetPorts with
  | nil => cases sourcePort <;> rfl
  | cons targetPort rest ih =>
      cases sourcePort with
      | none => rfl
      | some source =>
          rw [connectAll, ih]
          rfl

theorem failed_connectAll (sourcePort : Option Port) (targetPorts : List Port) :
    (connectAll sourcePort targetPorts).2 = (sourcePort.isNone && !targetPorts.isEmpty) := by
  induction targetPorts with
  | nil => simp [connectAll]
  | cons targetPort rest ih =>
      cases sourcePort with
      | none => rfl
      | some source =>
          rw [connectAll, ih]
          rfl

theorem not_isTargetOf {aliases : List Str} {port : Port}
    (h : hasDirection (some .output) port = true) : isTargetOf aliases port = false := by
  rw [isTargetOf, not_both_directions h, Bool.false_and]

/-- The Hapax with its targets: only the last source is kept. -/
def hapaxRule : Patchbay.Rule Port where
  isSource := isHapax
  isTarget := isTargetOf hapaxTargets
  keepsSources := false
  keepsTargets := true
  disjoint _ h := not_isTargetOf (Bool.and_eq_true_iff.mp h).1

/-- The MIDI clock with its targets. -/
def midiClockRule : Patchbay.Rule Port where
  isSource := isMidiClock
  isTarget := isTargetOf midiClockTargets
  keepsSources := false
  keepsTargets := true
  disjoint _ h := not_isTargetOf (Bool.and_eq_true_iff.mp h).1

/-- The tables and the links are those of two patch bays. -/
def Matrix.Bays (s : Matrix) (hapax midiClock : Patchbay.Bay Port) : Prop :=
  Patchbay.Pair s.hapaxOutPort.toList s.hapaxTargetPorts s.midiClockOutputPort.toList
    s.midiClockTargetPorts s.links hapax midiClock

theorem bays_matrix_portAdded {s : Matrix} {hapax midiClock : Patchbay.Bay Port}
    (h : s.Bays hapax midiClock) (port : Port) :
    (s.portAdded port).Bays (Patchbay.portAdded hapaxRule hapax port)
      (Patchbay.portAdded midiClockRule midiClock port) := by
  have hhapax : ∀ (s : Matrix) (hapax midiClock : Patchbay.Bay Port), s.Bays hapax midiClock →
      (findHapax s port).Bays (Patchbay.sourceAdded hapaxRule hapax port) midiClock :=
    fun s _ _ h => h.sourceAdded_first hapaxRule port (links_connectAll ..)
  have hclock : ∀ (s : Matrix) (hapax midiClock : Patchbay.Bay Port), s.Bays hapax midiClock →
      (findMidiClockPort s port).Bays hapax
        (Patchbay.sourceAdded midiClockRule midiClock port) :=
    fun s _ _ h =>
      h.sourceAdded_second midiClockRule port (List.Perm.of_eq (links_connectAll ..))
  have hhapaxTarget : ∀ (s : Matrix) (hapax midiClock : Patchbay.Bay Port),
      s.Bays hapax midiClock →
      (hapaxTarget s port).Bays (Patchbay.targetAdded hapaxRule hapax port) midiClock :=
    fun s _ _ h => h.targetAdded_first hapaxRule port (links_connectAll ..)
  have hclockTarget : ∀ (s : Matrix) (hapax midiClock : Patchbay.Bay Port),
      s.Bays hapax midiClock →
      (midiClockTarget s port).Bays hapax
        (Patchbay.targetAdded midiClockRule midiClock port) :=
    fun s _ _ h =>
      h.targetAdded_second midiClockRule port (List.Perm.of_eq (links_connectAll ..))
  exact Patchbay.bays_runHooks hhapax hclock hhapaxTarget hclockTarget h

theorem bays_matrix_run (ports : List Port) :
    (Matrix.run ports).Bays (Patchbay.run hapaxRule ports) (Patchbay.run midiClockRule ports) :=
  Patchbay.bays_foldl Matrix.Bays
    (show Matrix.initial.Bays Patchbay.empty Patchbay.empty from Patchbay.Pair.empty)
    (fun _ _ _ port h => bays_matrix_portAdded h port) ports

theorem eq_of_toList_eq {a b : Option Port} (h : a.toList = b.toList) : a = b := by
  have hhead := congrArg List.head? h
  rwa [Option.head?_toList, Option.head?_toList] at hhead

theorem outPorts_run (ports : List Port) :
    (Matrix.run ports).hapaxOutPort = lastOf isHapax ports ∧
      (Matrix.run ports).midiClockOutputPort = lastOf isMidiClock ports := by
  have hbays := bays_matrix_run ports
  have hhapax := hbays.sources.trans (Patchbay.sources_run ..)
  have hclock := hbays.sources'.trans (Patchbay.sources_run ..)
  rw [Patchbay.sources_last rfl] at hhapax hclock
  exact ⟨eq_of_toList_eq hhapax, eq_of_toList_eq hclock⟩

/-! ### Hooks that end in an error -/

theorem failed_connected (s : Matrix) (port : Port) (sourcePort : Option Port)
    (targetPorts : List Port) :
    (s.connected port (connectAll sourcePort (targetPorts ++ [port]))).failed =
      s.failed ++ if sourcePort = none then [port] else [] := by
  rw [Matrix.connected, failed_connectAll]
  cases sourcePort <;> simp

theorem failed_hapaxTarget (s : Matrix) (port : Port) :
    (hapaxTarget s port).failed = s.failed ++ if s.hapaxOutPort = none then [port] else [] :=
  failed_connected ..

theorem failed_midiClockTarget (s : Matrix) (port : Port) :
    (midiClockTarget s port).failed =
      s.failed ++ if s.midiClockOutputPort = none then [port] else [] :=
  failed_connected ..

theorem failed_find (s : Matrix) (port : Port) :
    (findHapax s port).failed = s.failed ∧ (findMidiClockPort s port).failed = s.failed := by
  simp [findHapax, findMidiClockPort, Matrix.connected, failed_connectAll]

/-- Only the hook for a target fails, and only without a source. -/
theorem mem_failed_portAdded {s : Matrix} {port p : Port} :
    p ∈ (s.portAdded port).failed ↔ p ∈ s.failed ∨ p = port ∧
      (isTargetOf hapaxTargets port = true ∧ s.hapaxOutPort = none ∨
        isTargetOf midiClockTargets port = true ∧ s.midiClockOutputPort = none) := by
  by_cases houtput : hasDirection (some .output) port = true
  · -- an output is no target
    simp only [Matrix.portAdded, not_isTargetOf houtput, Bool.false_eq_true, if_false]
    split_ifs <;> simp [failed_find]
  · have hsources : isHapax port = false ∧ isMidiClock port = false := by
      simp [isHapax, isMidiClock, houtput]
    have hclock : (hapaxTarget s port).midiClockOutputPort = s.midiClockOutputPort := rfl
    have hfailed : (s.portAdded port).failed = s.failed ++
        ((if isTargetOf hapaxTargets port ∧ s.hapaxOutPort = none then [port] else []) ++
          if isTargetOf midiClockTargets port ∧ s.midiClockOutputPort = none then [port]
          else []) := by
      simp only [Matrix.portAdded, hsources, Bool.false_eq_true, if_false]
      by_cases hhapaxTarget : isTargetOf hapaxTargets port = true <;>
        by_cases hclockTarget : isTargetOf midiClockTargets port = true <;>
        simp [hhapaxTarget, hclockTarget, failed_hapaxTarget, failed_midiClockTarget, hclock]
    rw [hfailed, List.mem_append, List.mem_append]
    split_ifs <;> simp_all

/-- A port that came as a target in front of all sources. -/
def CameTooEarly (isSource isTarget : Port → Bool) : List Port → Port → Prop :=
  Patchbay.AtArrival fun earlier port => isTarget port = true ∧ ∀ p ∈ earlier, isSource p = false

theorem cameTooEarly_append {isSource isTarget : Port → Bool} {ports : List Port}
    {last port : Port} :
    CameTooEarly isSource isTarget (ports ++ [last]) port ↔
      CameTooEarly isSource isTarget ports port ∨
        port = last ∧ isTarget last = true ∧ ∀ p ∈ ports, isSource p = false :=
  Patchbay.atArrival_concat

theorem mem_failed_run {ports : List Port} {port : Port} :
    port ∈ (Matrix.run ports).failed ↔
      CameTooEarly isHapax (isTargetOf hapaxTargets) ports port ∨
        CameTooEarly isMidiClock (isTargetOf midiClockTargets) ports port := by
  induction ports using List.reverseRecOn with
  | nil => simp [Matrix.run, Matrix.initial, CameTooEarly, Patchbay.AtArrival]
  | append_singleton ports last ih =>
      have hrun : Matrix.run (ports ++ [last]) = (Matrix.run ports).portAdded last := by
        simp [Matrix.run]
      obtain ⟨hhapax, hclock⟩ := outPorts_run ports
      rw [hrun, mem_failed_portAdded, ih, hhapax, hclock, Patchbay.lastOf_eq_none,
        Patchbay.lastOf_eq_none, cameTooEarly_append, cameTooEarly_append, and_or_left,
        or_or_or_comm]

/-- **Routing matrix.**  The Hapax and the MIDI clock are linked to exactly those of
their targets that came while they were the last source, or were there when they
came.  The hook of a target that came before any source ends in an error, and the
target is linked nevertheless as soon as a source comes. -/
theorem mem_matrix_links_iff (ports : List Port) :
    (∀ source target, (source, target) ∈ (Matrix.run ports).links ↔
      ∃ arrived, arrived <+: ports ∧
        ((lastOf isHapax arrived = some source ∧
            target ∈ arrived ∧ isTargetOf hapaxTargets target = true) ∨
          (lastOf isMidiClock arrived = some source ∧
            target ∈ arrived ∧ isTargetOf midiClockTargets target = true))) ∧
      ∀ port, port ∈ (Matrix.run ports).failed ↔
        CameTooEarly isHapax (isTargetOf hapaxTargets) ports port ∨
          CameTooEarly isMidiClock (isTargetOf midiClockTargets) ports port := by
  refine ⟨fun source target => ?_, fun port => mem_failed_run⟩
  rw [Patchbay.Pair.mem_links (bays_matrix_run ports), Patchbay.mem_links, Patchbay.mem_links,
    ← exists_or]
  refine exists_congr fun arrived => ?_
  have hhapax : source ∈ hapaxRule.sources arrived ∧ target ∈ hapaxRule.targets arrived ↔
      lastOf isHapax arrived = some source ∧
        target ∈ arrived ∧ isTargetOf hapaxTargets target = true :=
    and_congr (Patchbay.mem_sources_last rfl) (Patchbay.mem_targets_keeps rfl)
  have hclock : source ∈ midiClockRule.sources arrived ∧ target ∈ midiClockRule.targets arrived ↔
      lastOf isMidiClock arrived = some source ∧
        target ∈ arrived ∧ isTargetOf midiClockTargets target = true :=
    and_congr (Patchbay.mem_sources_last rfl) (Patchbay.mem_targets_keeps rfl)
  rw [hhapax, hclock, ← and_or_left]

/-! ## The controllers -/

/-- The global variables of the script, which hold the last port of each kind, and the links. -/
structure Controllers where
  faderFoxPC4 : Option Port
  behringerCMD : Option Port
  midiRouterInputs : Option Port
  midiRouterGroups : Option Port
  links : List Link

/-- All variables are `nil` when the script is loaded. -/
def Controllers.initial : Controllers :=
  ⟨none, none, none, none, []⟩

/-- A link, if both of its ports have come. -/
def linkBoth (outputPort inputPort : Option Port) : List Link :=
  match outputPort, inputPort with
  | some outputPort, some inputPort => [(outputPort, inputPort)]
  | _, _ => []

/-- `connect_fader_fox`: to the inputs of the router. -/
def connectFaderFox (s : Controllers) : Controllers :=
  { s with links := s.links ++ linkBoth s.faderFoxPC4 s.midiRouterInputs }

/-- `connect_b_cmd`: to the groups of the router. -/
def connectBCmd (s : Controllers) : Controllers :=
  { s with links := s.links ++ linkBoth s.behringerCMD s.midiRouterGroups }

/-- A pattern with a star on both sides. -/
def nameMatches (text : Str) (port : Port) : Bool :=
  port.portName.tails.any fun rest => startsWith rest text

/-- The interest in the Faderfox, by a pattern for its name. -/
def isFaderFox (port : Port) : Bool :=
  nameMatches (lit "Faderfox PC4") port && hasDirection (some .output) port

/-- The interest in the Behringer, by a pattern for its name. -/
def isBehringer (port : Port) : Bool :=
  nameMatches (lit "CMD MM") port && hasDirection (some .output) port

/-- The interest in the router's input for input channels. -/
def isRouterInputs (port : Port) : Bool :=
  port.portAlias = lit "pmx-midi-router:input channels" && hasDirection (some .input) port

/-- The interest in the router's input for group channels. -/
def isRouterGroups (port : Port) : Bool :=
  port.portAlias = lit "pmx-midi-router:group channels" && hasDirection (some .input) port

/-- The hook for the Faderfox. -/
def inputsController (s : Controllers) (port : Port) : Controllers :=
  connectFaderFox { s with faderFoxPC4 := some port }

/-- The hook for the Behringer. -/
def groupsController (s : Controllers) (port : Port) : Controllers :=
  connectBCmd { s with behringerCMD := some port }

/-- The hook for the router's input for input channels. -/
def midiRouterFf (s : Controllers) (port : Port) : Controllers :=
  connectFaderFox { s with midiRouterInputs := some port }

/-- The hook for the router's input for group channels. -/
def midiRouterCmd (s : Controllers) (port : Port) : Controllers :=
  connectBCmd { s with midiRouterGroups := some port }

/-- The hooks of the file, in its order. -/
def Controllers.portAdded (s : Controllers) (port : Port) : Controllers :=
  let s := if isFaderFox port then inputsController s port else s
  let s := if isBehringer port then groupsController s port else s
  let s := if isRouterInputs port then midiRouterFf s port else s
  if isRouterGroups port then midiRouterCmd s port else s

/-- The state after ports have come. -/
def Controllers.run (ports : List Port) : Controllers :=
  ports.foldl Controllers.portAdded Controllers.initial

/-! ### Two patch bays with two last ports -/

theorem linkBoth_eq (outputPort inputPort : Option Port) :
    linkBoth outputPort inputPort = outputPort.toList.product inputPort.toList := by
  cases outputPort <;> cases inputPort <;> rfl

/-- The Faderfox and the router: the last port is kept on both sides. -/
def faderFoxRule : Patchbay.Rule Port where
  isSource := isFaderFox
  isTarget := isRouterInputs
  keepsSources := false
  keepsTargets := false
  disjoint port h := by
    rw [isRouterInputs, not_both_directions (Bool.and_eq_true_iff.mp h).2, Bool.and_false]

/-- The Behringer and the router. -/
def behringerRule : Patchbay.Rule Port where
  isSource := isBehringer
  isTarget := isRouterGroups
  keepsSources := false
  keepsTargets := false
  disjoint port h := by
    rw [isRouterGroups, not_both_directions (Bool.and_eq_true_iff.mp h).2, Bool.and_false]

/-- The variables and the links are those of two patch bays. -/
def Controllers.Bays (s : Controllers) (faderFox behringer : Patchbay.Bay Port) : Prop :=
  Patchbay.Pair s.faderFoxPC4.toList s.midiRouterInputs.toList s.behringerCMD.toList
    s.midiRouterGroups.toList s.links faderFox behringer

theorem bays_controllers_portAdded {s : Controllers} {faderFox behringer : Patchbay.Bay Port}
    (h : s.Bays faderFox behringer) (port : Port) :
    (s.portAdded port).Bays (Patchbay.portAdded faderFoxRule faderFox port)
      (Patchbay.portAdded behringerRule behringer port) := by
  have hsource : ∀ (s : Controllers) (faderFox behringer : Patchbay.Bay Port),
      s.Bays faderFox behringer → (inputsController s port).Bays
        (Patchbay.sourceAdded faderFoxRule faderFox port) behringer :=
    fun s _ _ h => h.sourceAdded_first faderFoxRule port (linkBoth_eq ..)
  have hsource' : ∀ (s : Controllers) (faderFox behringer : Patchbay.Bay Port),
      s.Bays faderFox behringer → (groupsController s port).Bays faderFox
        (Patchbay.sourceAdded behringerRule behringer port) :=
    fun s _ _ h => h.sourceAdded_second behringerRule port (List.Perm.of_eq (linkBoth_eq ..))
  have htarget : ∀ (s : Controllers) (faderFox behringer : Patchbay.Bay Port),
      s.Bays faderFox behringer → (midiRouterFf s port).Bays
        (Patchbay.targetAdded faderFoxRule faderFox port) behringer :=
    fun s _ _ h => h.targetAdded_first faderFoxRule port (linkBoth_eq ..)
  have htarget' : ∀ (s : Controllers) (faderFox behringer : Patchbay.Bay Port),
      s.Bays faderFox behringer → (midiRouterCmd s port).Bays faderFox
        (Patchbay.targetAdded behringerRule behringer port) :=
    fun s _ _ h => h.targetAdded_second behringerRule port (List.Perm.of_eq (linkBoth_eq ..))
  exact Patchbay.bays_runHooks hsource hsource' htarget htarget' h

theorem bays_controllers_run (ports : List Port) :
    (Controllers.run ports).Bays (Patchbay.run faderFoxRule ports)
      (Patchbay.run behringerRule ports) :=
  Patchbay.bays_foldl Controllers.Bays
    (show Controllers.initial.Bays Patchbay.empty Patchbay.empty from Patchbay.Pair.empty)
    (fun _ _ _ port h => bays_controllers_portAdded h port) ports

/-- **Controllers.**  A controller and an input of the router are linked exactly when
there was a time at which they were the last ports of their kinds; so the last ones
always are. -/
theorem mem_controllers_links_iff (ports : List Port) (outputPort inputPort : Port) :
    (outputPort, inputPort) ∈ (Controllers.run ports).links ↔
      ∃ arrived, arrived <+: ports ∧
        ((lastOf isFaderFox arrived = some outputPort ∧
            lastOf isRouterInputs arrived = some inputPort) ∨
          (lastOf isBehringer arrived = some outputPort ∧
            lastOf isRouterGroups arrived = some inputPort)) := by
  rw [Patchbay.Pair.mem_links (bays_controllers_run ports), Patchbay.mem_links,
    Patchbay.mem_links, ← exists_or]
  refine exists_congr fun arrived => ?_
  have hfaderFox : outputPort ∈ faderFoxRule.sources arrived ∧
        inputPort ∈ faderFoxRule.targets arrived ↔
      lastOf isFaderFox arrived = some outputPort ∧
        lastOf isRouterInputs arrived = some inputPort :=
    and_congr (Patchbay.mem_sources_last rfl) (Patchbay.mem_targets_last rfl)
  have hbehringer : outputPort ∈ behringerRule.sources arrived ∧
        inputPort ∈ behringerRule.targets arrived ↔
      lastOf isBehringer arrived = some outputPort ∧
        lastOf isRouterGroups arrived = some inputPort :=
    and_congr (Patchbay.mem_sources_last rfl) (Patchbay.mem_targets_last rfl)
  rw [hfaderFox, hbehringer, ← and_or_left]

end Pmx.ConnectMidiPorts
