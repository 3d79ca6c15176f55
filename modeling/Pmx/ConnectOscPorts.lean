import Mathlib.Data.List.Count
import Mathlib.Data.List.Induction
import Mathlib.Data.List.TakeWhile
import Mathlib.Tactic.Linarith
import Mathlib.Tactic.Ring
import Pmx.Ports

/-!
# `pmx_connect_osc_ports.lua`

Ports of three families are linked, every output to every input of its family.
Each family has a table of its output ports and one of its input ports, and two
hooks: a new port is entered in its table and linked to all ports of the
opposite one.

The six hooks share the global variable `new_input_port`.  Two of the hooks for
output ports print its alias before they enter their port, which is an error as
long as no input port of any family has come.
-/

namespace Pmx.ConnectOscPorts

/-- The families, by the name of their ports: `pmx-osc`, `pmx-from-sl-osc` and
`pmx-to-sl-osc`. -/
inductive Family
  | osc
  | fromSlOsc
  | toSlOsc
  deriving DecidableEq, Repr

/-- A port of one of the families. -/
structure Port where
  family : Family
  direction : Direction
  objectId : ℕ
  deriving DecidableEq, Repr

/-- The global variables of the script, and the links it has made (output port
first). -/
structure State where
  newOutputPort : Option Port
  newInputPort : Option Port
  outputPorts : Family → List Port
  inputPorts : Family → List Port
  links : List (Port × Port)

/-- The tables are empty, and `new_input_port` is `nil`. -/
def initial : State :=
  ⟨none, none, fun _ => [], fun _ => [], []⟩

/-! ## The hooks -/

/-- A hook for output ports.  With `printsInput` it first prints the alias of
`new_input_port`; when that is still `nil` the hook ends there. -/
def watchOut (family : Family) (printsInput : Bool) (s : State) (port : Port) : State :=
  let s := { s with newOutputPort := some port }
  if printsInput ∧ s.newInputPort = none then s
  else { s with
    outputPorts := Function.update s.outputPorts family (s.outputPorts family ++ [port])
    links := s.links ++ (s.inputPorts family).map fun inputPort => (port, inputPort) }

/-- A hook for input ports; what it prints is the port itself. -/
def watchIn (family : Family) (s : State) (port : Port) : State :=
  { s with
    newInputPort := some port
    inputPorts := Function.update s.inputPorts family (s.inputPorts family ++ [port])
    links := s.links ++ (s.outputPorts family).map fun outputPort => (outputPort, port) }

/-- The hook for outputs `pmx-osc`. -/
def watchOutPorts : State → Port → State := watchOut .osc false

/-- The hook for inputs `pmx-osc`. -/
def watchInPorts : State → Port → State := watchIn .osc

/-- The hook for outputs `pmx-from-sl-osc`. -/
def watchFromOutPorts : State → Port → State := watchOut .fromSlOsc true

/-- The hook for inputs `pmx-from-sl-osc`. -/
def watchFromInPorts : State → Port → State := watchIn .fromSlOsc

/-- The hook for outputs `pmx-to-sl-osc`. -/
def watchToOutPorts : State → Port → State := watchOut .toSlOsc true

/-- The hook for inputs `pmx-to-sl-osc`. -/
def watchToInPorts : State → Port → State := watchIn .toSlOsc

/-- The hook that the port's name and direction select. -/
def portAdded (s : State) (port : Port) : State :=
  match port.family, port.direction with
  | .osc, .output => watchOutPorts s port
  | .osc, .input => watchInPorts s port
  | .fromSlOsc, .output => watchFromOutPorts s port
  | .fromSlOsc, .input => watchFromInPorts s port
  | .toSlOsc, .output => watchToOutPorts s port
  | .toSlOsc, .input => watchToInPorts s port

/-- The state after all events have been handled. -/
def run (events : List Port) : State :=
  events.foldl portAdded initial

/-! ## What is to be linked -/

/-- An output and an input port of one family. -/
def Matching (outputPort inputPort : Port) : Prop :=
  outputPort.direction = .output ∧ inputPort.direction = .input ∧
    outputPort.family = inputPort.family

instance (outputPort inputPort : Port) : Decidable (Matching outputPort inputPort) :=
  inferInstanceAs (Decidable (_ ∧ _ ∧ _))

/-- Two ports are linked once for each of their arrivals if they match, and not
at all otherwise; for ports that are added once, that is exactly once. -/
def LinkedOnce (events : List Port) : Prop :=
  ∀ outputPort inputPort, (run events).links.count (outputPort, inputPort) =
    if Matching outputPort inputPort then events.count outputPort * events.count inputPort else 0

/-- The output ports whose hook ends in an error: those of the two families that
print, in front of the first input port of all. -/
def aborted (events : List Port) : List Port :=
  (events.takeWhile fun port => port.direction = .output).filter fun port => port.family ≠ .osc

/-- An aborted output port has no input port to miss. -/
def NoneMissed (events : List Port) : Prop :=
  ∀ outputPort ∈ aborted events, ∀ inputPort ∈ events, inputPort.direction = .input →
    inputPort.family ≠ outputPort.family

/-! ## One event -/

theorem portAdded_output {s : State} {port : Port} (hport : port.direction = .output) :
    portAdded s port = watchOut port.family (decide (port.family ≠ .osc)) s port := by
  unfold portAdded
  cases hfamily : port.family <;> rw [hport] <;> rfl

theorem portAdded_input {s : State} {port : Port} (hport : port.direction = .input) :
    portAdded s port = watchIn port.family s port := by
  unfold portAdded
  cases hfamily : port.family <;> rw [hport] <;> rfl

theorem aborted_append (events : List Port) (port : Port) :
    aborted (events ++ [port]) =
      if (∀ p ∈ events, p.direction = .output) ∧ port.direction = .output ∧ port.family ≠ .osc
      then aborted events ++ [port] else aborted events := by
  unfold aborted
  rw [List.takeWhile_append]
  by_cases hall : ∀ p ∈ events, p.direction = .output
  · have htake : events.takeWhile (fun p => decide (p.direction = .output)) = events :=
      List.takeWhile_eq_self_iff.mpr fun p hp => by simpa using hall p hp
    rw [if_pos (by rw [htake]), htake, List.filter_append, if_congr (and_iff_right hall) rfl rfl]
    by_cases hport : port.direction = .output <;> by_cases hfamily : port.family = .osc <;>
      simp [hport, hfamily]
  · have htake : events.takeWhile (fun p => decide (p.direction = .output)) ≠ events := by
      rw [Ne, List.takeWhile_eq_self_iff]
      exact fun h => hall fun p hp => by simpa using h p hp
    have hlength : (events.takeWhile fun p => decide (p.direction = .output)).length ≠
        events.length := fun h => htake ((List.takeWhile_prefix _).eq_of_length h)
    rw [if_neg hlength, if_neg (fun h => hall h.1)]

theorem count_map_left (port outputPort inputPort : Port) (inputs : List Port) :
    (inputs.map fun i => (port, i)).count (outputPort, inputPort) =
      if port = outputPort then inputs.count inputPort else 0 := by
  induction inputs with
  | nil => simp
  | cons i rest ih =>
      rw [List.map_cons, List.count_cons, ih, List.count_cons]
      by_cases hport : port = outputPort <;> simp [hport]

theorem count_map_right (port outputPort inputPort : Port) (outputs : List Port) :
    (outputs.map fun o => (o, port)).count (outputPort, inputPort) =
      if port = inputPort then outputs.count outputPort else 0 := by
  have hswap : (outputs.map fun o => (o, port)) =
      (outputs.map fun o => (port, o)).map Prod.swap := by
    rw [List.map_map]
    rfl
  have hpair : (outputPort, inputPort) = Prod.swap (inputPort, outputPort) := rfl
  rw [hswap, hpair, List.count_map_of_injective _ _ Prod.swap_injective, count_map_left]

/-- A port is entered in one table. -/
theorem count_enter (table : Family → List Port) (family family' : Family) (port p : Port) :
    (Function.update table family (table family ++ [port]) family').count p =
      (table family').count p + if family' = family ∧ p = port then 1 else 0 := by
  rw [Function.update_apply]
  by_cases hfamily : family' = family
  · subst hfamily
    rw [if_pos rfl, List.count_append, List.count_singleton]
    by_cases hp : p = port
    · simp [hp]
    · simp [hp, Ne.symm hp]
  · simp [hfamily]

theorem count_append_singleton (events : List Port) (port p : Port) :
    (events ++ [port]).count p = events.count p + if p = port then 1 else 0 := by
  rw [List.count_append, List.count_singleton]
  by_cases hp : p = port
  · simp [hp]
  · simp [hp, Ne.symm hp]

/-- A count that the new port does not belong to stays. -/
theorem count_append_other {events : List Port} {port p : Port} {counted : Prop}
    [Decidable counted] (hother : p = port → ¬ counted) (ended : ℕ) :
    (if counted then (events ++ [port]).count p - ended else 0) =
      if counted then events.count p - ended else 0 := by
  by_cases hp : p = port
  · rw [if_neg (hother hp), if_neg (hother hp)]
  · rw [count_append_singleton, if_neg hp, Nat.add_zero]

/-! ## All events -/

/-- The six tables and the links after some events. -/
structure Tables (events : List Port) (s : State) : Prop where
  newInput : s.newInputPort = none ↔ ∀ p ∈ events, p.direction = .output
  inputs : ∀ family port, (s.inputPorts family).count port =
    if port.direction = .input ∧ port.family = family then events.count port else 0
  outputs : ∀ family port, (s.outputPorts family).count port =
    if port.direction = .output ∧ port.family = family then
      events.count port - (aborted events).count port else 0
  links : ∀ outputPort inputPort, s.links.count (outputPort, inputPort) =
    if outputPort.family = inputPort.family then
      (s.outputPorts outputPort.family).count outputPort *
        (s.inputPorts inputPort.family).count inputPort
    else 0

theorem count_aborted_le (events : List Port) (port : Port) :
    (aborted events).count port ≤ events.count port :=
  (List.filter_sublist.trans (List.takeWhile_sublist _)).count_le port

theorem tables_watchIn {events : List Port} {s : State} (h : Tables events s) {port : Port}
    (hport : port.direction = .input) :
    Tables (events ++ [port]) (watchIn port.family s port) := by
  -- an input port aborts no hook
  have haborted : aborted (events ++ [port]) = aborted events := by
    rw [aborted_append, if_neg]
    simp [hport]
  constructor
  case newInput =>
    constructor
    · intro hnone
      cases hnone
    · intro hall
      have := hall port (by simp)
      rw [hport] at this
      cases this
  case inputs =>
    intro family p
    refine (count_enter ..).trans ?_
    rw [h.inputs, count_append_singleton]
    by_cases hp : p = port
    · subst hp
      by_cases hfamily : p.family = family
      · simp [hport, hfamily]
      · simp [hfamily, Ne.symm hfamily]
    · simp [hp]
  case outputs =>
    intro family p
    refine (h.outputs family p).trans ?_
    rw [haborted]
    -- the new port is no output port
    refine (count_append_other (fun hp => ?_) _).symm
    simp [hp, hport]
  case links =>
    intro o i
    refine (List.count_append ..).trans ?_
    have hinput : ((watchIn port.family s port).inputPorts i.family).count i =
        (s.inputPorts i.family).count i + if i.family = port.family ∧ i = port then 1 else 0 :=
      count_enter ..
    -- a link to the new port for every output port that has been entered
    rw [h.links, count_map_right, hinput]
    by_cases hi : port = i
    · subst hi
      by_cases hfamily : o.family = port.family
      · simp [hfamily, watchIn, Nat.mul_add]
      · simp [hfamily, h.outputs]
    · simp [hi, Ne.symm hi, watchIn]

section Outputs

variable {events : List Port} {s : State} (h : Tables events s) {port : Port}
  (hport : port.direction = .output)

include h hport

theorem newInput_append :
    s.newInputPort = none ↔ ∀ p ∈ events ++ [port], p.direction = .output := by
  rw [h.newInput]
  simp [or_imp, forall_and, hport]

theorem inputs_append (family : Family) (p : Port) : (s.inputPorts family).count p =
    if p.direction = .input ∧ p.family = family then (events ++ [port]).count p else 0 := by
  refine (h.inputs family p).trans (count_append_other (fun hp => ?_) 0).symm
  simp [hp, hport]

/-- The hook prints too early: no table changes, and the port counts as aborted. -/
theorem tables_aborted (hfamily : port.family ≠ .osc) (hnone : s.newInputPort = none) :
    Tables (events ++ [port]) { s with newOutputPort := some port } := by
  have haborted : aborted (events ++ [port]) = aborted events ++ [port] := by
    rw [aborted_append, if_pos ⟨h.newInput.mp hnone, hport, hfamily⟩]
  refine ⟨newInput_append h hport, inputs_append h hport, fun family p => ?_, h.links⟩
  refine (h.outputs family p).trans ?_
  rw [haborted, count_append_singleton, count_append_singleton, Nat.add_sub_add_right]

/-- The hook enters the port and links it. -/
theorem tables_entered (hends : ¬ (port.family ≠ .osc ∧ s.newInputPort = none)) :
    Tables (events ++ [port])
      { s with
        newOutputPort := some port
        outputPorts := Function.update s.outputPorts port.family
          (s.outputPorts port.family ++ [port])
        links := s.links ++
          (s.inputPorts port.family).map fun inputPort => (port, inputPort) } := by
  have haborted : aborted (events ++ [port]) = aborted events := by
    rw [aborted_append, if_neg]
    exact fun hall => hends ⟨hall.2.2, h.newInput.mpr hall.1⟩
  refine ⟨newInput_append h hport, inputs_append h hport, fun family p => ?_, fun o i => ?_⟩
  · refine (count_enter ..).trans ?_
    have hle := count_aborted_le events p
    rw [h.outputs, haborted, count_append_singleton]
    by_cases hp : p = port
    · subst hp
      by_cases hfamily : p.family = family
      · simp [hport, hfamily]
        omega
      · simp [hfamily, Ne.symm hfamily]
    · simp [hp]
  · refine (List.count_append ..).trans ?_
    simp only [count_enter]
    rw [h.links, count_map_left]
    by_cases ho : port = o
    · subst ho
      by_cases hfamily : port.family = i.family
      · simp [hfamily, Nat.add_mul]
      · simp [hfamily, h.inputs, Ne.symm hfamily]
    · simp [ho, Ne.symm ho]

theorem tables_watchOut :
    Tables (events ++ [port]) (watchOut port.family (decide (port.family ≠ .osc)) s port) := by
  unfold watchOut
  by_cases hends : port.family ≠ .osc ∧ s.newInputPort = none
  · rw [if_pos (by simpa using hends)]
    exact tables_aborted h hport hends.1 hends.2
  · rw [if_neg (by simpa using hends)]
    exact tables_entered h hport hends

end Outputs

theorem tables_run (events : List Port) : Tables events (run events) := by
  induction events using List.reverseRecOn with
  | nil => exact ⟨by simp [run, initial], by simp [run, initial], by simp [run, initial],
      by simp [run, initial]⟩
  | append_singleton events port ih =>
      have hrun : run (events ++ [port]) = portAdded (run events) port := by
        simp [run]
      rw [hrun]
      cases hport : port.direction with
      | input =>
          rw [portAdded_input hport]
          exact tables_watchIn ih hport
      | output =>
          rw [portAdded_output hport]
          exact tables_watchOut ih hport

/-- How often two ports are linked: every arrival of the output port that is not
aborted, with every arrival of the input port. -/
theorem count_links (events : List Port) (outputPort inputPort : Port) :
    (run events).links.count (outputPort, inputPort) =
      if Matching outputPort inputPort then
        (events.count outputPort - (aborted events).count outputPort) * events.count inputPort
      else 0 := by
  have h := tables_run events
  rw [h.links, h.outputs, h.inputs]
  by_cases ho : outputPort.direction = .output <;> by_cases hi : inputPort.direction = .input <;>
    simp [Matching, ho, hi]

/-- **Links.**  Matching ports are linked exactly once, and no others are, exactly
when no aborted output port has an input port to miss. -/
theorem linkedOnce_iff (events : List Port) : LinkedOnce events ↔ NoneMissed events := by
  constructor
  · intro h o ho i hi hinput hfamily
    have hoTaken := (List.mem_filter.mp ho).1
    have hoMem : o ∈ events := (List.takeWhile_sublist _).subset hoTaken
    have hoOutput : o.direction = .output := by
      simpa using List.mem_takeWhile_imp hoTaken
    have hcount := h o i
    rw [count_links, if_pos ⟨hoOutput, hinput, hfamily.symm⟩,
      if_pos ⟨hoOutput, hinput, hfamily.symm⟩,
      Nat.mul_right_cancel_iff (List.count_pos_iff.mpr hi)] at hcount
    have haborted := List.count_pos_iff.mpr ho
    have hadded := List.count_pos_iff.mpr hoMem
    omega
  · intro h o i
    rw [count_links]
    by_cases hmatching : Matching o i
    · rw [if_pos hmatching, if_pos hmatching]
      rcases Nat.eq_zero_or_pos ((aborted events).count o) with hnone | hsome
      · rw [hnone, Nat.sub_zero]
      · have hmissing : i ∉ events := fun hi =>
          h o (List.count_pos_iff.mp hsome) i hi hmatching.2.1 hmatching.2.2.symm
        rw [List.count_eq_zero_of_not_mem hmissing, Nat.mul_zero, Nat.mul_zero]
    · rw [if_neg hmatching, if_neg hmatching]

/-- The output port of `pmx-from-sl-osc` comes first of all ports. -/
theorem early_port_never_linked :
    ¬ LinkedOnce [⟨.fromSlOsc, .output, 40⟩, ⟨.fromSlOsc, .input, 41⟩] := by
  intro h
  have := h ⟨.fromSlOsc, .output, 40⟩ ⟨.fromSlOsc, .input, 41⟩
  revert this
  decide

end Pmx.ConnectOscPorts
