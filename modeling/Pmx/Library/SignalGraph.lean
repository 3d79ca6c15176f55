import Mathlib.Data.List.Basic

/-!
# Graphs of signal plugins

A graph connects output ports of nodes to input ports of nodes; some input ports
are the inputs of the graph.  Every node runs a plugin, any function from the
signals at its input ports to the signals at its output ports, and an input port
that nothing is connected to is silent.  `Solves` says that an assignment of
signals to all ports obeys the graph, without saying how it is computed.

`Trace` follows the links backwards from an input port.  Behind a plugin it goes
on at the input port on the same side, which `across` names.
-/

namespace SignalGraph

variable {ν π : Type*}

structure Port (ν π : Type*) where
  node : ν
  name : π
  deriving DecidableEq, Repr

/-- `links` are pairs of an output port and the input port it feeds. -/
structure Graph (ν π : Type*) where
  links : List (Port ν π × Port ν π)
  inputs : List (Port ν π)
  outputs : List (Port ν π)

/-- The nodes passed from an input port back to a graph input. -/
inductive Trace (graph : Graph ν π) (across : π → π) : Port ν π → List ν → Port ν π → Prop
  | input {q : Port ν π} (h : q ∈ graph.inputs) : Trace graph across q [q.node] q
  | link {q source origin : Port ν π} {nodes : List ν} (h : (source, q) ∈ graph.links)
      (rest : Trace graph across ⟨source.node, across source.name⟩ nodes origin) :
      Trace graph across q (q.node :: nodes) origin

/-- The signals at the input ports and at the output ports obey the graph. -/
structure Solves {S : Type*} (graph : Graph ν π) (plugin : ν → (π → S) → π → S) (silence : S)
    (external : Port ν π → S) (input output : Port ν π → S) : Prop where
  linked : ∀ {source q}, (source, q) ∈ graph.links → input q = output source
  external : ∀ {q}, q ∈ graph.inputs → input q = external q
  silent : ∀ {q}, q ∉ graph.inputs → (∀ source, (source, q) ∉ graph.links) → input q = silence
  plugged : ∀ q, output q = plugin q.node (fun name => input ⟨q.node, name⟩) q.name

variable {graph : Graph ν π} {across : π → π} {q : Port ν π}

/-- From a graph input nothing leads further back. -/
theorem trace_input (hinput : q ∈ graph.inputs) (hlinks : ∀ source, (source, q) ∉ graph.links)
    {nodes : List ν} {origin : Port ν π} :
    Trace graph across q nodes origin ↔ nodes = [q.node] ∧ origin = q := by
  constructor
  · intro h
    cases h with
    | input _ => exact ⟨rfl, rfl⟩
    | link hlink _ => exact absurd hlink (hlinks _)
  · rintro ⟨rfl, rfl⟩
    exact .input hinput

/-- A port that is fed by one output port leads where that one leads. -/
theorem trace_link {source : Port ν π} (hinput : q ∉ graph.inputs)
    (hlinks : ∀ other, (other, q) ∈ graph.links ↔ other = source)
    {nodes : List ν} {origin : Port ν π} :
    Trace graph across q nodes origin ↔ ∃ rest, nodes = q.node :: rest ∧
      Trace graph across ⟨source.node, across source.name⟩ rest origin := by
  constructor
  · intro h
    cases h with
    | input hmem => exact absurd hmem hinput
    | link hlink rest =>
        obtain rfl := (hlinks _).mp hlink
        exact ⟨_, rfl, rest⟩
  · rintro ⟨rest, rfl, h⟩
    exact .link ((hlinks source).mpr rfl) h

/-- A port that nothing feeds leads nowhere. -/
theorem not_trace (hinput : q ∉ graph.inputs) (hlinks : ∀ source, (source, q) ∉ graph.links)
    (nodes : List ν) (origin : Port ν π) : ¬ Trace graph across q nodes origin := by
  intro h
  cases h with
  | input hmem => exact hinput hmem
  | link hlink _ => exact hlinks _ hlink

/-- A port that is fed by one output port at most. -/
theorem Solves.input_eq {S : Type*} {plugin : ν → (π → S) → π → S} {silence : S}
    {external input output : Port ν π → S}
    (h : Solves graph plugin silence external input output) {feed : Option (Port ν π)}
    (hinput : q ∉ graph.inputs)
    (hlinks : ∀ source, (source, q) ∈ graph.links ↔ feed = some source) :
    input q = (feed.map output).getD silence := by
  cases feed with
  | none =>
      refine h.silent hinput fun source hlink => ?_
      exact absurd ((hlinks source).mp hlink) (by simp)
  | some source => exact h.linked ((hlinks source).mpr rfl)

/-! ## Graphs without cycles -/

section Levels

variable {S : Type*} [DecidableEq ν] [DecidableEq π] (graph : Graph ν π)
  (feed : Port ν π → Option (Port ν π)) (plugin : ν → (π → S) → π → S) (silence : S)
  (external : Port ν π → S)

/-- The output of the plugins for some signals at the input ports. -/
def plugged (input : Port ν π → S) (q : Port ν π) : S :=
  plugin q.node (fun name => input ⟨q.node, name⟩) q.name

/-- The signals at the input ports after they went through so many nodes. -/
def level : ℕ → Port ν π → S
  | 0, _ => silence
  | k + 1, q =>
      if q ∈ graph.inputs then external q
      else ((feed q).map (plugged plugin (level k))).getD silence

variable {graph feed plugin silence external} {rank : ν → ℕ}

/-- The signals in front of a node stay as soon as they have gone through all
nodes that come before it. -/
theorem level_eq (hrank : ∀ q source, feed q = some source → rank source.node < rank q.node)
    {k : ℕ} {q : Port ν π} (hk : rank q.node < k) :
    level graph feed plugin silence external (k + 1) q =
      level graph feed plugin silence external k q := by
  induction k generalizing q with
  | zero => exact absurd hk (Nat.not_lt_zero _)
  | succ k ih =>
      rw [level, level]
      split_ifs
      · rfl
      cases hfeed : feed q with
      | none => rfl
      | some source =>
          have hsource : rank source.node < k := by
            have := hrank q source hfeed
            omega
          simp only [Option.map_some, Option.getD_some, plugged]
          congr 1
          exact funext fun name => ih hsource

theorem level_of_rank (hrank : ∀ q source, feed q = some source → rank source.node < rank q.node)
    {k : ℕ} {q : Port ν π} (hk : rank q.node < k) :
    level graph feed plugin silence external k q =
      level graph feed plugin silence external (rank q.node + 1) q := by
  obtain ⟨more, rfl⟩ := Nat.exists_eq_add_of_lt hk
  clear hk
  induction more with
  | zero => rfl
  | succ more ih =>
      rw [← ih]
      exact level_eq hrank (by omega)

/-- A graph whose nodes can be put in an order along the links has a solution. -/
theorem exists_solves (hlinks : ∀ source q, (source, q) ∈ graph.links ↔ feed q = some source)
    (hinputs : ∀ q ∈ graph.inputs, feed q = none)
    (hrank : ∀ q source, feed q = some source → rank source.node < rank q.node) :
    ∃ input output, Solves graph plugin silence external input output := by
  refine ⟨fun q => level graph feed plugin silence external (rank q.node + 1) q,
    plugged plugin fun q => level graph feed plugin silence external (rank q.node + 1) q, ?_⟩
  constructor
  case linked =>
    intro source q hlink
    have hfeed := (hlinks source q).mp hlink
    have hgraphInput : q ∉ graph.inputs := by
      intro hinput
      rw [hinputs q hinput] at hfeed
      cases hfeed
    rw [level, if_neg hgraphInput, hfeed, Option.map_some, Option.getD_some, plugged, plugged]
    congr 1
    exact funext fun name => level_of_rank hrank (hrank q source hfeed)
  case external =>
    intro q hinput
    rw [level, if_pos hinput]
  case silent =>
    intro q hinput hnone
    cases hfeed : feed q with
    | none => rw [level, if_neg hinput, hfeed, Option.map_none, Option.getD_none]
    | some source => exact absurd ((hlinks source q).mpr hfeed) (hnone source)
  case plugged => exact fun q => rfl

end Levels

end SignalGraph
