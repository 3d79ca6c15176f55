import Pmx.FilterChainCtrl.Wiring

/-!
# The group and the layer graph

`group_channel_filter_graph_definition` and `layer_filter_graph_definition` have
one shape: strips of a compressor and an equalizer, and a mixer for each side.
The group graph has four strips and the layer graph two.  The two inputs of every
compressor are the inputs of the graph, strip after strip, and the outputs of the
two mixers are its outputs.

The output of a mixer is a function of the signals at the inputs
(`output_mixer`), whatever the plugins do.
-/

namespace Pmx.FilterGraph.Mixers

open Cxx SignalGraph
open FilterChainCtrl (Side)

/-- The nodes of a mix: two devices for each strip, and a mixer for each side. -/
inductive MixNode
  | compressor (strip : ℕ)
  | equalizer (strip : ℕ)
  | mixer (side : Side)
  deriving DecidableEq

/-- The ports of the strips, and those of the `mixer` plugin: `In {number}` and `Out`. -/
inductive MixPortName
  | plugin (name : PortName)
  | mixIn (number : ℕ)
  | mixOut
  deriving DecidableEq

/-- A port of a node of a mix. -/
abbrev MixPort := Port MixNode MixPortName

/-- How a side is written in the name of a mixer. -/
def sideName : Side → Str
  | .left => lit "L"
  | .right => lit "R"

/-- The name of a node, when strips are called by `label`. -/
def MixNode.text (label : ℕ → Str) : MixNode → Str
  | .compressor strip => node (lit "Compressor") (label strip)
  | .equalizer strip => node (lit "Equalizer") (label strip)
  | .mixer side => node (lit "Mixer") (sideName side)

/-- The input of a strip. -/
def stripInput (strip : ℕ) (side : Side) : MixPort :=
  ⟨.compressor strip, .plugin side.input⟩

/-- The output of the mixer of a side. -/
def mixerOutput (side : Side) : MixPort :=
  ⟨.mixer side, .mixOut⟩

/-- The links from the compressor of a strip to its equalizer. -/
def strips (strip : ℕ) : List (MixPort × MixPort) :=
  [(⟨.compressor strip, .plugin .outL⟩, ⟨.equalizer strip, .plugin .audioIn1⟩),
    (⟨.compressor strip, .plugin .outR⟩, ⟨.equalizer strip, .plugin .audioIn2⟩)]

/-- The links from the equalizer of a strip to the mixers. -/
def mixes (strip : ℕ) : List (MixPort × MixPort) :=
  [(⟨.equalizer strip, .plugin .audioOut1⟩, ⟨.mixer .left, .mixIn strip⟩),
    (⟨.equalizer strip, .plugin .audioOut2⟩, ⟨.mixer .right, .mixIn strip⟩)]

/-- `links`, `inputs` and `outputs` of a definition with so many strips. -/
def mixGraph (count : ℕ) : SignalGraph.Graph MixNode MixPortName where
  links := (List.range' 1 count).flatMap strips ++ (List.range' 1 count).flatMap mixes
  inputs := (List.range' 1 count).flatMap fun strip =>
    [stripInput strip .left, stripInput strip .right]
  outputs := [mixerOutput .left, mixerOutput .right]

/-- `group_channel_filter_graph_definition`. -/
def groupGraph : SignalGraph.Graph MixNode MixPortName :=
  mixGraph 4

/-- The strips of a side of the group channels. -/
def groupLabel (strip : ℕ) : Str :=
  lit "G" ++ decimal strip

/-- `layer_filter_graph_definition`. -/
def layerGraph : SignalGraph.Graph MixNode MixPortName :=
  mixGraph 2

/-- The layers A and B. -/
def layerLabel (strip : ℕ) : Str :=
  if strip = 1 then lit "A" else lit "B"

/-! ## What feeds a port -/

/-- The output port that feeds an input port. -/
def mixFeed (count : ℕ) (q : MixPort) : Option MixPort :=
  match q.node, q.name with
  | .equalizer strip, .plugin .audioIn1 =>
      if 1 ≤ strip ∧ strip ≤ count then some ⟨.compressor strip, .plugin .outL⟩ else none
  | .equalizer strip, .plugin .audioIn2 =>
      if 1 ≤ strip ∧ strip ≤ count then some ⟨.compressor strip, .plugin .outR⟩ else none
  | .mixer side, .mixIn strip =>
      if 1 ≤ strip ∧ strip ≤ count then
        some ⟨.equalizer strip, .plugin side.equalizerOutput⟩ else none
  | _, _ => none

theorem mem_mix_links (count : ℕ) (source q : MixPort) :
    (source, q) ∈ (mixGraph count).links ↔ mixFeed count q = some source := by
  obtain ⟨node, name⟩ := q
  cases node with
  | compressor strip => simp [mixGraph, strips, mixes, mixFeed]
  | equalizer strip =>
      cases name with
      | plugin name =>
          cases name <;> simp [mixGraph, strips, mixes, mixFeed]
          -- the two inputs
          all_goals exact and_congr (by omega) eq_comm
      | mixIn number => simp [mixGraph, strips, mixes, mixFeed]
      | mixOut => simp [mixGraph, strips, mixes, mixFeed]
  | mixer side =>
      cases name with
      | plugin name => simp [mixGraph, strips, mixes, mixFeed]
      | mixIn number =>
          cases side <;>
            simp [mixGraph, strips, mixes, mixFeed, Side.equalizerOutput]
          all_goals exact and_congr (by omega) eq_comm
      | mixOut => simp [mixGraph, strips, mixes, mixFeed]

theorem mem_mix_inputs (count : ℕ) (q : MixPort) :
    q ∈ (mixGraph count).inputs ↔
      ∃ strip side, 1 ≤ strip ∧ strip ≤ count ∧ q = stripInput strip side := by
  simp only [mixGraph, List.mem_flatMap, List.mem_range'_1, List.mem_cons, List.not_mem_nil,
    or_false]
  constructor
  · rintro ⟨strip, ⟨hlower, hupper⟩, rfl | rfl⟩
    · exact ⟨strip, .left, hlower, by omega, rfl⟩
    · exact ⟨strip, .right, hlower, by omega, rfl⟩
  · rintro ⟨strip, side, hlower, hupper, rfl⟩
    refine ⟨strip, ⟨hlower, by omega⟩, ?_⟩
    cases side
    · exact Or.inl rfl
    · exact Or.inr rfl

theorem mixFeed_of_mem_inputs {count : ℕ} {q : MixPort} (h : q ∈ (mixGraph count).inputs) :
    mixFeed count q = none := by
  obtain ⟨strip, side, _, _, rfl⟩ := (mem_mix_inputs count q).mp h
  cases side <;> rfl

/-- The order of the nodes along the links. -/
def MixNode.rank : MixNode → ℕ
  | .compressor _ => 0
  | .equalizer _ => 1
  | .mixer _ => 2

theorem rank_of_mixFeed {count : ℕ} (q source : MixPort) (h : mixFeed count q = some source) :
    source.node.rank < q.node.rank := by
  obtain ⟨node, name⟩ := q
  unfold mixFeed at h
  split at h
  · split_ifs at h
    cases h
    simp_all [MixNode.rank]
  · split_ifs at h
    cases h
    simp_all [MixNode.rank]
  · split_ifs at h
    cases h
    simp_all [MixNode.rank]
  · cases h

/-- There are signals that obey the graph, whatever comes in. -/
theorem exists_solves_mix {S : Type} (count : ℕ)
    (plugin : MixNode → (MixPortName → S) → MixPortName → S) (silence : S)
    (external : MixPort → S) :
    ∃ input output, Solves (mixGraph count) plugin silence external input output :=
  exists_solves (mem_mix_links count) (fun _ => mixFeed_of_mem_inputs) rank_of_mixFeed

/-! ## What the mixers put out -/

section Signals

variable {S : Type} (plugin : MixNode → (MixPortName → S) → MixPortName → S) (silence : S)

/-- The signals at a node with two inputs. -/
def sides (inputs : Side → PortName) (signal : Side → S) (name : MixPortName) : S :=
  if name = .plugin (inputs .left) then signal .left
  else if name = .plugin (inputs .right) then signal .right
  else silence

/-- What a strip makes of the signals at its inputs. -/
def stripSignal (strip : ℕ) (signal : Side → S) (side : Side) : S :=
  let compressor := plugin (.compressor strip) (sides silence Side.input signal)
  plugin (.equalizer strip)
    (sides silence Side.equalizerInput fun side => compressor (.plugin side.output))
    (.plugin side.equalizerOutput)

/-- The signals at the inputs of a mixer. -/
def mixerInputs (count : ℕ) (signal : ℕ → S) : MixPortName → S
  | .mixIn strip => if 1 ≤ strip ∧ strip ≤ count then signal strip else silence
  | _ => silence

/-- What the mixer of a side makes of the signals at the inputs of the strips. -/
def mixed (count : ℕ) (signals : ℕ → Side → S) (side : Side) : S :=
  plugin (.mixer side)
    (mixerInputs silence count fun strip => stripSignal plugin silence strip (signals strip) side)
    .mixOut

variable {plugin silence}

theorem eq_sides {inputs : Side → PortName} {signal : Side → S} {f : MixPortName → S}
    (hside : ∀ side, f (.plugin (inputs side)) = signal side)
    (hother : ∀ name, (∀ side, name ≠ .plugin (inputs side)) → f name = silence) :
    f = sides silence inputs signal := by
  funext name
  unfold sides
  split_ifs with hleft hright
  · rw [hleft]
    exact hside .left
  · rw [hright]
    exact hside .right
  · refine hother name fun side => ?_
    cases side
    · exact hleft
    · exact hright

theorem mixFeed_equalizer {count strip : ℕ} (hstrip : 1 ≤ strip ∧ strip ≤ count) (side : Side) :
    mixFeed count ⟨.equalizer strip, .plugin side.equalizerInput⟩ =
      some ⟨.compressor strip, .plugin side.output⟩ := by
  cases side <;> exact if_pos hstrip

theorem mixFeed_equalizer_other (count strip : ℕ) {name : MixPortName}
    (h : ∀ side : Side, name ≠ .plugin side.equalizerInput) :
    mixFeed count ⟨.equalizer strip, name⟩ = none := by
  cases name with
  | plugin name =>
      cases name <;> first
        | rfl
        | exact absurd rfl (h .left)
        | exact absurd rfl (h .right)
  | mixIn number => rfl
  | mixOut => rfl

variable {count : ℕ} {external input output : MixPort → S}
  (h : Solves (mixGraph count) plugin silence external input output)

include h

theorem input_eq_mixFeed {q : MixPort} (hq : q ∉ (mixGraph count).inputs) :
    input q = ((mixFeed count q).map output).getD silence :=
  h.input_eq hq fun source => mem_mix_links count source q

theorem output_mix_compressor {strip : ℕ} (hstrip : 1 ≤ strip ∧ strip ≤ count)
    (name : MixPortName) : output ⟨.compressor strip, name⟩ =
      plugin (.compressor strip)
        (sides silence Side.input fun side => external (stripInput strip side)) name := by
  rw [h.plugged]
  congr 1
  apply eq_sides
  · intro side
    exact h.external ((mem_mix_inputs count _).mpr ⟨strip, side, hstrip.1, hstrip.2, rfl⟩)
  · intro name hother
    rw [input_eq_mixFeed h]
    · rfl
    · intro hinput
      obtain ⟨_, side, _, _, hq⟩ := (mem_mix_inputs count _).mp hinput
      cases hq
      exact hother side rfl

theorem output_mix_equalizer {strip : ℕ} (hstrip : 1 ≤ strip ∧ strip ≤ count) (side : Side) :
    output ⟨.equalizer strip, .plugin side.equalizerOutput⟩ =
      stripSignal plugin silence strip (fun side => external (stripInput strip side)) side := by
  have hnot : ∀ name, (⟨.equalizer strip, name⟩ : MixPort) ∉ (mixGraph count).inputs := by
    intro name hinput
    obtain ⟨_, _, _, _, hq⟩ := (mem_mix_inputs count _).mp hinput
    cases hq
  rw [h.plugged, stripSignal]
  congr 1
  apply eq_sides
  · intro side
    rw [input_eq_mixFeed h (hnot _), mixFeed_equalizer hstrip, ← output_mix_compressor h hstrip]
    rfl
  · intro name hother
    rw [input_eq_mixFeed h (hnot _), mixFeed_equalizer_other count strip hother]
    rfl

/-- The output of the graph on a side. -/
theorem output_mixer (side : Side) :
    output (mixerOutput side) = mixed plugin silence count
      (fun strip side => external (stripInput strip side)) side := by
  have hnot : ∀ name, (⟨.mixer side, name⟩ : MixPort) ∉ (mixGraph count).inputs := by
    intro name hinput
    obtain ⟨_, _, _, _, hq⟩ := (mem_mix_inputs count _).mp hinput
    cases hq
  rw [h.plugged, mixed]
  congr 1
  funext name
  show input ⟨.mixer side, name⟩ = _
  rw [input_eq_mixFeed h (hnot _)]
  cases name with
  | plugin name => rfl
  | mixOut => rfl
  | mixIn strip =>
      by_cases hstrip : 1 ≤ strip ∧ strip ≤ count
      · have hfeed : mixFeed count ⟨.mixer side, .mixIn strip⟩ =
            some ⟨.equalizer strip, .plugin side.equalizerOutput⟩ := if_pos hstrip
        rw [hfeed, mixerInputs, if_pos hstrip, ← output_mix_equalizer h hstrip]
        rfl
      · have hfeed : mixFeed count ⟨.mixer side, .mixIn strip⟩ = none := if_neg hstrip
        rw [hfeed, mixerInputs, if_neg hstrip]
        rfl

end Signals

end Pmx.FilterGraph.Mixers
