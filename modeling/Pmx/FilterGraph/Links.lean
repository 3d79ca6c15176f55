import Mathlib.Tactic.IntervalCases
import Pmx.FilterGraph
import Pmx.Library.SignalGraph

/-!
# The links of the input channel graph

`input_channels_filter_graph_definition` has 32 strips of a saturator, a
compressor and an equalizer, and 32 copy nodes in front of them, which are the
inputs of the graph.  Two copies feed the left and the right port of a strip.
The graph lists these links for the first sixteen strips only, so that nothing
feeds the saturators of the others.

A port is written `{node}:{port}`; here it is a record, and `text` is what the
definition writes for it.  Ports that are written alike are the same
(`portText_injective`), and the links connect nodes that the graph has
(`nodes_of_mem_links`).
-/

namespace Pmx.FilterGraph

open Cxx SignalGraph

/-- The kinds of nodes of the graph. -/
inductive Device
  | saturator
  | compressor
  | equalizer
  | copy
  deriving DecidableEq, Repr

/-- How a device is written in the name of a node. -/
def Device.name : Device → Str
  | .saturator => lit "Saturator"
  | .compressor => lit "Compressor"
  | .equalizer => lit "Equalizer"
  | .copy => lit "Copy"

/-- A numbered node, such as `Copy-1`. -/
structure StripNode where
  device : Device
  number : ℕ
  deriving DecidableEq, Repr

/-- The name of a node in the definition. -/
def StripNode.text (n : StripNode) : Str :=
  node n.device.name (decimal n.number)

/-- The ports of the plugins that the graph names. -/
inductive PortName
  | copyIn
  | copyOut
  | inL
  | inR
  | outL
  | outR
  | audioIn1
  | audioIn2
  | audioOut1
  | audioOut2
  deriving DecidableEq, Repr

/-- The name of a port in the definition. -/
def PortName.text : PortName → Str
  | .copyIn => lit "In"
  | .copyOut => lit "Out"
  | .inL => lit "in_l"
  | .inR => lit "in_r"
  | .outL => lit "out_l"
  | .outR => lit "out_r"
  | .audioIn1 => lit "lv2_audio_in_1"
  | .audioIn2 => lit "lv2_audio_in_2"
  | .audioOut1 => lit "lv2_audio_out_1"
  | .audioOut2 => lit "lv2_audio_out_2"

/-- A port of a node of a strip. -/
abbrev StripPort := Port StripNode PortName

/-- The text of a port in the definition. -/
def portText (port : StripPort) : Str :=
  port.node.text ++ ':'.toUInt8 :: port.name.text

/-- The port of a numbered node. -/
def port (device : Device) (number : ℕ) (name : PortName) : StripPort :=
  ⟨⟨device, number⟩, name⟩

/-- The two links from the copies to a strip. -/
def copyLinks (k : ℕ) : List (StripPort × StripPort) :=
  [(port .copy (2 * k - 1) .copyOut, port .saturator k .inL),
    (port .copy (2 * k) .copyOut, port .saturator k .inR)]

/-- The four links inside of a strip. -/
def stripLinks (k : ℕ) : List (StripPort × StripPort) :=
  [(port .saturator k .outL, port .compressor k .inL),
    (port .saturator k .outR, port .compressor k .inR),
    (port .compressor k .outL, port .equalizer k .audioIn1),
    (port .compressor k .outR, port .equalizer k .audioIn2)]

/-- `links`, `inputs` and `outputs` of `input_channels_filter_graph_definition`. -/
def inputChannelsGraph : SignalGraph.Graph StripNode PortName where
  links := (List.range' 1 16).flatMap copyLinks ++ (List.range' 1 32).flatMap stripLinks
  inputs := (List.range' 1 32).map fun k => port .copy k .copyIn
  outputs := (List.range' 1 32).flatMap fun k =>
    [port .equalizer k .audioOut1, port .equalizer k .audioOut2]

/-- The input port on the side of an output port. -/
def across : PortName → PortName
  | .copyOut => .copyIn
  | .outL => .inL
  | .outR => .inR
  | .audioOut1 => .audioIn1
  | .audioOut2 => .audioIn2
  | name => name

/-! ## What feeds a port -/

/-- The output port that feeds an input port. -/
def feed (q : StripPort) : Option StripPort :=
  let k := q.node.number
  match q.node.device, q.name with
  | .saturator, .inL =>
      if 1 ≤ k ∧ k ≤ 16 then some (port .copy (2 * k - 1) .copyOut) else none
  | .saturator, .inR =>
      if 1 ≤ k ∧ k ≤ 16 then some (port .copy (2 * k) .copyOut) else none
  | .compressor, .inL => if 1 ≤ k ∧ k ≤ 32 then some (port .saturator k .outL) else none
  | .compressor, .inR => if 1 ≤ k ∧ k ≤ 32 then some (port .saturator k .outR) else none
  | .equalizer, .audioIn1 => if 1 ≤ k ∧ k ≤ 32 then some (port .compressor k .outL) else none
  | .equalizer, .audioIn2 => if 1 ≤ k ∧ k ≤ 32 then some (port .compressor k .outR) else none
  | _, _ => none

theorem mem_links (source q : StripPort) :
    (source, q) ∈ inputChannelsGraph.links ↔ feed q = some source := by
  obtain ⟨⟨device, k⟩, name⟩ := q
  cases device <;> cases name <;>
    simp [inputChannelsGraph, copyLinks, stripLinks, port, feed]
  -- the six kinds of links
  all_goals exact and_congr (by omega) eq_comm

theorem mem_inputs (q : StripPort) :
    q ∈ inputChannelsGraph.inputs ↔
      q.node.device = .copy ∧ q.name = .copyIn ∧ 1 ≤ q.node.number ∧ q.node.number ≤ 32 := by
  obtain ⟨⟨device, k⟩, name⟩ := q
  have hrange : 1 ≤ k ∧ k < 33 ↔ 1 ≤ k ∧ k ≤ 32 := by omega
  cases device <;> cases name <;> simp [inputChannelsGraph, port, hrange]

/-- A copy's input is not linked as well. -/
theorem not_mem_links_of_mem_inputs {q : StripPort} (h : q ∈ inputChannelsGraph.inputs)
    (source : StripPort) : (source, q) ∉ inputChannelsGraph.links := by
  rw [mem_inputs] at h
  rw [mem_links]
  obtain ⟨⟨device, k⟩, name⟩ := q
  obtain ⟨rfl, rfl, _⟩ := h
  exact fun hfeed => by cases hfeed

/-! ## The texts -/

theorem Device.hyphen_not_mem (d : Device) : '-'.toUInt8 ∉ d.name := by
  cases d <;> decide

theorem Device.name_injective : Function.Injective Device.name := by
  intro d d' h
  cases d <;> cases d' <;> first | rfl | exact absurd h (by decide)

theorem PortName.text_injective : Function.Injective PortName.text := by
  intro name name' h
  cases name <;> cases name' <;> first | rfl | exact absurd h (by decide)

theorem StripNode.text_injective : Function.Injective StripNode.text := by
  rintro ⟨d, k⟩ ⟨d', k'⟩ h
  obtain ⟨hdevice, hnumber⟩ := (append_cons_inj d.hyphen_not_mem d'.hyphen_not_mem).mp h
  obtain rfl := Device.name_injective hdevice
  obtain rfl := decimal_injective hnumber
  rfl

theorem StripNode.colon_not_mem (n : StripNode) : ':'.toUInt8 ∉ n.text := by
  have hdevice : ':'.toUInt8 ∉ n.device.name := by
    cases n.device <;> decide
  rw [StripNode.text, node, List.mem_append, List.mem_cons]
  rintro (h | h | h)
  · exact hdevice h
  · exact absurd h (by decide)
  · exact not_mem_decimal (by decide) _ h

/-- Ports that are written alike are the same port. -/
theorem portText_injective : Function.Injective portText := by
  rintro ⟨n, name⟩ ⟨n', name'⟩ h
  obtain ⟨hnode, hname⟩ := (append_cons_inj n.colon_not_mem n'.colon_not_mem).mp h
  obtain rfl := StripNode.text_injective hnode
  obtain rfl := PortName.text_injective hname
  rfl

theorem text_mem_inputChannels (n : StripNode) (hlower : 1 ≤ n.number) (hupper : n.number ≤ 32) :
    n.text ∈ inputChannels := by
  have hdecimal : decimal n.number ∈ (List.range' 1 32).map decimal :=
    (mem_decimals n.number 32).mpr ⟨hlower, hupper⟩
  rw [inputChannels, List.mem_append]
  by_cases hcopy : n.device = .copy
  · refine Or.inr ((mem_nodes (by decide) n.device.hyphen_not_mem).mpr ⟨?_, hdecimal⟩)
    rw [hcopy]
    decide
  · refine Or.inl ((mem_nodes (by decide) n.device.hyphen_not_mem).mpr ⟨?_, hdecimal⟩)
    revert hcopy
    cases n.device <;> decide

/-- The links connect nodes that the graph has. -/
theorem nodes_of_mem_links {source q : StripPort}
    (h : (source, q) ∈ inputChannelsGraph.links) :
    source.node.text ∈ inputChannels ∧ q.node.text ∈ inputChannels := by
  have hnumbers : (1 ≤ source.node.number ∧ source.node.number ≤ 32) ∧
      1 ≤ q.node.number ∧ q.node.number ≤ 32 := by
    rw [mem_links] at h
    obtain ⟨⟨device, k⟩, name⟩ := q
    cases device <;> cases name <;> simp [feed, port] at h
    all_goals
      obtain ⟨hk, rfl⟩ := h
      dsimp only
      omega
  exact ⟨text_mem_inputChannels _ hnumbers.1.1 hnumbers.1.2,
    text_mem_inputChannels _ hnumbers.2.1 hnumbers.2.2⟩

end Pmx.FilterGraph
