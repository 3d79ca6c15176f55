import Pmx.FilterChainCtrl
import Pmx.FilterGraph

/-!
# The names of the controls

The parser lets every channel number of one or two digits through and every
device on every type of channel, so an accepted path may name a node that the
chain it is sent to does not have.  `controlName_iff` says which paths name a
node, and when the paths of two input channels name the same control.
-/

namespace Pmx.FilterChainCtrl

open Cxx Osc FilterGraph

/-- The chain that a path is sent to has the node that its control belongs to. -/
def NamesNode (path : OscPath) : Prop :=
  ∃ chain graph name, nodeParameterName path = some chain ∧ (chain, graph) ∈ chains ∧
    nodeName path = some name ∧ name ∈ graph

/-- The number of an input channel over both layers. -/
def channelIndex (path : OscPath) : ℕ :=
  match path.layer with
  | .A => path.channelId
  | .B => 16 + path.channelId

/-- The channels and devices that the filter graphs provide for. -/
def InGraph (path : OscPath) : Prop :=
  match path.channelType with
  | .input => 1 ≤ channelIndex path ∧ channelIndex path ≤ 32
  | .group =>
      path.parameter.deviceName ≠ lit "Saturator" ∧ 1 ≤ path.channelId ∧ path.channelId ≤ 4
  | .layer => path.parameter.deviceName ≠ lit "Saturator"
  | .none => False

/-! ## Device numbers and names of accepted paths -/

theorem device_mem {p : Parameter} (hmem : p ∈ Parameters.all) (hid : p.id ≠ 0) :
    p.deviceName ∈ devices := by
  rcases Parameters.device_of_mem hmem hid with ⟨h, _⟩ | ⟨h, _⟩ | ⟨h, _⟩ <;>
    rw [h] <;> decide

/-- Channel numbers of two digits do not overflow the device number. -/
theorem toNat_deviceNumber {path : OscPath} (hchannel : path.channelId ≤ 99) :
    (deviceNumber path).toNat = channelIndex path := by
  unfold deviceNumber channelIndex
  cases path.layer with
  | A =>
      show path.channelId % 256 = path.channelId
      omega
  | B =>
      show (16 + path.channelId) % 256 = 16 + path.channelId
      omega

theorem nodeName_input {path : OscPath} (htype : path.channelType = .input)
    (hchannel : path.channelId ≤ 99) :
    nodeName path = some (node path.parameter.deviceName (decimal (channelIndex path))) := by
  simp only [nodeName, htype, toNat_deviceNumber hchannel, node]
  rw [List.append_assoc]
  rfl

theorem nodeName_group {path : OscPath} (htype : path.channelType = .group) :
    nodeName path =
      some (node path.parameter.deviceName (lit "G" ++ decimal path.channelId)) := by
  simp only [nodeName, htype, node]
  rw [List.append_assoc]
  rfl

theorem nodeName_layer {path : OscPath} (htype : path.channelType = .layer) :
    nodeName path = some (node path.parameter.deviceName path.layer.text) := by
  simp only [nodeName, htype, node]
  cases path.layer <;> rfl

/-! ## Which nodes exist -/

private theorem mem_chains {chain : Str} {graph graph' : List Str}
    (h : (chain, graph) ∈ chains) (h' : (chain, graph') ∈ chains) : graph = graph' := by
  have hnames : (chains.map Prod.fst).Nodup := by decide
  exact congrArg Prod.snd (List.inj_on_of_nodup_map hnames h h' rfl)

theorem namesNode_iff_mem {path : OscPath} {chain name : Str} {graph : List Str}
    (hchain : nodeParameterName path = some chain) (hgraph : (chain, graph) ∈ chains)
    (hname : nodeName path = some name) : NamesNode path ↔ name ∈ graph := by
  constructor
  · rintro ⟨chain', graph', name', hchain', hgraph', hname', hmem⟩
    rw [hchain, Option.some.injEq] at hchain'
    rw [hname, Option.some.injEq] at hname'
    subst hchain' hname'
    exact mem_chains hgraph' hgraph ▸ hmem
  · intro hmem
    exact ⟨chain, graph, name, hchain, hgraph, hname, hmem⟩

theorem namesNode_iff {path : OscPath} (hchannel : path.channelId ≤ 99)
    (hdevice : path.parameter.deviceName ∈ devices) : NamesNode path ↔ InGraph path := by
  cases htype : path.channelType with
  | input =>
      have hchain : nodeParameterName path = some (lit "inputChannels") := by
        simp only [nodeParameterName, htype]
      have hgraph : (lit "inputChannels", inputChannels) ∈ chains := by simp [chains]
      rw [namesNode_iff_mem hchain hgraph (nodeName_input htype hchannel),
        mem_inputChannels hdevice]
      simp only [InGraph, htype]
  | group =>
      obtain ⟨chain, hchain, hgraph⟩ : ∃ chain,
          nodeParameterName path = some chain ∧ (chain, groupChannels) ∈ chains := by
        simp only [nodeParameterName, htype]
        cases path.layer with
        | A => exact ⟨_, rfl, by simp [chains]⟩
        | B => exact ⟨_, rfl, by simp [chains]⟩
      rw [namesNode_iff_mem hchain hgraph (nodeName_group htype), mem_groupChannels hdevice]
      simp only [InGraph, htype]
  | layer =>
      have hchain : nodeParameterName path = some (lit "layerChannels") := by
        simp only [nodeParameterName, htype]
      have hgraph : (lit "layerChannels", layerChannels) ∈ chains := by simp [chains]
      have hlabel : path.layer.text ∈ [lit "A", lit "B"] := by
        cases path.layer <;> decide
      rw [namesNode_iff_mem hchain hgraph (nodeName_layer htype),
        mem_layerChannels hdevice hlabel]
      simp only [InGraph, htype]
  | none => simp [NamesNode, InGraph, nodeParameterName, htype]

/-! ## When two names are equal -/

theorem colon_not_mem_node {device : Str} (hdevice : device ∈ devices) (n : ℕ) :
    ':'.toUInt8 ∉ node device (decimal n) := by
  have hall : ∀ device ∈ devices, ':'.toUInt8 ∉ device := by decide
  intro hmem
  rw [node, List.mem_append, List.mem_cons] at hmem
  rcases hmem with hmem | hmem | hmem
  · exact hall device hdevice hmem
  · revert hmem
    decide
  · exact not_mem_decimal (by decide) n hmem

theorem parameterName_eq_iff {p q : OscPath} (hp : p.channelType = .input)
    (hq : q.channelType = .input) (hpChannel : p.channelId ≤ 99) (hqChannel : q.channelId ≤ 99)
    (hpMem : p.parameter ∈ Parameters.all) (hqMem : q.parameter ∈ Parameters.all)
    (hpDevice : p.parameter.deviceName ∈ devices) (hqDevice : q.parameter.deviceName ∈ devices) :
    parameterName p = parameterName q ↔
      channelIndex p = channelIndex q ∧ p.parameter = q.parameter := by
  have hname : ∀ {path : OscPath}, path.channelType = .input → path.channelId ≤ 99 →
      parameterName path = some (node path.parameter.deviceName (decimal (channelIndex path)) ++
        ':'.toUInt8 :: path.parameter.name) := by
    intro path htype hchannel
    rw [parameterName, nodeName_input htype hchannel, Option.map_some, List.append_assoc]
    rfl
  rw [hname hp hpChannel, hname hq hqChannel, Option.some.injEq,
    append_cons_inj (colon_not_mem_node hpDevice _) (colon_not_mem_node hqDevice _), node, node,
    append_cons_inj (hyphen_not_mem hpDevice) (hyphen_not_mem hqDevice),
    decimal_injective.eq_iff]
  -- device, number and parameter are read back from a name one by one
  constructor
  · rintro ⟨⟨hdevice, hindex⟩, hparameter⟩
    exact ⟨hindex, Parameters.eq_of_fullNames hpMem hqMem hdevice hparameter⟩
  · rintro ⟨hindex, hparameter⟩
    rw [hparameter]
    exact ⟨⟨rfl, hindex⟩, rfl⟩

/-- Sixteen channels a layer keep the layers apart. -/
theorem channelIndex_inj {p q : OscPath} (hp : 1 ≤ p.channelId ∧ p.channelId ≤ 16)
    (hq : 1 ≤ q.channelId ∧ q.channelId ≤ 16) (h : channelIndex p = channelIndex q) :
    p.layer = q.layer ∧ p.channelId = q.channelId := by
  unfold channelIndex at h
  cases hpLayer : p.layer <;> cases hqLayer : q.layer <;> simp only [hpLayer, hqLayer] at h
  · exact ⟨rfl, h⟩
  · omega
  · omega
  · exact ⟨rfl, by omega⟩

/-- **The control names of accepted paths.** -/
theorem controlName_iff {s s' : Str} {p q : OscPath} (hp : parseOscPath s = .ok (.ok p))
    (hq : parseOscPath s' = .ok (.ok q)) :
    (NamesNode p ↔ InGraph p) ∧
      (p.channelType = .input → q.channelType = .input →
        (parameterName p = parameterName q ↔
          channelIndex p = channelIndex q ∧ p.parameter = q.parameter) ∧
        (1 ≤ p.channelId ∧ p.channelId ≤ 16 → 1 ≤ q.channelId ∧ q.channelId ≤ 16 →
          parameterName p = parameterName q →
          p.layer = q.layer ∧ p.channelId = q.channelId ∧ p.parameter = q.parameter)) := by
  obtain ⟨_, hpAccepts⟩ := parse_eq_ok_iff.mp hp
  obtain ⟨_, hqAccepts⟩ := parse_eq_ok_iff.mp hq
  obtain ⟨hpMem, hpId⟩ := hpAccepts.parameter_mem
  obtain ⟨hqMem, hqId⟩ := hqAccepts.parameter_mem
  have hpDevice := device_mem hpMem hpId
  refine ⟨namesNode_iff hpAccepts.channel_le hpDevice, ?_⟩
  intro hpType hqType
  have hequal := parameterName_eq_iff hpType hqType hpAccepts.channel_le hqAccepts.channel_le
    hpMem hqMem hpDevice (device_mem hqMem hqId)
  refine ⟨hequal, ?_⟩
  intro hpRange hqRange hnames
  obtain ⟨hindex, hparameter⟩ := hequal.mp hnames
  obtain ⟨hlayer, hchannel⟩ := channelIndex_inj hpRange hqRange hindex
  exact ⟨hlayer, hchannel, hparameter⟩

theorem controlName_iff_sixteenth :
    NamesNode ⟨16, .input, .B, Parameters.equalizerLow⟩ ∧
      parameterName ⟨16, .input, .B, Parameters.equalizerLow⟩ ≠
        parameterName ⟨16, .input, .A, Parameters.equalizerLow⟩ := by
  have hB : parseOscPath (lit "/I/B/16/EQU/low") =
      .ok (.ok ⟨16, .input, .B, Parameters.equalizerLow⟩) := by rfl
  have hA : parseOscPath (lit "/I/A/16/EQU/low") =
      .ok (.ok ⟨16, .input, .A, Parameters.equalizerLow⟩) := by rfl
  have h := controlName_iff hB hA
  refine ⟨h.1.mpr ⟨by decide, by decide⟩, fun hnames => ?_⟩
  exact absurd ((h.2 rfl rfl).2 (by decide) (by decide) hnames).1 (by decide)

/-- Two accepted paths: a group has no saturator, and a seventeenth channel of
layer A is the first one of layer B. -/
theorem controlName_counterexample :
    (∃ p, parseOscPath (lit "/G/A/1/SAT/drive") = .ok (.ok p) ∧ ¬ NamesNode p) ∧
      ∃ p q, parseOscPath (lit "/I/A/17/EQU/low") = .ok (.ok p) ∧
        parseOscPath (lit "/I/B/1/EQU/low") = .ok (.ok q) ∧
        parameterName p = parameterName q ∧ p.layer ≠ q.layer := by
  refine ⟨⟨⟨1, .group, .A, Parameters.saturatorDrive⟩, by rfl, ?_⟩,
    ⟨17, .input, .A, Parameters.equalizerLow⟩, ⟨1, .input, .B, Parameters.equalizerLow⟩,
    by rfl, by rfl, by rfl, by decide⟩
  rw [namesNode_iff (by decide) (by decide)]
  exact fun h => h.1 rfl

end Pmx.FilterChainCtrl
