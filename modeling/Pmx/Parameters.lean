import Mathlib.Algebra.Order.Field.Rat
import Mathlib.Algebra.Order.Field.Basic
import Mathlib.Tactic.NormNum
import Mathlib.Tactic.Positivity
import Pmx.Library.Cxx

/-!
# The parameter table

`parameters::parameter` and its eighteen instances, the three tables that
assign a parameter to a MIDI controller number, and the interpolation that maps
a 32 bit controller value onto a parameter's range.  Bounds and values are
exact rationals.

A controller number without a parameter is treated in two ways by the source:
`find_target_parameter_for_group_channels` gives nothing, the two functions for
the input channels give the parameter `none`.
-/

namespace Pmx

open Cxx

/-- `parameters::parameter`, with the order of its bounds. -/
structure Parameter where
  id : ℕ
  name : Str
  deviceName : Str
  min : ℚ
  max : ℚ
  deviceShortName : Str
  min_le_max : min ≤ max

namespace Parameters

/-- The parameter of controllers without one. -/
def none : Parameter :=
  ⟨0, lit "none", lit "none", 0, 0, lit "NA", by norm_num⟩

def saturatorLevelIn : Parameter :=
  ⟨1, lit "level_in", lit "Saturator", 0.015625, 64, lit "SAT", by norm_num⟩

def saturatorDrive : Parameter :=
  ⟨2, lit "drive", lit "Saturator", 0.1, 10, lit "SAT", by norm_num⟩

def saturatorBlend : Parameter :=
  ⟨3, lit "blend", lit "Saturator", -10, 1, lit "SAT", by norm_num⟩

def saturatorLevelOut : Parameter :=
  ⟨4, lit "level_out", lit "Saturator", 0.015625, 64, lit "SAT", by norm_num⟩

def compressorThreshold : Parameter :=
  ⟨5, lit "threshold", lit "Compressor", 0.000977, 1, lit "CMP", by norm_num⟩

def compressorRatio : Parameter :=
  ⟨6, lit "ratio", lit "Compressor", 1, 20, lit "CMP", by norm_num⟩

def compressorAttack : Parameter :=
  ⟨7, lit "attack", lit "Compressor", 0.01, 2000, lit "CMP", by norm_num⟩

def compressorRelease : Parameter :=
  ⟨8, lit "release", lit "Compressor", 0.01, 2000, lit "CMP", by norm_num⟩

def compressorMakeup : Parameter :=
  ⟨9, lit "makeup", lit "Compressor", 1, 64, lit "CMP", by norm_num⟩

def compressorKnee : Parameter :=
  ⟨10, lit "knee", lit "Compressor", 1, 8, lit "CMP", by norm_num⟩

def compressorMix : Parameter :=
  ⟨11, lit "mix", lit "Compressor", 0, 1, lit "CMP", by norm_num⟩

def equalizerLow : Parameter :=
  ⟨12, lit "low", lit "Equalizer", -24, 24, lit "EQU", by norm_num⟩

def equalizerMid : Parameter :=
  ⟨13, lit "mid", lit "Equalizer", -24, 24, lit "EQU", by norm_num⟩

def equalizerHigh : Parameter :=
  ⟨14, lit "high", lit "Equalizer", -24, 24, lit "EQU", by norm_num⟩

def equalizerMaster : Parameter :=
  ⟨15, lit "master", lit "Equalizer", -24, 24, lit "EQU", by norm_num⟩

def equalizerLowMid : Parameter :=
  ⟨16, lit "low_mid", lit "Equalizer", 0, 1000, lit "EQU", by norm_num⟩

def equalizerMidHigh : Parameter :=
  ⟨17, lit "mid_high", lit "Equalizer", 1000, 20000, lit "EQU", by norm_num⟩

/-- `parameters::all`. -/
def all : List Parameter :=
  [none, saturatorLevelIn, saturatorDrive, saturatorBlend, saturatorLevelOut,
    compressorThreshold, compressorRatio, compressorAttack, compressorRelease,
    compressorMakeup, compressorKnee, compressorMix, equalizerLow, equalizerMid,
    equalizerHigh, equalizerMaster, equalizerLowMid, equalizerMidHigh]

/-! ## Controller numbers -/

/-- `RoutingTableTargetParameter`. -/
structure RoutingTableTargetParameter where
  groupId : UInt8
  parameter : Parameter

/-- `find_target_parameter_for_group_channels`. -/
def findTargetParameterForGroupChannels (ccNumber : UInt8) :
    Option RoutingTableTargetParameter :=
  if 10 ≤ ccNumber ∧ ccNumber < 14 then some ⟨ccNumber - 9, equalizerHigh⟩
  else if 14 ≤ ccNumber ∧ ccNumber < 18 then some ⟨ccNumber - 13, equalizerMid⟩
  else if 18 ≤ ccNumber ∧ ccNumber < 22 then some ⟨ccNumber - 17, equalizerLow⟩
  else if 48 ≤ ccNumber ∧ ccNumber < 52 then some ⟨ccNumber - 47, equalizerMaster⟩
  else Option.none

/-- The controller numbers of `find_target_parameter_for_input_mix_channels`,
in the order of its tests. -/
def inputMixChannels : List (UInt8 × UInt8 × Parameter) :=
  [(16, 1, equalizerHigh), (17, 1, equalizerMid), (18, 1, equalizerLow), (19, 1, equalizerMaster),
    (20, 2, equalizerHigh), (21, 2, equalizerMid), (22, 2, equalizerLow), (23, 2, equalizerMaster),
    (24, 3, equalizerHigh), (25, 3, equalizerMid), (26, 3, equalizerLow), (27, 3, equalizerMaster),
    (28, 4, equalizerHigh), (29, 4, equalizerMid), (30, 4, equalizerLow), (31, 4, equalizerMaster),
    (46, 5, equalizerHigh), (47, 5, equalizerMid), (48, 5, equalizerLow), (49, 5, equalizerMaster),
    (50, 6, equalizerHigh), (51, 6, equalizerMid), (52, 6, equalizerLow), (53, 6, equalizerMaster),
    (54, 7, equalizerHigh), (55, 7, equalizerMid), (56, 7, equalizerLow), (57, 7, equalizerMaster),
    (58, 8, equalizerHigh), (59, 8, equalizerMid), (60, 8, equalizerLow), (61, 8, equalizerMaster)]

/-- `find_target_parameter_for_input_mix_channels`. -/
def findTargetParameterForInputMixChannels (ccNumber : UInt8) : UInt8 × Parameter :=
  (inputMixChannels.lookup ccNumber).getD (0, none)

/-- The controller numbers of `find_target_parameter_for_input_channels`. -/
def inputChannels : List (UInt8 × Parameter) :=
  [(0, none), (1, saturatorLevelIn), (2, saturatorDrive), (3, saturatorBlend),
    (4, saturatorLevelOut), (5, compressorThreshold), (6, compressorRatio),
    (7, compressorAttack), (8, compressorRelease), (9, compressorMakeup),
    (10, compressorKnee), (11, compressorMix), (12, none), (13, equalizerLow),
    (14, equalizerMid), (15, equalizerHigh), (16, equalizerMaster),
    (17, equalizerLowMid), (18, equalizerMidHigh)]

/-- `find_target_parameter_for_input_channels`. -/
def findTargetParameterForInputChannels (ccNumber : UInt8) : Parameter :=
  (inputChannels.lookup ccNumber).getD none

/-- `interpolation::interpolate`, in exact arithmetic. -/
def interpolate (parameter : Parameter) (controlValue : UInt32) : ℚ :=
  parameter.min + (parameter.max - parameter.min) * controlValue.toNat / 4294967295

/-! ## The table as a whole -/

/-- Short name and name identify an entry. -/
theorem nodup_names : (all.map fun p => (p.deviceShortName, p.name)).Nodup := by
  decide

/-- Device name and name identify an entry as well. -/
theorem nodup_fullNames : (all.map fun p => (p.deviceName, p.name)).Nodup := by
  decide

/-- An entry is the first one of its names, so a search by names finds it. -/
theorem find?_names {p : Parameter} (hp : p ∈ all) :
    all.find? (fun q => q.deviceShortName = p.deviceShortName ∧ q.name = p.name) = some p := by
  obtain ⟨before, after, hall⟩ := List.append_of_mem hp
  -- no entry in front of `p` has its names
  have hnodup := nodup_names
  rw [hall, List.map_append, List.map_cons, List.nodup_append] at hnodup
  rw [hall, List.find?_append, List.find?_eq_none.mpr, Option.none_or, List.find?_cons_of_pos]
  · simp
  · intro q hq hsame
    simp only [decide_eq_true_eq] at hsame
    refine hnodup.2.2 (q.deviceShortName, q.name) (List.mem_map.mpr ⟨q, hq, rfl⟩)
      (p.deviceShortName, p.name) (List.mem_cons_self ..) ?_
    rw [hsame.1, hsame.2]

theorem eq_of_fullNames {p q : Parameter} (hp : p ∈ all) (hq : q ∈ all)
    (hdevice : p.deviceName = q.deviceName) (hname : p.name = q.name) : p = q :=
  List.inj_on_of_nodup_map nodup_fullNames hp hq (by rw [hdevice, hname])

theorem eq_of_id {p q : Parameter} (hp : p ∈ all) (hq : q ∈ all) (hid : p.id = q.id) : p = q := by
  have hnodup : (all.map Parameter.id).Nodup := by decide
  exact List.inj_on_of_nodup_map hnodup hp hq hid

/-- The devices of the entries other than `none`. -/
theorem device_of_mem {p : Parameter} (hp : p ∈ all) (hnone : p.id ≠ 0) :
    (p.deviceName = lit "Saturator" ∧ p.deviceShortName = lit "SAT") ∨
      (p.deviceName = lit "Compressor" ∧ p.deviceShortName = lit "CMP") ∨
      (p.deviceName = lit "Equalizer" ∧ p.deviceShortName = lit "EQU") := by
  have hall : ∀ p ∈ all.map fun p => (p.id, p.deviceName, p.deviceShortName), p.1 ≠ 0 →
      (p.2.1 = lit "Saturator" ∧ p.2.2 = lit "SAT") ∨
        (p.2.1 = lit "Compressor" ∧ p.2.2 = lit "CMP") ∨
        (p.2.1 = lit "Equalizer" ∧ p.2.2 = lit "EQU") := by
    decide
  exact hall _ (List.mem_map.mpr ⟨p, hp, rfl⟩) hnone

theorem eq_none_of_mem {p : Parameter} (hp : p ∈ all) (hnone : p.id = 0) : p = none := by
  have hid : (all.map Parameter.id).Nodup := by decide
  exact List.inj_on_of_nodup_map hid hp (List.mem_cons_self ..) hnone

/-! ## Interpolation -/

/-- Interpolated values stay within the bounds of the parameter. -/
theorem interpolate_mem (p : Parameter) (controlValue : UInt32) :
    p.min ≤ interpolate p controlValue ∧ interpolate p controlValue ≤ p.max := by
  have hvalue : (controlValue.toNat : ℚ) ≤ 4294967295 := by
    have := controlValue.toNat_lt
    exact_mod_cast Nat.le_of_lt_succ this
  have hrange : 0 ≤ p.max - p.min := sub_nonneg.mpr p.min_le_max
  have hpart : (p.max - p.min) * controlValue.toNat / 4294967295 ≤ p.max - p.min := by
    rw [div_le_iff₀ (by norm_num)]
    exact mul_le_mul_of_nonneg_left hvalue hrange
  constructor
  · apply le_add_of_nonneg_right
    positivity
  · calc interpolate p controlValue
        = p.min + (p.max - p.min) * controlValue.toNat / 4294967295 := rfl
      _ ≤ p.min + (p.max - p.min) := by linarith
      _ = p.max := add_sub_cancel p.min p.max

/-! ## What the tables give -/

/-- A controller of the group port reaches one of the four groups. -/
theorem groupChannels_target {ccNumber : UInt8} {target : RoutingTableTargetParameter}
    (h : findTargetParameterForGroupChannels ccNumber = some target) :
    1 ≤ target.groupId.toNat ∧ target.groupId.toNat ≤ 4 ∧ target.parameter ∈ all ∧
      target.parameter.id ≠ 0 := by
  -- each range of four controllers is moved down to the four groups
  have hsub : ∀ {low high : UInt8} (offset : UInt8), low ≤ ccNumber ∧ ccNumber < high →
      offset.toNat + 1 = low.toNat → high.toNat ≤ low.toNat + 4 →
      1 ≤ (ccNumber - offset).toNat ∧ (ccNumber - offset).toNat ≤ 4 := by
    intro low high offset ⟨hlow, hhigh⟩ hoffset hwidth
    rw [UInt8.le_iff_toNat_le] at hlow
    rw [UInt8.lt_iff_toNat_lt] at hhigh
    rw [UInt8.toNat_sub_of_le _ _ (UInt8.le_iff_toNat_le.mpr (by omega))]
    omega
  unfold findTargetParameterForGroupChannels at h
  split_ifs at h with h1 h2 h3 h4
  · cases h
    obtain ⟨hlow, hhigh⟩ := hsub 9 h1 rfl (by decide)
    exact ⟨hlow, hhigh, by simp [all], Nat.succ_ne_zero _⟩
  · cases h
    obtain ⟨hlow, hhigh⟩ := hsub 13 h2 rfl (by decide)
    exact ⟨hlow, hhigh, by simp [all], Nat.succ_ne_zero _⟩
  · cases h
    obtain ⟨hlow, hhigh⟩ := hsub 17 h3 rfl (by decide)
    exact ⟨hlow, hhigh, by simp [all], Nat.succ_ne_zero _⟩
  · cases h
    obtain ⟨hlow, hhigh⟩ := hsub 47 h4 rfl (by decide)
    exact ⟨hlow, hhigh, by simp [all], Nat.succ_ne_zero _⟩

/-- The controller numbers that the input channel port assigns to a parameter. -/
def IsInputController (ccNumber : UInt8) : Prop :=
  (1 ≤ ccNumber.toNat ∧ ccNumber.toNat ≤ 11) ∨ (13 ≤ ccNumber.toNat ∧ ccNumber.toNat ≤ 18)

/-- The controller numbers that the mix port assigns to a parameter. -/
def IsInputMixController (ccNumber : UInt8) : Prop :=
  (16 ≤ ccNumber.toNat ∧ ccNumber.toNat ≤ 31) ∨ (46 ≤ ccNumber.toNat ∧ ccNumber.toNat ≤ 61)

/-- The mix port: one of eight channels and a parameter, or channel 0 and `none`. -/
theorem inputMixChannels_target (ccNumber : UInt8) :
    (IsInputMixController ccNumber ∧ ∃ channel p,
        findTargetParameterForInputMixChannels ccNumber = (channel, p) ∧
          1 ≤ channel.toNat ∧ channel.toNat ≤ 8 ∧ p ∈ all ∧ p.id ≠ 0) ∨
      (¬ IsInputMixController ccNumber ∧
        findTargetParameterForInputMixChannels ccNumber = (0, none)) := by
  unfold findTargetParameterForInputMixChannels
  cases hlookup : inputMixChannels.lookup ccNumber with
  | some entry =>
      have hmem := mem_of_lookup hlookup
      have hkeys : ∀ e ∈ inputMixChannels.map fun e => (e.1.toNat, e.2.1.toNat, e.2.2.id),
          ((16 ≤ e.1 ∧ e.1 ≤ 31) ∨ (46 ≤ e.1 ∧ e.1 ≤ 61)) ∧
            1 ≤ e.2.1 ∧ e.2.1 ≤ 8 ∧ e.2.2 ≠ 0 := by
        decide
      have hall : ∀ e ∈ inputMixChannels, e.2.2 ∈ all := by
        simp [inputMixChannels, all]
      obtain ⟨hmix, hlow, hhigh, hid⟩ := hkeys _ (List.mem_map.mpr ⟨_, hmem, rfl⟩)
      exact Or.inl ⟨hmix, entry.1, entry.2, rfl, hlow, hhigh, hall _ hmem, hid⟩
  | none =>
      -- the table has an entry for every number of the two ranges
      refine Or.inr ⟨fun hmix => ?_, rfl⟩
      have hkeys : ∀ n ∈ List.range' 16 16 ++ List.range' 46 16,
          n ∈ (inputMixChannels.map Prod.fst).map UInt8.toNat := by
        decide
      have hrange : ccNumber.toNat ∈ List.range' 16 16 ++ List.range' 46 16 := by
        simp only [List.mem_append, List.mem_range'_1]
        unfold IsInputMixController at hmix
        omega
      obtain ⟨key, hkey, heq⟩ := List.mem_map.mp (hkeys _ hrange)
      obtain ⟨entry, hentry, rfl⟩ := List.mem_map.mp hkey
      simpa [UInt8.toNat_inj.mp heq] using List.lookup_eq_none_iff.mp hlookup entry hentry

/-- The input channel port: a parameter, or `none`. -/
theorem inputChannels_target (ccNumber : UInt8) :
    (IsInputController ccNumber ∧ findTargetParameterForInputChannels ccNumber ∈ all ∧
        (findTargetParameterForInputChannels ccNumber).id ≠ 0) ∨
      (¬ IsInputController ccNumber ∧ findTargetParameterForInputChannels ccNumber = none) := by
  unfold findTargetParameterForInputChannels
  cases hlookup : inputChannels.lookup ccNumber with
  | some entry =>
      have hmem := mem_of_lookup hlookup
      have hkeys : ∀ e ∈ inputChannels.map fun e => (e.1.toNat, e.2.id),
          (((1 ≤ e.1 ∧ e.1 ≤ 11) ∨ (13 ≤ e.1 ∧ e.1 ≤ 18)) ∧ e.2 ≠ 0) ∨
            (¬ ((1 ≤ e.1 ∧ e.1 ≤ 11) ∨ (13 ≤ e.1 ∧ e.1 ≤ 18)) ∧ e.2 = 0) := by
        decide
      have hall : ∀ e ∈ inputChannels, e.2 ∈ all := by
        simp [inputChannels, all]
      rcases hkeys _ (List.mem_map.mpr ⟨_, hmem, rfl⟩) with ⟨hinput, hid⟩ | ⟨hinput, hid⟩
      · exact Or.inl ⟨hinput, hall _ hmem, hid⟩
      · exact Or.inr ⟨hinput, eq_none_of_mem (hall _ hmem) hid⟩
  | none =>
      refine Or.inr ⟨fun hinput => ?_, rfl⟩
      have hkeys : ∀ n ∈ List.range' 1 18, n ∈ (inputChannels.map Prod.fst).map UInt8.toNat := by
        decide
      have hrange : ccNumber.toNat ∈ List.range' 1 18 := by
        rw [List.mem_range'_1]
        unfold IsInputController at hinput
        omega
      obtain ⟨key, hkey, heq⟩ := List.mem_map.mp (hkeys _ hrange)
      obtain ⟨entry, hentry, rfl⟩ := List.mem_map.mp hkey
      simpa [UInt8.toNat_inj.mp heq] using List.lookup_eq_none_iff.mp hlookup entry hentry

end Parameters
end Pmx
