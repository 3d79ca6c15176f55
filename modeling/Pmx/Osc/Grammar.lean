import Pmx.Osc.Path

/-!
# The grammar of OSC paths

The parser looks at fixed positions of a path and never at its separators.
What it accepts is therefore `s T s L s C s D s N`, where each `s` is any byte:
`Separators` holds these five bytes, `Parts` the five parts between them, and
`Parts.Denotes` says which path a choice of parts stands for.  One byte is not
free: behind a single digit a second one would belong to the channel.

`parse_eq_ok_iff_denotes` is the grammar in both directions.  The builders write
`/` for every separator, so that they give an accepted path back up to its
separators.
-/

namespace Pmx.Osc

open Cxx

/-- The bytes in front of the five parts of a path. -/
structure Separators where
  beforeType : UInt8
  beforeLayer : UInt8
  beforeChannel : UInt8
  beforeDevice : UInt8
  beforeName : UInt8
  deriving DecidableEq, Repr

/-- The separators that the builders write. -/
def slashes : Separators :=
  ⟨'/'.toUInt8, '/'.toUInt8, '/'.toUInt8, '/'.toUInt8, '/'.toUInt8⟩

/-- The five parts of a path. -/
structure Parts where
  typeLetter : UInt8
  layerLetter : UInt8
  digits : Str
  device : Str
  name : Str

/-- The path made of the parts and the separators in front of them. -/
def Parts.text (parts : Parts) (separators : Separators) : Str :=
  separators.beforeType :: parts.typeLetter :: separators.beforeLayer :: parts.layerLetter ::
    separators.beforeChannel :: (parts.digits ++ separators.beforeDevice ::
      (parts.device ++ separators.beforeName :: parts.name))

def typeLetters : List (UInt8 × ChannelType) :=
  [('I'.toUInt8, .input), ('G'.toUInt8, .group), ('L'.toUInt8, .layer)]

def layerLetters : List (UInt8 × Layer) :=
  [('A'.toUInt8, .A), ('B'.toUInt8, .B)]

/-- The parts are the letters, one or two digits and the names of an entry of
the table other than `none`, and `decoded` is what they name. -/
structure Parts.Denotes (parts : Parts) (decoded : OscPath) : Prop where
  channelType : (parts.typeLetter, decoded.channelType) ∈ typeLetters
  layer : (parts.layerLetter, decoded.layer) ∈ layerLetters
  length : parts.digits.length = 1 ∨ parts.digits.length = 2
  digits : ∀ c ∈ parts.digits, isDigit c = true
  channel : decoded.channelId = natOfDigits parts.digits
  parameter : decoded.parameter ∈ Parameters.all ∧ decoded.parameter.id ≠ 0
  device : parts.device = decoded.parameter.deviceShortName
  name : parts.name = decoded.parameter.name

/-- The byte behind a single digit is not a digit. -/
def Parts.Delimited (parts : Parts) (separators : Separators) : Prop :=
  parts.digits.length = 1 → isDigit separators.beforeDevice = false

/-- Of two digits the first one is not a zero. -/
def Parts.NoLeadingZero (parts : Parts) : Prop :=
  parts.digits.length = 2 → parts.digits.head? ≠ some '0'.toUInt8

/-! ## The letters -/

theorem channelTypeOf_eq_some_iff {c : UInt8} {channelType : ChannelType} :
    channelTypeOf c = some channelType ↔ (c, channelType) ∈ typeLetters := by
  unfold channelTypeOf typeLetters
  split_ifs with hI hG hL
  · subst hI
    cases channelType <;> decide
  · subst hG
    cases channelType <;> decide
  · subst hL
    cases channelType <;> decide
  · simp [hI, hG, hL]

theorem layerOf_eq_some_iff {c : UInt8} {layer : Layer} :
    layerOf c = some layer ↔ (c, layer) ∈ layerLetters := by
  unfold layerOf layerLetters
  by_cases hA : c = 'A'.toUInt8
  · subst hA
    cases layer <;> decide
  by_cases hB : c = 'B'.toUInt8
  · subst hB
    cases layer <;> decide
  simp [hA, hB]

theorem layer_text_of_mem {c : UInt8} {layer : Layer} (h : (c, layer) ∈ layerLetters) :
    layer.text = [c] := by
  simp only [layerLetters, List.mem_cons, Prod.mk.injEq, List.not_mem_nil, or_false] at h
  rcases h with ⟨rfl, rfl⟩ | ⟨rfl, rfl⟩
  · rfl
  · rfl

/-! ## From a path to its parts -/

theorem deviceShortName_length {p : Parameter} (hmem : p ∈ Parameters.all) (hid : p.id ≠ 0) :
    p.deviceShortName.length = 3 := by
  rcases Parameters.device_of_mem hmem hid with ⟨_, h⟩ | ⟨_, h⟩ | ⟨_, h⟩ <;> rw [h] <;> decide

/-- The rest of a path is its device name, a separator and its parameter name. -/
theorem rest_eq {path : Str} {consumed : ℕ} (hfits : consumed + 4 ≤ path.length) :
    ∃ separator, path.drop consumed =
      (path.drop consumed).take 3 ++ separator :: path.drop (consumed + 4) := by
  have hthree : consumed + 3 < path.length := by omega
  refine ⟨path.get ⟨consumed + 3, hthree⟩, ?_⟩
  have hdrop : path.drop (consumed + 3) =
      path.get ⟨consumed + 3, hthree⟩ :: path.drop (consumed + 3 + 1) :=
    List.drop_eq_getElem_cons hthree
  calc path.drop consumed
      = (path.drop consumed).take 3 ++ (path.drop consumed).drop 3 :=
        (List.take_append_drop 3 _).symm
    _ = (path.drop consumed).take 3 ++ path.drop (consumed + 3) := by rw [List.drop_drop]
    _ = _ := by rw [hdrop]

theorem exists_seven {path : Str} (hlength : 7 ≤ path.length) :
    ∃ c0 c1 c2 c3 c4 c5 c6 rest, path = c0 :: c1 :: c2 :: c3 :: c4 :: c5 :: c6 :: rest := by
  match path, hlength with
  | c0 :: c1 :: c2 :: c3 :: c4 :: c5 :: c6 :: rest, _ =>
      exact ⟨c0, c1, c2, c3, c4, c5, c6, rest, rfl⟩

/-- The digits that `channelOf` reads, and the separator behind them. -/
theorem digits_of_channelOf {path : Str} {channel consumed : ℕ} (hlength : 7 ≤ path.length)
    (hconsumed : consumed ≤ path.length) (h : channelOf path = some (channel, consumed)) :
    ∃ c0 c1 c2 c3 c4 digits separator,
      path = c0 :: c1 :: c2 :: c3 :: c4 :: (digits ++ separator :: path.drop consumed) ∧
        (digits.length = 1 ∨ digits.length = 2) ∧ (∀ c ∈ digits, isDigit c = true) ∧
        (digits.length = 1 → isDigit separator = false) ∧ channel = natOfDigits digits := by
  obtain ⟨c0, c1, c2, c3, c4, c5, c6, rest, rfl⟩ := exists_seven hlength
  have h5 : byteAt (c0 :: c1 :: c2 :: c3 :: c4 :: c5 :: c6 :: rest) 5 = c5 := rfl
  have h6 : byteAt (c0 :: c1 :: c2 :: c3 :: c4 :: c5 :: c6 :: rest) 6 = c6 := rfl
  rw [channelOf, h5, h6] at h
  split_ifs at h with hfirst hsecond
  · -- two digits: the separator is at position seven
    cases h
    obtain ⟨c7, rest, rfl⟩ : ∃ c7 tail, rest = c7 :: tail :=
      List.exists_cons_of_length_pos (by simpa [Nat.succ_le_iff] using hconsumed)
    exact ⟨c0, c1, c2, c3, c4, [c5, c6], c7, rfl, Or.inr rfl, by simp [hfirst, hsecond],
      by simp, rfl⟩
  · cases h
    exact ⟨c0, c1, c2, c3, c4, [c5], c6, rfl, Or.inl rfl, by simp [hfirst],
      fun _ => by simpa using hsecond, rfl⟩

theorem denotes_of_accepts {path : Str} {decoded : OscPath} {consumed : ℕ}
    (h : Accepts path decoded consumed) :
    ∃ parts separators, path = Parts.text parts separators ∧ parts.Denotes decoded ∧
      parts.Delimited separators := by
  obtain ⟨hmem, hdevice, hname⟩ := mem_of_findParameter h.parameter
  have hfits := h.fits
  obtain ⟨c0, c1, c2, c3, c4, digits, beforeDevice, hpath, hdigitsLength, hdigits, hdelimited,
    hchannel⟩ := digits_of_channelOf h.length (by omega) h.channel
  obtain ⟨beforeName, hrest⟩ := rest_eq h.fits
  have htype := h.channelType
  have hlayer := h.layer
  rw [hpath] at htype hlayer
  refine ⟨⟨c1, c3, digits, decoded.parameter.deviceShortName, decoded.parameter.name⟩,
    ⟨c0, c2, c4, beforeDevice, beforeName⟩, ?_, ?_, hdelimited⟩
  · rw [Parts.text, hdevice, hname, ← hrest]
    exact hpath
  · exact ⟨channelTypeOf_eq_some_iff.mp htype, layerOf_eq_some_iff.mp hlayer, hdigitsLength,
      hdigits, hchannel, h.parameter_mem, rfl, rfl⟩

/-! ## From the parts to the path -/

theorem channelOf_text {parts : Parts} {separators : Separators} {decoded : OscPath}
    (h : parts.Denotes decoded) (hdelimited : parts.Delimited separators) :
    channelOf (parts.text separators) =
      some (decoded.channelId, 6 + parts.digits.length) := by
  have hdigits := h.digits
  rw [h.channel]
  rcases h.length with hone | htwo
  · obtain ⟨c, hc⟩ := List.length_eq_one_iff.mp hone
    have hsep := hdelimited hone
    rw [hc] at hdigits
    simp [channelOf, Parts.text, hc, hdigits, hsep]
  · obtain ⟨c, d, hcd⟩ := List.length_eq_two.mp htwo
    rw [hcd] at hdigits
    simp [channelOf, Parts.text, hcd, hdigits]

theorem drop_text (parts : Parts) (separators : Separators) :
    (parts.text separators).drop (6 + parts.digits.length) =
      parts.device ++ separators.beforeName :: parts.name := by
  have hsplit : parts.text separators =
      (separators.beforeType :: parts.typeLetter :: separators.beforeLayer ::
        parts.layerLetter :: separators.beforeChannel ::
          (parts.digits ++ [separators.beforeDevice])) ++
        (parts.device ++ separators.beforeName :: parts.name) := by
    simp [Parts.text]
  rw [hsplit]
  exact List.drop_left' (by simp; omega)

theorem accepts_of_denotes {parts : Parts} {separators : Separators} {decoded : OscPath}
    (h : parts.Denotes decoded) (hdelimited : parts.Delimited separators) :
    Accepts (parts.text separators) decoded (6 + parts.digits.length) := by
  have hthree : parts.device.length = 3 := by
    rw [h.device]
    exact deviceShortName_length h.parameter.1 h.parameter.2
  have hlength : (parts.text separators).length =
      6 + parts.digits.length + (4 + parts.name.length) := by
    simp [Parts.text, hthree]
    omega
  have hdigits := h.length
  have hdrop := drop_text parts separators
  have hdropFour : (parts.text separators).drop (6 + parts.digits.length + 4) = parts.name := by
    rw [← List.drop_drop, hdrop, ← List.singleton_append, ← List.append_assoc]
    exact List.drop_left' (by simp [hthree])
  refine ⟨by omega, channelTypeOf_eq_some_iff.mpr h.channelType,
    layerOf_eq_some_iff.mpr h.layer, channelOf_text h hdelimited, by omega, ?_⟩
  rw [hdropFour, hdrop, List.take_left' hthree, h.device, h.name]
  exact Parameters.find?_names h.parameter.1

/-! ## The grammar -/

theorem parse_eq_ok_iff_exists {path : Str} {decoded : OscPath} :
    parseOscPath path = .ok (.ok decoded) ↔
      ∃ parts separators, path = Parts.text parts separators ∧ parts.Denotes decoded ∧
        parts.Delimited separators := by
  rw [parse_eq_ok_iff]
  constructor
  · rintro ⟨_, haccepts⟩
    exact denotes_of_accepts haccepts
  · rintro ⟨parts, separators, rfl, hdenotes, hdelimited⟩
    exact ⟨_, accepts_of_denotes hdenotes hdelimited⟩

theorem toNat_of_isDigit {c : UInt8} (hc : isDigit c = true) :
    48 ≤ c.toNat ∧ c.toNat - 48 < 10 := by
  simp only [isDigit, Bool.and_eq_true, decide_eq_true_eq, UInt8.le_iff_toNat_le] at hc
  have h48 : (48 : UInt8).toNat = 48 := rfl
  have h57 : (57 : UInt8).toNat = 57 := rfl
  omega

theorem digitChar_of_isDigit {c : UInt8} (hc : isDigit c = true) :
    (c.toNat - 48).digitChar.toUInt8 = c := by
  obtain ⟨hge, hlt⟩ := toNat_of_isDigit hc
  apply UInt8.toNat_inj.mp
  have hback := toNat_digitChar hlt
  have hge' := (toNat_of_isDigit (isDigit_digitChar hlt)).1
  omega

/-- Digits without a leading zero are those of their number. -/
theorem decimal_natOfDigits {parts : Parts} {decoded : OscPath} (h : parts.Denotes decoded)
    (hzero : parts.NoLeadingZero) : decimal (natOfDigits parts.digits) = parts.digits := by
  have hdigits := h.digits
  rcases h.length with hone | htwo
  · obtain ⟨c, hc⟩ := List.length_eq_one_iff.mp hone
    have hcDigit : isDigit c = true := hdigits c (by simp [hc])
    have hvalue : natOfDigits [c] = c.toNat - 48 := by simp [natOfDigits]
    rw [hc, hvalue, decimal_of_lt (toNat_of_isDigit hcDigit).2, digitChar_of_isDigit hcDigit]
  · obtain ⟨c, d, hcd⟩ := List.length_eq_two.mp htwo
    have hcDigit : isDigit c = true := hdigits c (by simp [hcd])
    have hdDigit : isDigit d = true := hdigits d (by simp [hcd])
    obtain ⟨hcge, hclt⟩ := toNat_of_isDigit hcDigit
    obtain ⟨_, hdlt⟩ := toNat_of_isDigit hdDigit
    have hfirst : c.toNat ≠ 48 := by
      intro hc
      have hnot := hzero htwo
      rw [hcd] at hnot
      exact hnot (congrArg some (UInt8.toNat_inj.mp hc))
    have hvalue : natOfDigits [c, d] = 10 * (c.toNat - 48) + (d.toNat - 48) := by
      simp [natOfDigits]
    have hquotient : (10 * (c.toNat - 48) + (d.toNat - 48)) / 10 = c.toNat - 48 := by omega
    have hremainder : (10 * (c.toNat - 48) + (d.toNat - 48)) % 10 = d.toNat - 48 := by omega
    rw [hcd, hvalue, decimal_of_le (by omega), hquotient, hremainder, decimal_of_lt hclt,
      digitChar_of_isDigit hcDigit, digitChar_of_isDigit hdDigit]
    rfl

/-- What the builders write for the parts of a path. -/
theorem buildChannelOscPath_eq_text {parts : Parts} {decoded : OscPath}
    (h : parts.Denotes decoded) (hzero : parts.NoLeadingZero) {letter : Char}
    (hletter : letter.toUInt8 = parts.typeLetter) :
    buildChannelOscPath letter decoded.channelId decoded.parameter decoded.layer.text =
      parts.text slashes := by
  have hdigits : decimal decoded.channelId = parts.digits := by
    rw [h.channel]
    exact decimal_natOfDigits h hzero
  rw [buildChannelOscPath, hletter, layer_text_of_mem h.layer, hdigits, ← h.device, ← h.name]
  simp [Parts.text, slashes]

theorem Parts.Denotes.typeLetter_of_input {parts : Parts} {decoded : OscPath}
    (h : parts.Denotes decoded) (htype : decoded.channelType = .input) :
    'I'.toUInt8 = parts.typeLetter := by
  have hletter := h.channelType
  rw [htype] at hletter
  simpa [typeLetters, eq_comm] using hletter

theorem Parts.Denotes.typeLetter_of_group {parts : Parts} {decoded : OscPath}
    (h : parts.Denotes decoded) (htype : decoded.channelType = .group) :
    'G'.toUInt8 = parts.typeLetter := by
  have hletter := h.channelType
  rw [htype] at hletter
  simpa [typeLetters, eq_comm] using hletter

theorem Parts.Denotes.channel_toNat {parts : Parts} {decoded : OscPath}
    (h : parts.Denotes decoded) : (UInt8.ofNat decoded.channelId).toNat = decoded.channelId := by
  have hdelimited : parts.Delimited slashes := fun _ => by decide
  have hle := (accepts_of_denotes h hdelimited).channel_le
  rw [UInt8.toNat_ofNat']
  omega

/-- **The grammar of the parser.**  A path is accepted exactly when it is made of
parts that name its result, whatever its separators are, and the builders give
the path of these parts between slashes back. -/
theorem parse_eq_ok_iff_denotes (path : Str) (decoded : OscPath) :
    (parseOscPath path = .ok (.ok decoded) ↔
      ∃ parts separators, path = Parts.text parts separators ∧ parts.Denotes decoded ∧
        parts.Delimited separators) ∧
      ∀ parts separators, path = Parts.text parts separators → parts.Denotes decoded →
        parts.NoLeadingZero →
          (decoded.channelType = .input →
            buildInputChannelOscPath (UInt8.ofNat decoded.channelId) decoded.parameter
              decoded.layer.text = parts.text slashes) ∧
          (decoded.channelType = .group →
            buildGroupChannelOscPath (UInt8.ofNat decoded.channelId) decoded.parameter
              decoded.layer.text = parts.text slashes) := by
  refine ⟨parse_eq_ok_iff_exists, fun parts _ _ hdenotes hzero => ⟨fun htype => ?_,
    fun htype => ?_⟩⟩
  · rw [buildInputChannelOscPath, hdenotes.channel_toNat]
    exact buildChannelOscPath_eq_text hdenotes hzero (hdenotes.typeLetter_of_input htype)
  · rw [buildGroupChannelOscPath, hdenotes.channel_toNat]
    exact buildChannelOscPath_eq_text hdenotes hzero (hdenotes.typeLetter_of_group htype)

/-- The path `/G/B/12/SAT/drive` is accepted and given back. -/
theorem parse_eq_ok_iff_denotes_group :
    parseOscPath (lit "/G/B/12/SAT/drive") =
        .ok (.ok ⟨12, .group, .B, Parameters.saturatorDrive⟩) ∧
      buildGroupChannelOscPath 12 Parameters.saturatorDrive Layer.B.text =
        lit "/G/B/12/SAT/drive" := by
  have hdenotes : Parts.Denotes ⟨'G'.toUInt8, 'B'.toUInt8, lit "12", lit "SAT", lit "drive"⟩
      ⟨12, .group, .B, Parameters.saturatorDrive⟩ :=
    ⟨by decide, by decide, Or.inr rfl, List.all_eq_true.mp rfl, by decide,
      ⟨by simp [Parameters.all], by decide⟩, rfl, rfl⟩
  obtain ⟨hparse, hbuild⟩ := parse_eq_ok_iff_denotes (lit "/G/B/12/SAT/drive")
    ⟨12, .group, .B, Parameters.saturatorDrive⟩
  exact ⟨hparse.mpr ⟨_, slashes, rfl, hdenotes, fun _ => by decide⟩,
    (hbuild _ slashes rfl hdenotes fun _ => by decide).2 rfl⟩

/-- A path without a single slash is accepted, and not given back. -/
theorem parse_without_slashes :
    parseOscPath (lit "xIxAx1xEQUxlow") =
        .ok (.ok ⟨1, .input, .A, Parameters.equalizerLow⟩) ∧
      (¬ ∃ decoded parts, lit "xIxAx1xEQUxlow" = Parts.text parts slashes ∧
        parts.Denotes decoded) ∧
      buildInputChannelOscPath 1 Parameters.equalizerLow Layer.A.text ≠
        lit "xIxAx1xEQUxlow" := by
  refine ⟨parse_eq_ok_iff_exists.mpr
    ⟨⟨'I'.toUInt8, 'A'.toUInt8, lit "1", lit "EQU", lit "low"⟩,
      ⟨'x'.toUInt8, 'x'.toUInt8, 'x'.toUInt8, 'x'.toUInt8, 'x'.toUInt8⟩, by decide,
      ⟨by decide, by decide, Or.inl rfl, List.all_eq_true.mp rfl, by decide, ⟨?_, by decide⟩, rfl,
        rfl⟩,
      fun _ => by decide⟩, ?_, by decide⟩
  · simp [Parameters.all]
  · rintro ⟨decoded, parts, htext, _⟩
    have hfirst : byteAt (lit "xIxAx1xEQUxlow") 0 = '/'.toUInt8 := by
      rw [htext]
      rfl
    exact absurd hfirst (by decide)

end Pmx.Osc
