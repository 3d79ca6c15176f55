import Pmx.Parameters

/-!
# OSC paths

`osc::parse_osc_path` and the two builders of `processing`.  A path reads
`/T/L/C/DDD/name`: channel type, layer, channel, short device name and name of
a parameter.  The parser tests the length once and then works with fixed
positions, so its result is `Except Fault` of the source's
`std::expected<osc_path, error>`: a fault is an exception or an access outside
of a string.

`parseOscPath_eq` restates the parser without its positions being checked one
by one, and `Outcome` names the ways through it; `parse_build_of_mem` is the
round trip with the builders.
-/

namespace Pmx.Osc

open Cxx

/-- `osc::channel_type`. -/
inductive ChannelType
  | input
  | group
  | layer
  | none
  deriving DecidableEq, Repr

/-- `osc::layer`. -/
inductive Layer
  | A
  | B
  deriving DecidableEq, Repr

/-- `osc::osc_path`: what an address decodes to. -/
structure OscPath where
  channelId : ℕ
  channelType : ChannelType
  layer : Layer
  parameter : Parameter

/-- `error::error_type`. -/
inductive ErrorType
  | notImplemented
  | invalidArgument
  | systemdCallMethod
  | pipewireError
  deriving DecidableEq, Repr

/-- `error::error`. -/
structure Error where
  message : Str
  type : ErrorType
  deriving DecidableEq, Repr

/-- The error that the parser returns. -/
def Error.invalidArgument (message : Str) : Error :=
  ⟨message, .invalidArgument⟩

/-! ## The parser -/

/-- The switch on `path[1]`. -/
def channelTypeOf (c : UInt8) : Option ChannelType :=
  if c = 'I'.toUInt8 then some .input
  else if c = 'G'.toUInt8 then some .group
  else if c = 'L'.toUInt8 then some .layer
  else none

/-- The test of `path[3]`. -/
def layerOf (c : UInt8) : Option Layer :=
  if c ≠ 'A'.toUInt8 ∧ c ≠ 'B'.toUInt8 then none
  else some (if c = 'A'.toUInt8 then .A else .B)

/-- The channel number from position 5, and the position behind its separator. -/
def parseChannel (path : Str) : Except Fault (Option (ℕ × ℕ)) := do
  let first ← charAt path 5
  let second ← charAt path 6
  if isDigit first && isDigit second then
    let channel ← substr path 5 2 >>= stoi
    return some (channel.toNat, 5 + 3)
  else if isDigit first then
    let channel ← substr path 5 1 >>= stoi
    return some (channel.toNat, 5 + 2)
  else
    return none

/-- The search in `parameters::all`. -/
def findParameter (deviceShortName parameterName : Str) : Option Parameter :=
  Parameters.all.find? fun p => p.deviceShortName = deviceShortName ∧ p.name = parameterName

/-- The device in three letters, a separator that is not looked at, and the name. -/
def parseParameter (path : Str) (consumed : ℕ) : Except Fault (Option Parameter) := do
  let deviceShortName ← substr path consumed 3
  let parameterName ← substrFrom path (consumed + 4)
  return findParameter deviceShortName parameterName

/-- `osc::parse_osc_path`.  The messages of an invalid channel type and of an
invalid layer add a `char` to a literal, which moves the pointer. -/
def parseOscPath (path : Str) : Except Fault (Except Error OscPath) :=
  if path.length < 7 then
    return .error (.invalidArgument (lit "osc path too short"))
  else do
    let typeChar ← charAt path 1
    match channelTypeOf typeChar with
    | none => do
        -- a character added to a literal moves its address
        let message ← literalPlus (lit "invalid channel type ") typeChar
        return .error (.invalidArgument message)
    | some channelType => do
        let layerChar ← charAt path 3
        match layerOf layerChar with
        | none => do
            let message ← literalPlus (lit "invalid layer ") layerChar
            return .error (.invalidArgument message)
        | some layer => do
            match ← parseChannel path with
            | none => return .error (.invalidArgument (lit "invalid channel"))
            | some (channel, consumed) => do
                match ← parseParameter path consumed with
                | none => return .error (.invalidArgument (lit "unknown parameter"))
                | some parameter => return .ok ⟨channel, channelType, layer, parameter⟩

/-! ## The builders -/

/-- The text of both builders, from the letter of the channel type on. -/
def buildChannelOscPath (channelType : Char) (channel : ℕ) (parameter : Parameter)
    (activeLayer : Str) : Str :=
  '/'.toUInt8 :: channelType.toUInt8 :: '/'.toUInt8 :: activeLayer ++ '/'.toUInt8 ::
    decimal channel ++ '/'.toUInt8 :: parameter.deviceShortName ++ '/'.toUInt8 :: parameter.name

/-- `processing::build_input_channel_osc_path`. -/
def buildInputChannelOscPath (channel : UInt8) (parameter : Parameter) (activeLayer : Str) :
    Str :=
  buildChannelOscPath 'I' channel.toNat parameter activeLayer

/-- `processing::build_group_channel_osc_path`. -/
def buildGroupChannelOscPath (groupId : UInt8) (parameter : Parameter) (activeLayer : Str) :
    Str :=
  buildChannelOscPath 'G' groupId.toNat parameter activeLayer

/-! ## The parser without its positions -/

/-- What `parseChannel` reads in a path of at least seven bytes. -/
def channelOf (path : Str) : Option (ℕ × ℕ) :=
  if isDigit (byteAt path 5) then
    if isDigit (byteAt path 6) then
      some (natOfDigits [byteAt path 5, byteAt path 6], 8)
    else some (natOfDigits [byteAt path 5], 7)
  else none

theorem natOfDigits_pair_le {c d : UInt8} (hc : isDigit c = true) (hd : isDigit d = true) :
    natOfDigits [c, d] ≤ 99 := by
  simp only [isDigit, Bool.and_eq_true, decide_eq_true_eq, UInt8.le_iff_toNat_le] at hc hd
  simp only [natOfDigits, List.foldl_cons, List.foldl_nil]
  have h57 : (57 : UInt8).toNat = 57 := rfl
  omega

theorem natOfDigits_single_le {c : UInt8} (hc : isDigit c = true) : natOfDigits [c] ≤ 9 := by
  simp only [isDigit, Bool.and_eq_true, decide_eq_true_eq, UInt8.le_iff_toNat_le] at hc
  simp only [natOfDigits, List.foldl_cons, List.foldl_nil]
  have h57 : (57 : UInt8).toNat = 57 := rfl
  omega

/-- The one or two digits from position 5 on. -/
theorem substr_digits {path : Str} (hlength : 7 ≤ path.length) :
    substr path 5 1 = .ok [byteAt path 5] ∧
      substr path 5 2 = .ok [byteAt path 5, byteAt path 6] := by
  obtain ⟨c0, c1, c2, c3, c4, c5, c6, rest, rfl⟩ :
      ∃ c0 c1 c2 c3 c4 c5 c6 rest, path = c0 :: c1 :: c2 :: c3 :: c4 :: c5 :: c6 :: rest := by
    match path, hlength with
    | c0 :: c1 :: c2 :: c3 :: c4 :: c5 :: c6 :: rest, _ =>
        exact ⟨c0, c1, c2, c3, c4, c5, c6, rest, rfl⟩
  simp [substr]

theorem parseChannel_eq {path : Str} (hlength : 7 ≤ path.length) :
    parseChannel path = .ok (channelOf path) := by
  obtain ⟨hone, htwo⟩ := substr_digits hlength
  unfold parseChannel channelOf
  rw [charAt_of_le (by omega), charAt_of_le (by omega), hone, htwo]
  by_cases h5 : isDigit (byteAt path 5) = true
  · by_cases h6 : isDigit (byteAt path 6) = true
    · have hstoi : stoi [byteAt path 5, byteAt path 6] =
          .ok (natOfDigits [byteAt path 5, byteAt path 6]) := by
        apply stoi_of_digits (List.cons_ne_nil _ _)
        · simp [h5, h6]
        · exact (natOfDigits_pair_le h5 h6).trans (by omega)
      simp [h5, h6, bind, Except.bind, pure, Except.pure, hstoi]
    · have hstoi : stoi [byteAt path 5] = .ok (natOfDigits [byteAt path 5]) := by
        apply stoi_of_digits (List.cons_ne_nil _ _)
        · simp [h5]
        · exact (natOfDigits_single_le h5).trans (by omega)
      simp [h5, h6, bind, Except.bind, pure, Except.pure, hstoi]
  · simp [h5, bind, Except.bind, pure, Except.pure]

theorem parseParameter_eq (path : Str) (consumed : ℕ) :
    parseParameter path consumed =
      if consumed + 4 ≤ path.length then
        .ok (findParameter ((path.drop consumed).take 3) (path.drop (consumed + 4)))
      else .error .outOfRange := by
  unfold parseParameter substr substrFrom
  by_cases hfits : consumed + 4 ≤ path.length
  · rw [if_neg (by omega), if_neg (by omega), if_pos hfits]
    rfl
  · rw [if_neg hfits]
    by_cases hshort : path.length < consumed
    · rw [if_pos hshort]
      rfl
    · rw [if_neg hshort, if_pos (by omega)]
      rfl

/-- The parser on a path of at least seven bytes, as one decision. -/
theorem parseOscPath_eq {path : Str} (hlength : 7 ≤ path.length) :
    parseOscPath path =
      match channelTypeOf (byteAt path 1) with
      | none => (literalPlus (lit "invalid channel type ") (byteAt path 1)).map fun message =>
          .error (.invalidArgument message)
      | some channelType =>
          match layerOf (byteAt path 3) with
          | none => (literalPlus (lit "invalid layer ") (byteAt path 3)).map fun message =>
              .error (.invalidArgument message)
          | some layer =>
              match channelOf path with
              | none => .ok (.error (.invalidArgument (lit "invalid channel")))
              | some (channel, consumed) =>
                  if consumed + 4 ≤ path.length then
                    match findParameter ((path.drop consumed).take 3)
                        (path.drop (consumed + 4)) with
                    | none => .ok (.error (.invalidArgument (lit "unknown parameter")))
                    | some parameter => .ok (.ok ⟨channel, channelType, layer, parameter⟩)
                  else .error .outOfRange := by
  unfold parseOscPath
  rw [if_neg (by omega), charAt_of_le (by omega), charAt_of_le (by omega),
    parseChannel_eq hlength]
  simp only [bind, Except.bind, pure, Except.pure, Except.map, parseParameter_eq]
  cases channelTypeOf (byteAt path 1) with
  | none => rfl
  | some channelType =>
      dsimp only
      cases layerOf (byteAt path 3) with
      | none => rfl
      | some layer =>
          dsimp only
          cases channelOf path with
          | none => rfl
          | some found =>
              obtain ⟨channel, consumed⟩ := found
              dsimp only
              split_ifs
              · cases findParameter ((path.drop consumed).take 3) (path.drop (consumed + 4)) with
                | none => rfl
                | some parameter => rfl
              · rfl

/-! ## Accepted paths -/

/-- Everything the parser has checked when it accepts a path. -/
structure Accepts (path : Str) (decoded : OscPath) (consumed : ℕ) : Prop where
  length : 7 ≤ path.length
  channelType : channelTypeOf (byteAt path 1) = some decoded.channelType
  layer : layerOf (byteAt path 3) = some decoded.layer
  channel : channelOf path = some (decoded.channelId, consumed)
  fits : consumed + 4 ≤ path.length
  parameter : findParameter ((path.drop consumed).take 3) (path.drop (consumed + 4)) =
    some decoded.parameter

/-- The ways through the parser, on a path of at least seven bytes. -/
inductive Outcome (path : Str) : Except Fault (Except Error OscPath) → Prop
  | invalidType (htype : channelTypeOf (byteAt path 1) = none) :
      Outcome path ((literalPlus (lit "invalid channel type ") (byteAt path 1)).map fun message =>
        .error (.invalidArgument message))
  | invalidLayer (htype : channelTypeOf (byteAt path 1) ≠ none)
      (hlayer : layerOf (byteAt path 3) = none) :
      Outcome path ((literalPlus (lit "invalid layer ") (byteAt path 3)).map fun message =>
        .error (.invalidArgument message))
  | invalidChannel (htype : channelTypeOf (byteAt path 1) ≠ none)
      (hlayer : layerOf (byteAt path 3) ≠ none) (hchannel : channelOf path = none) :
      Outcome path (.ok (.error (.invalidArgument (lit "invalid channel"))))
  | truncated {channel consumed : ℕ} (htype : channelTypeOf (byteAt path 1) ≠ none)
      (hlayer : layerOf (byteAt path 3) ≠ none)
      (hchannel : channelOf path = some (channel, consumed))
      (hshort : ¬ consumed + 4 ≤ path.length) : Outcome path (.error .outOfRange)
  | unknownParameter {channel consumed : ℕ} (htype : channelTypeOf (byteAt path 1) ≠ none)
      (hlayer : layerOf (byteAt path 3) ≠ none)
      (hchannel : channelOf path = some (channel, consumed))
      (hfits : consumed + 4 ≤ path.length) :
      Outcome path (.ok (.error (.invalidArgument (lit "unknown parameter"))))
  | accepted {decoded : OscPath} {consumed : ℕ} (haccepts : Accepts path decoded consumed) :
      Outcome path (.ok (.ok decoded))

theorem outcome_of_length {path : Str} (hlength : 7 ≤ path.length) :
    Outcome path (parseOscPath path) := by
  rw [parseOscPath_eq hlength]
  cases htype : channelTypeOf (byteAt path 1) with
  | none => exact .invalidType htype
  | some channelType =>
      have hsome : channelTypeOf (byteAt path 1) ≠ none := by simp [htype]
      cases hlayer : layerOf (byteAt path 3) with
      | none => exact .invalidLayer hsome hlayer
      | some layer =>
          have hsomeLayer : layerOf (byteAt path 3) ≠ none := by simp [hlayer]
          cases hchannel : channelOf path with
          | none => exact .invalidChannel hsome hsomeLayer hchannel
          | some found =>
              obtain ⟨channel, consumed⟩ := found
              dsimp only
              split_ifs with hfits
              · cases hparameter : findParameter ((path.drop consumed).take 3)
                    (path.drop (consumed + 4)) with
                | none => exact .unknownParameter hsome hsomeLayer hchannel hfits
                | some parameter =>
                    exact .accepted ⟨hlength, htype, hlayer, hchannel, hfits, hparameter⟩
              · exact .truncated hsome hsomeLayer hchannel hfits

theorem accepts_of_parse {path : Str} {decoded : OscPath}
    (h : parseOscPath path = .ok (.ok decoded)) : ∃ consumed, Accepts path decoded consumed := by
  by_cases hlength : path.length < 7
  · rw [parseOscPath, if_pos hlength] at h
    cases h
  have houtcome := outcome_of_length (not_lt.mp hlength)
  generalize parseOscPath path = result at h houtcome
  cases houtcome with
  | invalidType htype =>
      obtain ⟨_, _, hmessage⟩ := map_eq_ok.mp h
      cases hmessage
  | invalidLayer htype hlayer =>
      obtain ⟨_, _, hmessage⟩ := map_eq_ok.mp h
      cases hmessage
  | invalidChannel htype hlayer hchannel => cases h
  | truncated htype hlayer hchannel hshort => cases h
  | unknownParameter htype hlayer hchannel hfits => cases h
  | accepted haccepts =>
      cases h
      exact ⟨_, haccepts⟩

theorem parse_of_accepts {path : Str} {decoded : OscPath} {consumed : ℕ}
    (h : Accepts path decoded consumed) : parseOscPath path = .ok (.ok decoded) := by
  rw [parseOscPath_eq h.length, h.channelType, h.layer, h.channel]
  simp only [if_pos h.fits, h.parameter]

theorem parse_eq_ok_iff {path : Str} {decoded : OscPath} :
    parseOscPath path = .ok (.ok decoded) ↔ ∃ consumed, Accepts path decoded consumed := by
  constructor
  · exact accepts_of_parse
  · rintro ⟨_, haccepts⟩
    exact parse_of_accepts haccepts

theorem channelOf_le {path : Str} {channel consumed : ℕ}
    (h : channelOf path = some (channel, consumed)) :
    channel ≤ 99 ∧ (consumed = 7 ∨ consumed = 8) := by
  unfold channelOf at h
  split_ifs at h with h5 h6
  · cases h
    exact ⟨natOfDigits_pair_le h5 h6, Or.inr rfl⟩
  · cases h
    exact ⟨(natOfDigits_single_le h5).trans (by omega), Or.inl rfl⟩

theorem mem_of_findParameter {device name : Str} {p : Parameter}
    (h : findParameter device name = some p) :
    p ∈ Parameters.all ∧ p.deviceShortName = device ∧ p.name = name := by
  refine ⟨List.mem_of_find?_eq_some h, ?_⟩
  simpa using List.find?_some h

/-- An accepted path never decodes to the parameter `none`: three bytes are
read for a device name of two. -/
theorem Accepts.parameter_mem {path : Str} {decoded : OscPath} {consumed : ℕ}
    (h : Accepts path decoded consumed) :
    decoded.parameter ∈ Parameters.all ∧ decoded.parameter.id ≠ 0 := by
  obtain ⟨hmem, hdevice, _⟩ := mem_of_findParameter h.parameter
  refine ⟨hmem, fun hid => ?_⟩
  rw [Parameters.eq_none_of_mem hmem hid] at hdevice
  have hthree : ((path.drop consumed).take 3).length = 3 := by
    have := h.fits
    simp only [List.length_take, List.length_drop]
    omega
  -- the short name of `none` has two bytes
  rw [← hdevice] at hthree
  exact absurd hthree (by decide)

theorem Accepts.channel_le {path : Str} {decoded : OscPath} {consumed : ℕ}
    (h : Accepts path decoded consumed) : decoded.channelId ≤ 99 :=
  (channelOf_le h.channel).1

/-! ## Round trip -/

/-- The letter of a layer. -/
def Layer.text : Layer → Str
  | .A => lit "A"
  | .B => lit "B"

/-- What a built path decodes to: the channel is read back, and the parameter is
searched by the first three bytes of the rest and by what follows the fourth. -/
theorem parse_buildChannelOscPath {letter : Char} {channelType : ChannelType}
    (hletter : channelTypeOf letter.toUInt8 = some channelType) (layer : Layer) {channel : ℕ}
    (hchannel : channel ≤ 99) (parameter : Parameter)
    (hrest : 4 ≤ (parameter.deviceShortName ++ '/'.toUInt8 :: parameter.name).length) :
    parseOscPath (buildChannelOscPath letter channel parameter layer.text) =
      match findParameter
          ((parameter.deviceShortName ++ '/'.toUInt8 :: parameter.name).take 3)
          ((parameter.deviceShortName ++ '/'.toUInt8 :: parameter.name).drop 4) with
      | none => .ok (.error (.invalidArgument (lit "unknown parameter")))
      | some found => .ok (.ok ⟨channel, channelType, layer, found⟩) := by
  set rest := parameter.deviceShortName ++ '/'.toUInt8 :: parameter.name with hrestDef
  obtain ⟨layerChar, htext, hlayer⟩ :
      ∃ c, layer.text = [c] ∧ layerOf c = some layer := by
    cases layer
    · exact ⟨'A'.toUInt8, rfl, by decide⟩
    · exact ⟨'B'.toUInt8, rfl, by decide⟩
  have hslash : isDigit '/'.toUInt8 = false := by decide
  rcases Nat.lt_or_ge channel 10 with hlt | hge
  · -- one digit: the separator is at position six
    have hpath : buildChannelOscPath letter channel parameter layer.text =
        '/'.toUInt8 :: letter.toUInt8 :: '/'.toUInt8 :: layerChar :: '/'.toUInt8 ::
          channel.digitChar.toUInt8 :: '/'.toUInt8 :: rest := by
      simp [buildChannelOscPath, htext, decimal_of_lt hlt, hrestDef]
    have hnumber : channelOf (buildChannelOscPath letter channel parameter layer.text) =
        some (channel, 7) := by
      have hvalue : natOfDigits [channel.digitChar.toUInt8] = channel := by
        rw [← decimal_of_lt hlt, natOfDigits_decimal]
      rw [hpath]
      simp [channelOf, isDigit_digitChar hlt, hslash, hvalue]
    rw [parseOscPath_eq (by rw [hpath]; simp), hnumber, hpath]
    simp [hletter, hlayer, hrest]
  · -- two digits: it is at position seven
    have hten : channel / 10 < 10 := by omega
    have hunit : channel % 10 < 10 := by omega
    have hdecimal : decimal channel =
        [(channel / 10).digitChar.toUInt8, (channel % 10).digitChar.toUInt8] := by
      rw [decimal_of_le hge, decimal_of_lt hten]
      rfl
    have hpath : buildChannelOscPath letter channel parameter layer.text =
        '/'.toUInt8 :: letter.toUInt8 :: '/'.toUInt8 :: layerChar :: '/'.toUInt8 ::
          (channel / 10).digitChar.toUInt8 :: (channel % 10).digitChar.toUInt8 ::
          '/'.toUInt8 :: rest := by
      simp [buildChannelOscPath, htext, hdecimal, hrestDef]
    have hnumber : channelOf (buildChannelOscPath letter channel parameter layer.text) =
        some (channel, 8) := by
      have hvalue : natOfDigits
          [(channel / 10).digitChar.toUInt8, (channel % 10).digitChar.toUInt8] = channel := by
        rw [← hdecimal, natOfDigits_decimal]
      rw [hpath]
      simp [channelOf, isDigit_digitChar hten, isDigit_digitChar hunit, hvalue]
    rw [parseOscPath_eq (by rw [hpath]; simp), hnumber, hpath]
    simp [hletter, hlayer, hrest]

/-- A path built for an entry of the table decodes to what it was built from. -/
theorem parse_build_of_mem {letter : Char} {channelType : ChannelType}
    (hletter : channelTypeOf letter.toUInt8 = some channelType) (layer : Layer) {channel : ℕ}
    (hchannel : channel ≤ 99) {parameter : Parameter} (hmem : parameter ∈ Parameters.all)
    (hid : parameter.id ≠ 0) :
    parseOscPath (buildChannelOscPath letter channel parameter layer.text) =
      .ok (.ok ⟨channel, channelType, layer, parameter⟩) := by
  have hthree : parameter.deviceShortName.length = 3 := by
    rcases Parameters.device_of_mem hmem hid with ⟨_, h⟩ | ⟨_, h⟩ | ⟨_, h⟩ <;> rw [h] <;> decide
  -- so the three bytes are the short name, and the fourth is the separator
  have hfour : ('/'.toUInt8 :: parameter.name) = ['/'.toUInt8] ++ parameter.name := rfl
  have hfind : findParameter
      ((parameter.deviceShortName ++ '/'.toUInt8 :: parameter.name).take 3)
      ((parameter.deviceShortName ++ '/'.toUInt8 :: parameter.name).drop 4) =
        some parameter := by
    rw [List.take_left' hthree, hfour, ← List.append_assoc,
      List.drop_left' (by simp [hthree])]
    exact Parameters.find?_names hmem
  have hrest : 4 ≤ (parameter.deviceShortName ++ '/'.toUInt8 :: parameter.name).length := by
    rw [List.length_append, hthree, List.length_cons]
    omega
  rw [parse_buildChannelOscPath hletter layer hchannel parameter hrest, hfind]

/-- A path built for the parameter `none` is rejected. -/
theorem parse_build_none {letter : Char} {channelType : ChannelType}
    (hletter : channelTypeOf letter.toUInt8 = some channelType) (layer : Layer) {channel : ℕ}
    (hchannel : channel ≤ 99) :
    parseOscPath (buildChannelOscPath letter channel Parameters.none layer.text) =
      .ok (.error (.invalidArgument (lit "unknown parameter"))) := by
  have hfind : (findParameter
      ((Parameters.none.deviceShortName ++ '/'.toUInt8 :: Parameters.none.name).take 3)
      ((Parameters.none.deviceShortName ++ '/'.toUInt8 :: Parameters.none.name).drop 4)).isNone =
        true := by
    decide
  rw [parse_buildChannelOscPath hletter layer hchannel _ (by decide),
    Option.isNone_iff_eq_none.mp hfind]

end Pmx.Osc
