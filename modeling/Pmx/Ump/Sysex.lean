import Pmx.Library.BigEndian
import Pmx.Ump

/-!
# System exclusive messages

A message of eight bytes starts with the byte 0x30.  The next one says what kind of
message it is and how many of the six others are data; what is left of them is
zero.

So a message can be read back (`decode_of_ok`), and a payload that is cut into
messages is the data of these (`create8ByteMessage_lossless`).
-/

namespace Pmx.Ump

open BigEndian Cxx Osc

/-- The upper half of the second byte. -/
def MessageType.number : MessageType → ℕ
  | .sysex7bitStart => 1
  | .sysex7bitContinue => 2
  | .sysex7bitEnd => 3

/-- The type with a number. -/
def typeOfNumber : ℕ → Option MessageType
  | 1 => some .sysex7bitStart
  | 2 => some .sysex7bitContinue
  | 3 => some .sysex7bitEnd
  | _ => none

/-- The type and the data that the bytes of a message say. -/
def decode (message : UmpMessage) : Option (MessageType × List UInt32) :=
  match message.flatMap bytes with
  | 48 :: second :: data =>
      (typeOfNumber (second / 16)).map fun type =>
        (type, (data.take (second % 16)).map UInt32.ofNat)
  | _ => none

/-- The bytes of a message with some data. -/
def messageBytes (type : MessageType) (data : List UInt32) : List ℕ :=
  48 :: (16 * type.number + data.length) ::
    (data.map UInt32.toNat ++ List.replicate (6 - data.length) 0)

/-- Data that fits into one message. -/
structure IsPiece (data : List UInt32) : Prop where
  sevenBit : ∀ byte ∈ data, byte < 128
  nonempty : 1 ≤ data.length
  fits : data.length ≤ 6

@[simp] theorem typeOfNumber_number (type : MessageType) :
    typeOfNumber type.number = some type := by
  cases type <;> rfl

theorem number_lt (type : MessageType) : type.number < 4 := by
  cases type <;> decide

/-- The error does not depend on what the bytes are. -/
theorem create8ByteMessage_error_iff (type : MessageType) (data : List UInt32) :
    (∃ error, create8ByteMessage type data = .error error) ↔
      data.length = 0 ∨ 6 < data.length := by
  unfold create8ByteMessage
  split_ifs with hlength
  · exact iff_of_true ⟨_, rfl⟩ hlength
  · exact iff_of_false (fun ⟨_, h⟩ => by cases h) hlength

/-! ## Bytes -/

/-- A slot behind the data is zero. -/
theorem map_dataByte (data : List UInt32) (hfits : data.length ≤ 6) :
    (List.range 6).map (fun i => (dataByte data i).toNat) =
      data.map UInt32.toNat ++ List.replicate (6 - data.length) 0 := by
  refine List.ext_getElem (by simp; omega) fun i hi _ => ?_
  rw [List.getElem_map, List.getElem_range, List.getElem_append, dataByte]
  split_ifs with hdata
  · rw [List.length_map] at hdata
    simp [hdata]
  · rw [List.length_map, not_lt] at hdata
    simp [List.getElem?_eq_none hdata]

theorem dataByte_lt {data : List UInt32} (hsevenBit : ∀ byte ∈ data, byte < 128) (i : ℕ) :
    (dataByte data i).toNat < 256 := by
  rw [dataByte]
  rcases hbyte : data[i]? with _ | byte
  · decide
  · have hlt : byte.toNat < 128 :=
      UInt32.lt_iff_toNat_lt.mp (hsevenBit byte (List.mem_of_getElem? hbyte))
    exact hlt.trans (by decide)

/-- The status bits and the count do not overlap. -/
theorem toNat_second (type : MessageType) {count : ℕ} (hcount : count ≤ 6) :
    (type.status ||| count.toUInt32).toNat = 16 * type.number + count := by
  have hlow : count < 2 ^ 4 := by omega
  have hmod : count.toUInt32.toNat = count := Nat.mod_eq_of_lt (by omega)
  have hstatus : type.status.toNat = type.number <<< 4 := by cases type <;> rfl
  rw [UInt32.toNat_or, hmod, hstatus, or_eq_add 4 hlow]
  omega

/-- The words of a message as numbers of four bytes. -/
theorem create8ByteMessage_of_isPiece (type : MessageType) {data : List UInt32}
    (h : IsPiece data) :
    create8ByteMessage type data =
      .ok [word 48 (type.status ||| data.length.toUInt32) (dataByte data 0) (dataByte data 1),
        word (dataByte data 2) (dataByte data 3) (dataByte data 4) (dataByte data 5)] := by
  have hlength : ¬ (data.length = 0 ∨ 6 < data.length) := by
    have := h.nonempty
    have := h.fits
    omega
  rw [create8ByteMessage, if_neg hlength]
  rfl

theorem isPiece_of_ok {type : MessageType} {data : List UInt32} {message : UmpMessage}
    (hsevenBit : ∀ byte ∈ data, byte < 128)
    (h : create8ByteMessage type data = .ok message) : IsPiece data := by
  have hlength : ¬ (data.length = 0 ∨ 6 < data.length) := by
    rw [← create8ByteMessage_error_iff type, h]
    exact fun ⟨_, herror⟩ => by cases herror
  exact ⟨hsevenBit, by omega, by omega⟩

theorem bytes_of_ok {type : MessageType} {data : List UInt32} {message : UmpMessage}
    (hpiece : IsPiece data) (h : create8ByteMessage type data = .ok message) :
    message.length = 2 ∧ message.flatMap bytes = messageBytes type data := by
  rw [create8ByteMessage_of_isPiece type hpiece] at h
  cases h
  have hdata := dataByte_lt hpiece.sevenBit
  have hsecond := toNat_second type hpiece.fits
  have hsecondLt : (type.status ||| data.length.toUInt32).toNat < 256 := by
    have := number_lt type
    have := hpiece.fits
    omega
  refine ⟨rfl, ?_⟩
  rw [List.flatMap_cons, List.flatMap_singleton,
    bytes_word (by decide) hsecondLt (hdata 0) (hdata 1),
    bytes_word (hdata 2) (hdata 3) (hdata 4) (hdata 5), hsecond, messageBytes,
    ← map_dataByte data hpiece.fits]
  rfl

/-- A message is read back. -/
theorem decode_of_ok {type : MessageType} {data : List UInt32} {message : UmpMessage}
    (hpiece : IsPiece data) (h : create8ByteMessage type data = .ok message) :
    decode message = some (type, data) := by
  have hlt := hpiece.fits
  have htype : (16 * type.number + data.length) / 16 = type.number := by omega
  have hcount : (16 * type.number + data.length) % 16 = data.length := by omega
  have htake : (data.map UInt32.toNat ++ List.replicate (6 - data.length) 0).take data.length =
      data.map UInt32.toNat := List.take_left' (List.length_map _)
  have hdata : (data.map UInt32.toNat).map UInt32.ofNat = data := by
    simp [Function.comp_def]
  rw [decode, (bytes_of_ok hpiece h).2, messageBytes]
  simp only [htype, hcount, htake, hdata, typeOfNumber_number, Option.map_some]

/-! ## Payloads -/

/-- The messages for some pieces, and what they say. -/
theorem mapM_create8ByteMessage (pieces : List (MessageType × List UInt32))
    (h : ∀ piece ∈ pieces, IsPiece piece.2) :
    ∃ messages, pieces.mapM (fun piece => create8ByteMessage piece.1 piece.2) = .ok messages ∧
      messages.map decode = pieces.map some := by
  induction pieces with
  | nil => exact ⟨[], rfl, rfl⟩
  | cons piece rest ih =>
      have hpiece : IsPiece piece.2 := h piece (List.mem_cons_self ..)
      obtain ⟨messages, hmessages, hdecode⟩ :=
        ih fun piece hmem => h piece (List.mem_cons_of_mem _ hmem)
      obtain ⟨message, hcreate⟩ : ∃ message, create8ByteMessage piece.1 piece.2 = .ok message :=
        ⟨_, create8ByteMessage_of_isPiece piece.1 hpiece⟩
      refine ⟨message :: messages, ?_, ?_⟩
      · rw [List.mapM_cons, hcreate, hmessages]
        rfl
      · rw [List.map_cons, List.map_cons, hdecode, decode_of_ok hpiece hcreate]

/-- **There is an error just for no data or more than six bytes of it.  Otherwise the
bytes of the message say its type and data, so different ones have different messages
and the messages of a payload give it back.** -/
theorem create8ByteMessage_lossless :
    (∀ type data, (∀ byte ∈ data, byte < 128) →
      ((∃ error, create8ByteMessage type data = .error error) ↔
        data.length = 0 ∨ 6 < data.length) ∧
      ∀ message, create8ByteMessage type data = .ok message →
        message.length = 2 ∧ message.flatMap bytes = messageBytes type data ∧
          decode message = some (type, data)) ∧
    (∀ type data type' data' message, (∀ byte ∈ data, byte < 128) → (∀ byte ∈ data', byte < 128) →
      create8ByteMessage type data = .ok message → create8ByteMessage type' data' = .ok message →
      type = type' ∧ data = data') ∧
    ∀ payload (pieces : List (MessageType × List UInt32)), (∀ piece ∈ pieces, IsPiece piece.2) →
      (pieces.map Prod.snd).flatten = payload →
      ∃ messages, pieces.mapM (fun piece => create8ByteMessage piece.1 piece.2) = .ok messages ∧
        ((messages.filterMap decode).map Prod.snd).flatten = payload := by
  refine ⟨fun type data hsevenBit => ?_, ?_, ?_⟩
  · refine ⟨create8ByteMessage_error_iff type data, fun message h => ?_⟩
    have hpiece := isPiece_of_ok hsevenBit h
    exact ⟨(bytes_of_ok hpiece h).1, (bytes_of_ok hpiece h).2, decode_of_ok hpiece h⟩
  · intro type data type' data' message hsevenBit hsevenBit' h h'
    have hdecode := decode_of_ok (isPiece_of_ok hsevenBit h) h
    have hdecode' := decode_of_ok (isPiece_of_ok hsevenBit' h') h'
    rw [hdecode] at hdecode'
    exact Prod.ext_iff.mp (Option.some.inj hdecode')
  · rintro payload pieces hpieces rfl
    obtain ⟨messages, hmessages, hdecode⟩ := mapM_create8ByteMessage pieces hpieces
    refine ⟨messages, hmessages, ?_⟩
    have hpieces : messages.filterMap decode = pieces := by
      calc messages.filterMap decode = (messages.map decode).filterMap id := by
            rw [List.filterMap_map]
            rfl
        _ = pieces := by
            rw [hdecode, List.filterMap_map]
            exact List.filterMap_some
    rw [hpieces]

/-- What switches a Launchpad to the mixer mode, in two pieces. -/
def switchToMixerMode : List (MessageType × List UInt32) :=
  [(.sysex7bitStart, [0, 32, 41, 2, 13, 0]), (.sysex7bitEnd, [13])]

theorem create8ByteMessage_lossless_switchToMixerMode :
    ∃ messages, switchToMixerMode.mapM (fun piece => create8ByteMessage piece.1 piece.2) =
        .ok messages ∧
      ((messages.filterMap decode).map Prod.snd).flatten = [0, 32, 41, 2, 13, 0, 13] := by
  refine create8ByteMessage_lossless.2.2 [0, 32, 41, 2, 13, 0, 13] switchToMixerMode ?_ rfl
  intro piece hpiece
  have hmem : piece = (.sysex7bitStart, [0, 32, 41, 2, 13, 0]) ∨ piece = (.sysex7bitEnd, [13]) := by
    simpa [switchToMixerMode] using hpiece
  rcases hmem with rfl | rfl
  · exact ⟨by simp, by decide, by decide⟩
  · exact ⟨by simp, by decide, by decide⟩

end Pmx.Ump
