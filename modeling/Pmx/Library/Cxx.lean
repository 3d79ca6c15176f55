import Mathlib.Data.List.Basic
import Mathlib.Data.List.Sort
import Mathlib.Data.List.TakeWhile
import Mathlib.Tactic.IntervalCases
import Mathlib.Tactic.Linarith

/-!
# A fragment of the C++ standard library

Byte strings with the calls on them that can fail: checked positions,
`std::string::substr`, pointer arithmetic on a literal, `std::stoi` and
`std::to_string`.  Every call that raises an exception or leaves its object
returns a `Fault`, so that a program written over this fragment says on which
inputs it is undefined.

The two facts used everywhere else are that `stoi` inverts `decimal`
(`stoi_decimal`) and that `decimal` is injective (`decimal_injective`).
-/

namespace Cxx

/-- A `std::string`: its bytes, without the closing NUL. -/
abbrev Str := List UInt8

/-- What ends a call abnormally. -/
inductive Fault
  | outOfRange
  | invalidArgument
  | indexOutOfBounds
  | uncaught
  deriving DecidableEq, Repr

/-- The bytes of an ASCII literal. -/
def lit (text : String) : Str :=
  text.toList.map Char.toUInt8

/-- `s[i]`: the position past the last byte reads the closing NUL. -/
def charAt (s : Str) (i : ℕ) : Except Fault UInt8 :=
  if h : i < s.length then .ok s[i]
  else if i = s.length then .ok 0
  else .error .indexOutOfBounds

/-- The byte at a position, NUL behind the end. -/
def byteAt (s : Str) (i : ℕ) : UInt8 :=
  s[i]?.getD 0

/-- `s.substr(pos, count)`. -/
def substr (s : Str) (pos count : ℕ) : Except Fault Str :=
  if s.length < pos then .error .outOfRange else .ok ((s.drop pos).take count)

/-- `s.substr(pos)`. -/
def substrFrom (s : Str) (pos : ℕ) : Except Fault Str :=
  if s.length < pos then .error .outOfRange else .ok (s.drop pos)

/-- `"literal" + c`: pointer arithmetic, not concatenation.  The `char` is
signed, and the pointer may move up to the closing NUL of the literal. -/
def literalPlus (literal : Str) (c : UInt8) : Except Fault Str :=
  if 0 ≤ c.toInt8.toInt ∧ c.toInt8.toInt ≤ literal.length then
    .ok (literal.drop c.toInt8.toInt.toNat)
  else .error .indexOutOfBounds

/-- `s.starts_with(p)`. -/
def startsWith (s p : Str) : Bool :=
  p.isPrefixOf s

/-- `s.c_str()` read as a C string: everything before the first NUL. -/
def cStr (s : Str) : Str :=
  s.takeWhile (· ≠ 0)

/-! ## Numbers -/

def isSpace (c : UInt8) : Bool :=
  c = 32 || (9 ≤ c && c ≤ 13)

/-- `isdigit(c)`; a byte from 128 on, a negative `char`, is no digit. -/
def isDigit (c : UInt8) : Bool :=
  48 ≤ c && c ≤ 57

/-- The value of a string of decimal digits. -/
def natOfDigits (s : Str) : ℕ :=
  s.foldl (fun value c => 10 * value + (c.toNat - 48)) 0

/-- `std::strtol` in base ten: leading white space, an optional sign, then as
many digits as there are.  What follows the digits is ignored; without a digit
there is no number. -/
def strtol (s : Str) : Option ℤ :=
  let body := s.dropWhile isSpace
  let negative : Bool := body.head? = some '-'.toUInt8
  let signed : Bool := negative || body.head? = some '+'.toUInt8
  let digits := (if signed then body.tail else body).takeWhile isDigit
  if digits = [] then none
  else some (if negative then -(natOfDigits digits) else natOfDigits digits)

/-- `std::stoi`. -/
def stoi (s : Str) : Except Fault ℤ :=
  match strtol s with
  | none => .error .invalidArgument
  | some value =>
      if -2147483648 ≤ value ∧ value ≤ 2147483647 then .ok value else .error .outOfRange

/-- `std::to_string` and `std::format("{}", n)` of an unsigned number. -/
def decimal (n : ℕ) : Str :=
  (Nat.toDigits 10 n).map Char.toUInt8

/-- `std::set<int>::insert`; the set is the list of its elements in their order. -/
def setInsert (element : ℕ) (set : List ℕ) : List ℕ :=
  if element ∈ set then set else set.orderedInsert (· ≤ ·) element

/-- A sequence of two calls returns if both do. -/
theorem bind_eq_ok {α β : Type} {x : Except Fault α} {f : α → Except Fault β} {b : β} :
    (x >>= f) = .ok b ↔ ∃ a, x = .ok a ∧ f a = .ok b := by
  cases x <;> simp [bind, Except.bind]

theorem map_eq_ok {α β : Type} {x : Except Fault α} {f : α → β} {b : β} :
    x.map f = .ok b ↔ ∃ a, x = .ok a ∧ f a = b := by
  cases x <;> simp [Except.map]

/-! ### Positions and pieces -/

@[simp] theorem byteAt_cons_zero (c : UInt8) (s : Str) : byteAt (c :: s) 0 = c := rfl

@[simp] theorem byteAt_cons_succ (c : UInt8) (s : Str) (i : ℕ) :
    byteAt (c :: s) (i + 1) = byteAt s i := rfl

theorem charAt_of_le {s : Str} {i : ℕ} (hi : i ≤ s.length) : charAt s i = .ok (byteAt s i) := by
  unfold charAt byteAt
  by_cases hlt : i < s.length
  · rw [dif_pos hlt, List.getElem?_eq_getElem hlt]
    rfl
  · have heq : i = s.length := by omega
    rw [dif_neg hlt, if_pos heq, List.getElem?_eq_none (by omega)]
    rfl

theorem substrFrom_append (p s : Str) : substrFrom (p ++ s) p.length = .ok s := by
  simp [substrFrom]

theorem startsWith_iff {s p : Str} : startsWith s p = true ↔ ∃ rest, s = p ++ rest := by
  rw [startsWith, List.isPrefixOf_iff_prefix]
  exact ⟨fun ⟨rest, h⟩ => ⟨rest, h.symm⟩, fun ⟨rest, h⟩ => ⟨rest, h.symm⟩⟩

@[simp] theorem startsWith_append (p s : Str) : startsWith (p ++ s) p = true :=
  startsWith_iff.mpr ⟨s, rfl⟩

/-- The offsets a `char` may have on a literal of at most 127 bytes. -/
theorem literalPlus_offset {literal : Str} (hshort : literal.length < 128) (c : UInt8) :
    (0 ≤ c.toInt8.toInt ∧ c.toInt8.toInt ≤ literal.length) ↔ c.toNat ≤ literal.length := by
  have hc : c.toInt8.toInt = if 2 * c.toNat < 2 ^ 8 then (c.toNat : ℤ) else c.toNat - (2 ^ 8 : ℕ) :=
    BitVec.toInt_eq_toNat_cond c.toBitVec
  rw [hc]
  have := c.toNat_lt
  split <;> omega

/-- What the pointer arithmetic on a literal leaves is a piece of the literal. -/
theorem mem_of_literalPlus {literal message : Str} {c : UInt8}
    (h : literalPlus literal c = .ok message) : ∀ b ∈ message, b ∈ literal := by
  unfold literalPlus at h
  split at h
  · cases h
    exact fun b hb => List.mem_of_mem_drop hb
  · cases h

theorem cStr_eq_self_iff {s : Str} : cStr s = s ↔ (0 : UInt8) ∉ s := by
  rw [cStr, List.takeWhile_eq_self_iff]
  constructor
  · intro h hnul
    simpa using h 0 hnul
  · intro hnul c hc
    simpa using fun h : c = 0 => hnul (h ▸ hc)

@[simp] theorem cStr_cStr (s : Str) : cStr (cStr s) = cStr s := by
  rw [cStr, cStr, List.takeWhile_takeWhile]
  simp

/-- A separator that occurs in neither of two texts ends them both. -/
theorem append_cons_inj {c : UInt8} {p p' s s' : Str} (hp : c ∉ p) (hp' : c ∉ p') :
    p ++ c :: s = p' ++ c :: s' ↔ p = p' ∧ s = s' := by
  constructor
  · intro h
    induction p generalizing p' with
    | nil =>
        -- the separator comes first on one side, hence on the other
        cases p' with
        | nil => simpa using h
        | cons b rest =>
            rw [List.nil_append, List.cons_append, List.cons.injEq] at h
            exact absurd (h.1 ▸ List.mem_cons_self ..) hp'
    | cons a rest ih =>
        cases p' with
        | nil =>
            rw [List.nil_append, List.cons_append, List.cons.injEq] at h
            exact absurd (h.1 ▸ List.mem_cons_self ..) hp
        | cons b rest' =>
            rw [List.cons_append, List.cons_append, List.cons.injEq] at h
            obtain ⟨hrest, hs⟩ := ih (fun hc => hp (List.mem_cons_of_mem _ hc))
              (fun hc => hp' (List.mem_cons_of_mem _ hc)) h.2
            exact ⟨by rw [h.1, hrest], hs⟩
  · rintro ⟨rfl, rfl⟩
    rfl

@[simp] theorem mem_setInsert {a element : ℕ} {set : List ℕ} :
    a ∈ setInsert element set ↔ a = element ∨ a ∈ set := by
  unfold setInsert
  split
  · rename_i hmem
    exact ⟨Or.inr, fun h => h.elim (fun heq => heq ▸ hmem) id⟩
  · exact List.mem_orderedInsert _

theorem nodup_setInsert {element : ℕ} {set : List ℕ} (h : set.Nodup) :
    (setInsert element set).Nodup := by
  unfold setInsert
  split
  · exact h
  · rename_i hmem
    exact (List.perm_orderedInsert _ element set).nodup_iff.mpr (List.nodup_cons.mpr ⟨hmem, h⟩)

/-- Entries in the first slots of an array are found again. -/
theorem filterMap_slots {α : Type} {n : ℕ} {entries : List α} (h : entries.length ≤ n) :
    (Vector.ofFn fun i : Fin n => entries[i.val]?).toList.filterMap id = entries := by
  have hslots : (Vector.ofFn fun i : Fin n => entries[i.val]?).toList =
      entries.map some ++ List.replicate (n - entries.length) none := by
    apply List.ext_getElem
    · simp
      omega
    · intro i hi _
      rw [List.getElem_append]
      split <;> rename_i h <;> simp at h <;> simp [h]
  have hnone : (List.replicate (n - entries.length) (none : Option α)).filterMap id = [] := by
    rw [List.filterMap_eq_nil_iff]
    exact fun _ hmem => List.eq_of_mem_replicate hmem
  rw [hslots, List.filterMap_append, hnone, List.append_nil]
  exact (List.filterMap_map ..).trans List.filterMap_some

/-- An entry that a search finds is in the table. -/
theorem mem_of_lookup {α β : Type*} [BEq α] [LawfulBEq α] {key : α} {entry : β}
    {table : List (α × β)}
    (h : table.lookup key = some entry) : (key, entry) ∈ table := by
  obtain ⟨before, after, rfl, _⟩ := List.lookup_eq_some_iff.mp h
  simp

/-! ### Digits -/

theorem natOfDigits_append (s : Str) (c : UInt8) :
    natOfDigits (s ++ [c]) = 10 * natOfDigits s + (c.toNat - 48) := by
  simp [natOfDigits]

theorem isDigit_digitChar {d : ℕ} (hd : d < 10) : isDigit d.digitChar.toUInt8 = true := by
  interval_cases d <;> decide

theorem toNat_digitChar {d : ℕ} (hd : d < 10) : d.digitChar.toUInt8.toNat - 48 = d := by
  interval_cases d <;> decide

theorem decimal_of_lt {n : ℕ} (hn : n < 10) : decimal n = [n.digitChar.toUInt8] := by
  rw [decimal, Nat.toDigits_of_lt_base hn]
  rfl

theorem decimal_of_le {n : ℕ} (hn : 10 ≤ n) :
    decimal n = decimal (n / 10) ++ [(n % 10).digitChar.toUInt8] := by
  rw [decimal, Nat.toDigits_of_base_le (by omega) hn, List.map_append]
  rfl

theorem decimal_ne_nil (n : ℕ) : decimal n ≠ [] := by
  simp [decimal]

theorem isDigit_of_mem_decimal (n : ℕ) : ∀ c ∈ decimal n, isDigit c = true := by
  induction n using Nat.strong_induction_on with
  | _ n ih =>
      intro c hc
      rcases Nat.lt_or_ge n 10 with hlt | hge
      · rw [decimal_of_lt hlt, List.mem_singleton] at hc
        exact hc ▸ isDigit_digitChar hlt
      · rw [decimal_of_le hge, List.mem_append, List.mem_singleton] at hc
        rcases hc with hc | rfl
        · exact ih (n / 10) (by omega) c hc
        · exact isDigit_digitChar (by omega)

@[simp] theorem natOfDigits_decimal (n : ℕ) : natOfDigits (decimal n) = n := by
  induction n using Nat.strong_induction_on with
  | _ n ih =>
      rcases Nat.lt_or_ge n 10 with hlt | hge
      · rw [decimal_of_lt hlt]
        simpa [natOfDigits] using toNat_digitChar hlt
      · calc natOfDigits (decimal n)
            = 10 * natOfDigits (decimal (n / 10)) + ((n % 10).digitChar.toUInt8.toNat - 48) := by
              rw [decimal_of_le hge, natOfDigits_append]
          _ = 10 * (n / 10) + n % 10 := by
              rw [ih (n / 10) (by omega), toNat_digitChar (by omega)]
          _ = n := Nat.div_add_mod n 10

theorem decimal_injective : Function.Injective decimal := by
  intro m n h
  rw [← natOfDigits_decimal m, h, natOfDigits_decimal]

/-- A byte that is no digit does not occur in a number. -/
theorem not_mem_decimal {c : UInt8} (hc : isDigit c = false) (n : ℕ) : c ∉ decimal n := by
  intro hmem
  rw [isDigit_of_mem_decimal n c hmem] at hc
  cases hc

theorem cStr_decimal (n : ℕ) : cStr (decimal n) = decimal n :=
  cStr_eq_self_iff.mpr (not_mem_decimal (by decide) n)

/-- A name that ends in a number is a C string. -/
theorem cStr_append_decimal {p : Str} (hnul : (0 : UInt8) ∉ p) (n : ℕ) :
    cStr (p ++ decimal n) = p ++ decimal n := by
  rw [cStr_eq_self_iff, List.mem_append, not_or]
  exact ⟨hnul, not_mem_decimal (by decide) n⟩

/-! ### `stoi` on a string of digits -/

theorem not_isSpace_of_isDigit {c : UInt8} (hc : isDigit c = true) : isSpace c = false := by
  simp only [isDigit, isSpace, Bool.and_eq_true, decide_eq_true_eq, Bool.or_eq_false_iff,
    Bool.and_eq_false_iff, decide_eq_false_iff_not, UInt8.le_iff_toNat_le, ← UInt8.toNat_inj] at *
  simp at *
  omega

theorem ne_sign_of_isDigit {c : UInt8} (hc : isDigit c = true) :
    c ≠ '-'.toUInt8 ∧ c ≠ '+'.toUInt8 := by
  refine ⟨?_, ?_⟩ <;>
  · rintro rfl
    exact absurd hc (by decide)

/-- A string of digits is read as a whole. -/
theorem strtol_of_digits {s : Str} (hne : s ≠ []) (hdigits : ∀ c ∈ s, isDigit c = true) :
    strtol s = some (natOfDigits s : ℤ) := by
  obtain ⟨c, rest, rfl⟩ := List.exists_cons_of_ne_nil hne
  have hc : isDigit c = true := hdigits c (List.mem_cons_self ..)
  have hbody : (c :: rest).dropWhile isSpace = c :: rest := by
    rw [List.dropWhile_cons, not_isSpace_of_isDigit hc]
    rfl
  -- a digit is neither white space nor a sign, so all bytes are read as digits
  obtain ⟨hminus, hplus⟩ := ne_sign_of_isDigit hc
  have htake : (c :: rest).takeWhile isDigit = c :: rest :=
    List.takeWhile_eq_self_iff.mpr hdigits
  simp [strtol, hbody, hminus, hplus, htake]

theorem stoi_of_digits {s : Str} (hne : s ≠ []) (hdigits : ∀ c ∈ s, isDigit c = true)
    (hle : natOfDigits s ≤ 2147483647) : stoi s = .ok (natOfDigits s) := by
  rw [stoi, strtol_of_digits hne hdigits]
  exact if_pos ⟨by omega, by exact_mod_cast hle⟩

/-- A number that is too large for an `int` raises an exception. -/
theorem stoi_of_large {s : Str} (hne : s ≠ []) (hdigits : ∀ c ∈ s, isDigit c = true)
    (hlt : 2147483647 < natOfDigits s) : stoi s = .error .outOfRange := by
  rw [stoi, strtol_of_digits hne hdigits]
  exact if_neg fun h => by omega

theorem stoi_decimal {n : ℕ} (hle : n ≤ 2147483647) : stoi (decimal n) = .ok n := by
  rw [stoi_of_digits (decimal_ne_nil n) (isDigit_of_mem_decimal n) (by simpa using hle),
    natOfDigits_decimal]

end Cxx
