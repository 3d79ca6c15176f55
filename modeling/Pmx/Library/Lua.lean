import Pmx.Library.Cxx

/-!
# A fragment of Lua

The calls on strings and integers that scripts use to build names and to read
numbers back from them.  A `..` with a number is a `..` with its `tostring`.
-/

namespace Lua

open Cxx

/-- `tostring` of an integer. -/
def tostring (n : ℤ) : Str :=
  if n < 0 then '-'.toUInt8 :: decimal n.natAbs else decimal n.natAbs

/-- `string.sub(s, i)` for a position `i` counted from one. -/
def sub (s : Str) (i : ℕ) : Str :=
  s.drop (i - 1)

/-- A number that is read from a string.  The value of a float is left out: its
text has a point, an exponent or `inf` in it, so that it is no integer's. -/
inductive Number
  | integer (value : ℤ)
  | float
  deriving DecidableEq

/-- Whether there is a minus, and what follows the sign. -/
def splitSign (s : Str) : Bool × Str :=
  if s.head? = some '-'.toUInt8 then (true, s.tail)
  else if s.head? = some '+'.toUInt8 then (false, s.tail)
  else (false, s)

def isHexDigit (c : UInt8) : Bool :=
  isDigit c || (97 ≤ c && c ≤ 102) || (65 ≤ c && c ≤ 70)

def hexDigitValue (c : UInt8) : ℕ :=
  if isDigit c then c.toNat - 48 else if 97 ≤ c then c.toNat - 87 else c.toNat - 55

/-- Digits and white space behind them, up to the end. -/
def isInteger (digit : UInt8 → Bool) (s : Str) : Bool :=
  s.takeWhile digit ≠ [] && (s.dropWhile digit).all isSpace

/-- The numeral of a float: digits, a fraction and an exponent, of which the last
two may be missing. -/
def isFloat (digit : UInt8 → Bool) (exponent : List UInt8) (s : Str) : Bool :=
  let rest := s.dropWhile digit
  let point : Bool := rest.head? = some '.'.toUInt8
  let fraction := if point then rest.tail.takeWhile digit else []
  let rest := if point then rest.tail.dropWhile digit else rest
  s.takeWhile digit ++ fraction ≠ [] &&
    (rest.all isSpace ||
      rest.head?.any (exponent.contains ·) && isInteger isDigit (splitSign rest.tail).2)

/-- A 64-bit integer, wrapped around. -/
def wrap64 (n : ℤ) : ℤ :=
  (n + 9223372036854775808) % 18446744073709551616 - 9223372036854775808

/-- `tonumber` of a string: a hexadecimal numeral wraps around, and a decimal one
beyond 64 bits is a float. -/
def tonumber (s : Str) : Option Number :=
  let body := (splitSign (s.dropWhile isSpace)).2
  let sign : ℤ := if (splitSign (s.dropWhile isSpace)).1 then -1 else 1
  if startsWith body (lit "0x") || startsWith body (lit "0X") then
    let body := body.drop 2
    if isInteger isHexDigit body then
      -- hexadecimal integers wrap around
      some (.integer (wrap64 (sign *
        (body.takeWhile isHexDigit).foldl (fun value c => 16 * value + hexDigitValue c) 0)))
    else if isFloat isHexDigit [80, 112] body then some .float
    else none
  else if isInteger isDigit body then
    let value := sign * natOfDigits (body.takeWhile isDigit)
    -- decimal integers that do not fit are floats
    if -9223372036854775808 ≤ value ∧ value ≤ 9223372036854775807 then some (.integer value)
    else some .float
  else if isFloat isDigit [69, 101] body then some .float
  else none

/-- No integer has a byte like `_` in its text. -/
theorem not_mem_tostring {c : UInt8} (hdigit : isDigit c = false) (hminus : c ≠ '-'.toUInt8)
    (n : ℤ) : c ∉ tostring n := by
  unfold tostring
  split
  · rw [List.mem_cons, not_or]
    exact ⟨hminus, not_mem_decimal hdigit _⟩
  · exact not_mem_decimal hdigit _

theorem tostring_injective : Function.Injective tostring := by
  have hminus : ∀ n, '-'.toUInt8 ∉ decimal n := not_mem_decimal (by decide)
  intro m n h
  unfold tostring at h
  -- the sign is read back first, then the digits
  split at h <;> split at h
  · have := decimal_injective (List.cons.inj h).2
    omega
  · exact absurd (h ▸ List.mem_cons_self ..) (hminus n.natAbs)
  · exact absurd (h ▸ List.mem_cons_self ..) (hminus m.natAbs)
  · have := decimal_injective h
    omega

theorem tostring_natCast (n : ℕ) : tostring n = decimal n := by
  rw [tostring, if_neg (by omega), Int.natAbs_natCast]

theorem sub_append (p s : Str) : sub (p ++ s) (p.length + 1) = s := by
  simp [sub]

/-- A digit in front is neither white space nor a sign. -/
theorem splitSign_of_isDigit {c : UInt8} (hc : isDigit c = true) (rest : Str) :
    splitSign ((c :: rest).dropWhile isSpace) = (false, c :: rest) := by
  obtain ⟨hminus, hplus⟩ := ne_sign_of_isDigit hc
  rw [List.dropWhile_cons, not_isSpace_of_isDigit hc]
  simp [splitSign, hminus, hplus]

theorem not_startsWith_of_digits {s : Str} (hdigits : ∀ c ∈ s, isDigit c = true) {c : UInt8}
    (hc : isDigit c = false) (zero : UInt8) : startsWith s [zero, c] = false := by
  rw [← Bool.not_eq_true, startsWith_iff]
  rintro ⟨rest, rfl⟩
  rw [hdigits c (by simp)] at hc
  cases hc

theorem tonumber_decimal (n : ℕ) :
    tonumber (decimal n) = some (if n ≤ 9223372036854775807 then .integer n else .float) := by
  obtain ⟨c, rest, hcons⟩ := List.exists_cons_of_ne_nil (decimal_ne_nil n)
  have hdigits := isDigit_of_mem_decimal n
  have hsign : splitSign ((decimal n).dropWhile isSpace) = (false, decimal n) := by
    rw [hcons]
    exact splitSign_of_isDigit (hdigits c (hcons ▸ List.mem_cons_self ..)) rest
  have htake : (decimal n).takeWhile isDigit = decimal n := List.takeWhile_eq_self_iff.mpr hdigits
  have hdrop : (decimal n).dropWhile isDigit = [] := List.dropWhile_eq_nil_iff.mpr hdigits
  have hinteger : isInteger isDigit (decimal n) = true := by
    simp [isInteger, htake, hdrop, decimal_ne_nil]
  have hlower : startsWith (decimal n) (lit "0x") = false :=
    not_startsWith_of_digits hdigits (by decide) _
  have hupper : startsWith (decimal n) (lit "0X") = false :=
    not_startsWith_of_digits hdigits (by decide) _
  simp only [tonumber, hsign, hlower, hupper, hinteger, htake, natOfDigits_decimal]
  by_cases hn : n ≤ 9223372036854775807
  · simp [hn]
  · simp [hn]

end Lua
