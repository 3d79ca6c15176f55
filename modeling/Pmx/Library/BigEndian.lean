import Mathlib.Data.Nat.Bitwise

/-!
# Big-endian words

A word of 32 bits made of four bytes by shifts and ors is the number whose digits
they are (`toNat_word`), so its bytes are what it was made of (`bytes_word`).
-/

namespace BigEndian

/-- Four bytes in a word, the first one on top. -/
def word (a b c d : UInt32) : UInt32 :=
  a <<< 24 ||| b <<< 16 ||| c <<< 8 ||| d

/-- The bytes of a word, from the top. -/
def bytes (w : UInt32) : List ℕ :=
  [w.toNat / 16777216, w.toNat / 65536 % 256, w.toNat / 256 % 256, w.toNat % 256]

/-- Nothing is lost by shifting a byte. -/
theorem toNat_shiftLeft {a : UInt32} (ha : a.toNat < 256) {s : UInt32} (hs : s.toNat ≤ 24) :
    (a <<< s).toNat = a.toNat <<< s.toNat := by
  have hpow : (2 : ℕ) ^ s.toNat ≤ 2 ^ 24 := Nat.pow_le_pow_right (by omega) hs
  have hlt : a.toNat <<< s.toNat < 2 ^ 32 := by
    calc a.toNat <<< s.toNat = a.toNat * 2 ^ s.toNat := Nat.shiftLeft_eq ..
      _ ≤ a.toNat * 2 ^ 24 := Nat.mul_le_mul_left _ hpow
      _ < 2 ^ 32 := by omega
  have hmod : s.toNat % 32 = s.toNat := Nat.mod_eq_of_lt (by omega)
  rw [UInt32.toNat_shiftLeft, hmod, Nat.mod_eq_of_lt hlt]

/-- An or of numbers that do not overlap is their sum. -/
theorem or_eq_add {high low : ℕ} (s : ℕ) (hlow : low < 2 ^ s) :
    high <<< s ||| low = high * 2 ^ s + low := by
  rw [← Nat.shiftLeft_add_eq_or_of_lt hlow, Nat.shiftLeft_eq]

theorem toNat_word {a b c d : UInt32} (ha : a.toNat < 256) (hb : b.toNat < 256)
    (hc : c.toNat < 256) (hd : d.toNat < 256) :
    (word a b c d).toNat =
      16777216 * a.toNat + 65536 * b.toNat + 256 * c.toNat + d.toNat := by
  have hlow : c.toNat <<< 8 ||| d.toNat = c.toNat * 2 ^ 8 + d.toNat := or_eq_add 8 hd
  have hmiddle : b.toNat <<< 16 ||| (c.toNat * 2 ^ 8 + d.toNat) =
      b.toNat * 2 ^ 16 + (c.toNat * 2 ^ 8 + d.toNat) := or_eq_add 16 (by omega)
  have hhigh : a.toNat <<< 24 ||| (b.toNat * 2 ^ 16 + (c.toNat * 2 ^ 8 + d.toNat)) =
      a.toNat * 2 ^ 24 + (b.toNat * 2 ^ 16 + (c.toNat * 2 ^ 8 + d.toNat)) :=
    or_eq_add 24 (by omega)
  calc (word a b c d).toNat
      = a.toNat <<< 24 ||| b.toNat <<< 16 ||| c.toNat <<< 8 ||| d.toNat := by
        simp only [word, UInt32.toNat_or]
        rw [toNat_shiftLeft ha (by decide), toNat_shiftLeft hb (by decide),
          toNat_shiftLeft hc (by decide)]
        rfl
    _ = a.toNat <<< 24 ||| (b.toNat <<< 16 ||| (c.toNat <<< 8 ||| d.toNat)) := by
        rw [Nat.or_assoc, Nat.or_assoc]
    _ = a.toNat * 2 ^ 24 + (b.toNat * 2 ^ 16 + (c.toNat * 2 ^ 8 + d.toNat)) := by
        rw [hlow, hmiddle, hhigh]
    _ = 16777216 * a.toNat + 65536 * b.toNat + 256 * c.toNat + d.toNat := by
        omega

theorem bytes_word {a b c d : UInt32} (ha : a.toNat < 256) (hb : b.toNat < 256)
    (hc : c.toNat < 256) (hd : d.toNat < 256) :
    bytes (word a b c d) = [a.toNat, b.toNat, c.toNat, d.toNat] := by
  have hword := toNat_word ha hb hc hd
  have h0 : (word a b c d).toNat / 16777216 = a.toNat := by omega
  have h1 : (word a b c d).toNat / 65536 % 256 = b.toNat := by omega
  have h2 : (word a b c d).toNat / 256 % 256 = c.toNat := by omega
  have h3 : (word a b c d).toNat % 256 = d.toNat := by omega
  rw [bytes, h0, h1, h2, h3]

end BigEndian
