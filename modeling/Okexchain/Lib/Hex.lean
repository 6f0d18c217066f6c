import Mathlib.Data.UInt

/-!
# Hexadecimal texts

Bytes as pairs of hexadecimal digits. Reading goes pair by pair and stops at the first character
that is not a digit, or if one is left over; it gives the bytes up to there, and whether all was
read.

**Result.** `decode_digits`: what is written is read back.
-/

namespace Okexchain

namespace Hex

/-- The digit of a number below 16. -/
def digit (n : Nat) : Char :=
  if n < 10 then Char.ofNat (48 + n) else Char.ofNat (87 + n)

/-- The value of a digit, in upper or lower case. -/
def value (c : Char) : Option Nat :=
  if '0' ≤ c ∧ c ≤ '9' then some (c.toNat - 48)
  else if 'a' ≤ c ∧ c ≤ 'f' then some (c.toNat - 87)
  else if 'A' ≤ c ∧ c ≤ 'F' then some (c.toNat - 55)
  else none

/-- The text of bytes. -/
def digits (bytes : List UInt8) : List Char :=
  bytes.flatMap fun b => [digit (b.toNat / 16), digit (b.toNat % 16)]

/-- The byte of a pair of digits. -/
def byte (c d : Char) : Option UInt8 :=
  (value c).bind fun x => (value d).map fun y => UInt8.ofNat (16 * x + y)

/-- The bytes of a text up to the first that cannot be read, and whether all was read. -/
def decode : List Char → List UInt8 × Bool
  | [] => ([], true)
  | [_] => ([], false)
  | c :: d :: cs => (byte c d).elim ([], false) fun b => (b :: (decode cs).1, (decode cs).2)

theorem value_digit {n : Nat} (h : n < 16) : value (digit n) = some n := by
  have hall : ∀ n : Fin 16, value (digit n) = some n.val := by decide
  exact hall ⟨n, h⟩

theorem byte_digit (b : UInt8) : byte (digit (b.toNat / 16)) (digit (b.toNat % 16)) = some b := by
  have hb := b.toNat_lt
  have hhigh : b.toNat / 16 < 16 := by omega
  have hlow : b.toNat % 16 < 16 := by omega
  unfold byte
  rw [value_digit hhigh, value_digit hlow, Option.bind_some, Option.map_some, Nat.div_add_mod,
    UInt8.ofNat_toNat]

/-- **Bytes that are written are read back.** -/
theorem decode_digits (bytes : List UInt8) : decode (digits bytes) = (bytes, true) := by
  induction bytes with
  | nil => rfl
  | cons b bytes ih =>
    unfold digits at ih ⊢
    rw [List.flatMap_cons, List.cons_append, List.cons_append, List.nil_append, decode, byte_digit,
      ih]
    rfl

theorem length_digits (bytes : List UInt8) : (digits bytes).length = 2 * bytes.length := by
  induction bytes with
  | nil => rfl
  | cons b bytes ih =>
    unfold digits at ih ⊢
    rw [List.flatMap_cons, List.length_append, ih, List.length_cons]
    simp only [List.length_cons, List.length_nil]
    omega

end Hex

end Okexchain
