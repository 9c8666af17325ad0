import Mathlib.Data.Fintype.Basic
import Mathlib.Data.List.Basic

/-!
# Hexadecimal Digests

Bytes written as hexadecimal digits, and read back. Reading is lenient in the
way of the source language's library: it accepts digits of either case, and
stops before the first pair that is not one of digits.

Because reading undoes writing (`fromHex_toHex`), two digests that are
written alike are the same, and comparing what two strings read as is as good
as comparing the strings when both were written by `toHex`.

The alphabet is small, so that a digit reads as what it was written for is
checked for all sixteen of them. The rest is by induction on the bytes, each
of which is two digits.

## Main definitions

* `hexDigit`, `hexValue`: A digit, and its value.
* `toHex`, `fromHex`: Writing and reading.

## Theorems

* `hexValue_hexDigit`: A digit reads as the value it was written for.
* `fromHex_toHex`: Reading undoes writing.
-/

namespace Encoding

/-- The digit for a value below sixteen. -/
def hexDigit (n : Nat) : Char :=
  if n < 10 then Char.ofNat (48 + n) else Char.ofNat (87 + n)

/-- The value of a digit of either case. -/
def hexValue (c : Char) : Option Nat :=
  if 48 ≤ c.toNat ∧ c.toNat ≤ 57 then some (c.toNat - 48)
  else if 97 ≤ c.toNat ∧ c.toNat ≤ 102 then some (c.toNat - 87)
  else if 65 ≤ c.toNat ∧ c.toNat ≤ 70 then some (c.toNat - 55)
  else none

/-- Two digits for each byte, the higher one first. -/
def toHexDigits : List UInt8 → List Char
  | [] => []
  | b :: bs => hexDigit (b.toNat / 16) :: hexDigit (b.toNat % 16) :: toHexDigits bs

/-- As many bytes as there are pairs of digits at the beginning. -/
def fromHexDigits : List Char → List UInt8
  | hi :: lo :: rest => match hexValue hi, hexValue lo with
    | some x, some y => UInt8.ofNat (16 * x + y) :: fromHexDigits rest
    | _, _ => []
  | _ => []

/-- A digest as a string. -/
def toHex (bytes : List UInt8) : String := String.ofList (toHexDigits bytes)

/-- The bytes of a string, up to the first pair that is no byte. -/
def fromHex (s : String) : List UInt8 := fromHexDigits s.toList

/-- A digit reads as the value it was written for. -/
theorem hexValue_hexDigit {n : Nat} (h : n < 16) : hexValue (hexDigit n) = some n := by
  have hall : ∀ d : Fin 16, hexValue (hexDigit d.val) = some d.val := by decide
  exact hall ⟨n, h⟩

/-- Reading the digits gives back the bytes, one by one. -/
theorem fromHexDigits_toHexDigits (bytes : List UInt8) :
    fromHexDigits (toHexDigits bytes) = bytes := by
  induction bytes with
  | nil => rfl
  | cons b bs ih =>
      have hb := b.toNat_lt
      have hhi : b.toNat / 16 < 16 := by omega
      have hlo : b.toNat % 16 < 16 := by omega
      simp only [toHexDigits, fromHexDigits, hexValue_hexDigit hhi, hexValue_hexDigit hlo, ih]
      -- The two halves of a byte are put together again.
      rw [Nat.div_add_mod, UInt8.ofNat_toNat]

/-- Reading undoes writing. -/
theorem fromHex_toHex (bytes : List UInt8) : fromHex (toHex bytes) = bytes := by
  rw [fromHex, toHex, String.toList_ofList, fromHexDigits_toHexDigits]

end Encoding
