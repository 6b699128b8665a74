/-!
# Hexadecimal text

Bytes and addresses are shown in lower-case hexadecimal.  A byte is always two
digits; an address is padded with zeros to a least width and grows beyond it.

## Main definitions

* `Hex.byte`, `Hex.bytes` — the digits of a byte, and of a list of bytes.
* `Hex.padded width n` — the digits of a number, at least `width` of them.
* `Hex.bytes?` — reads a list of bytes back from its digits.

## Main results

* `Hex.bytes?_bytes` — what is written is read back, so no two byte lists share
  their digits.
-/

namespace FlatMemory.Hex

/-- The two digits of a byte, the high half first. -/
def byte (b : UInt8) : List Char :=
  [Nat.digitChar (b.toNat / 16), Nat.digitChar (b.toNat % 16)]

/-- The digits of a list of bytes, without separators. -/
def bytes : List UInt8 → List Char
  | [] => []
  | b :: bs => byte b ++ bytes bs

/-- The digits of `n`, with zeros in front up to `width` digits. -/
def padded (width n : Nat) : List Char :=
  (Nat.toDigits 16 n).leftpad width '0'

/-- The value of a lower-case hexadecimal digit. -/
def value? (c : Char) : Option Nat :=
  if '0' ≤ c ∧ c ≤ '9' then some (c.toNat - '0'.toNat)
  else if 'a' ≤ c ∧ c ≤ 'f' then some (c.toNat - 'a'.toNat + 10)
  else none

/-- Reads digits in pairs; an odd digit or a foreign character is refused. -/
def bytes? : List Char → Option (List UInt8)
  | [] => some []
  | [_] => none
  | high :: low :: rest =>
    match value? high, value? low, bytes? rest with
    | some h, some l, some bs => some (UInt8.ofNat (16 * h + l) :: bs)
    | _, _, _ => none

@[simp] theorem bytes_cons (b : UInt8) (bs : List UInt8) :
    bytes (b :: bs) = byte b ++ bytes bs := rfl

theorem value?_digitChar {n : Nat} (h : n < 16) : value? (Nat.digitChar n) = some n := by
  have all : ∀ m : Fin 16, value? (Nat.digitChar m) = some m.val := by decide
  exact all ⟨n, h⟩

/-- Digits determine the bytes. -/
theorem bytes?_bytes (bs : List UInt8) : bytes? (bytes bs) = some bs := by
  induction bs with
  | nil => rfl
  | cons b bs ih =>
    have hb := b.toNat_lt
    rw [bytes_cons, byte, List.cons_append, List.cons_append, List.nil_append, bytes?,
      value?_digitChar (by omega), value?_digitChar (by omega), ih]
    simp [Nat.div_add_mod]

end FlatMemory.Hex
