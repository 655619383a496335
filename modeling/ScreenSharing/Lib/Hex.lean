import ScreenSharing.Lib.Bytes

/-!
# Hexadecimal text

A byte is two digits in lower case.  `hexToBytes_bytesToHex` says that what was written is read back.
-/

namespace ScreenSharing.Lib

/-- The sixteen digits. -/
def hexDigits : List Char :=
  ['0', '1', '2', '3', '4', '5', '6', '7', '8', '9', 'a', 'b', 'c', 'd', 'e', 'f']

def hexDigit (n : ℕ) : Char := hexDigits.getD n '0'

/-- The value of a digit, in either case. -/
def hexValue (c : Char) : Option ℕ := hexDigits.findIdx? (· == c.toLower)

def hexChars : Bytes → List Char
  | [] => []
  | b :: bs => hexDigit (b.toNat / 16) :: hexDigit (b.toNat % 16) :: hexChars bs

def hexBytes : List Char → Option Bytes
  | [] => some []
  | [_] => none
  | c :: d :: cs =>
    match hexValue c, hexValue d, hexBytes cs with
    | some high, some low, some bs => some (UInt8.ofNat (high * 16 + low) :: bs)
    | _, _, _ => none

/-- `bytesToHex`. -/
def bytesToHex (bs : Bytes) : String := String.ofList (hexChars bs)

/-- `hexToBytes`; `none` is an exception. -/
def hexToBytes (s : String) : Option Bytes := hexBytes s.toList

theorem hexValue_hexDigit : ∀ n < 16, hexValue (hexDigit n) = some n := by decide

theorem hexBytes_hexChars (bs : Bytes) : hexBytes (hexChars bs) = some bs := by
  induction bs with
  | nil => rfl
  | cons b bs ih =>
    have hb : b.toNat < 256 := b.toNat_lt
    have hhigh := hexValue_hexDigit (b.toNat / 16) (by omega)
    have hlow := hexValue_hexDigit (b.toNat % 16) (by omega)
    have hbyte : b.toNat / 16 * 16 + b.toNat % 16 = b.toNat := by omega
    unfold hexChars hexBytes
    rw [hhigh, hlow, ih]
    dsimp only
    rw [hbyte, UInt8.ofNat_toNat]

/-- **Text that was written is read back.** -/
theorem hexToBytes_bytesToHex (bs : Bytes) : hexToBytes (bytesToHex bs) = some bs := by
  unfold hexToBytes bytesToHex
  rw [String.toList_ofList, hexBytes_hexChars]

theorem length_hexChars (bs : Bytes) : (hexChars bs).length = 2 * bs.length := by
  induction bs with
  | nil => rfl
  | cons b bs ih =>
    show (hexChars bs).length + 1 + 1 = 2 * (bs.length + 1)
    omega

theorem hexDigit_mem (n : ℕ) : hexDigit n ∈ hexDigits := by
  unfold hexDigit
  rw [List.getD_eq_getElem?_getD]
  cases h : hexDigits[n]? with
  | none => decide
  | some c => exact List.mem_of_getElem? h

theorem mem_hexChars {bs : Bytes} : ∀ c ∈ hexChars bs, c ∈ hexDigits := by
  induction bs with
  | nil => exact fun c hc => absurd hc List.not_mem_nil
  | cons b bs ih =>
    intro c hc
    rcases List.mem_cons.mp hc with rfl | hc
    · exact hexDigit_mem _
    · rcases List.mem_cons.mp hc with rfl | hc
      · exact hexDigit_mem _
      · exact ih c hc

end ScreenSharing.Lib
