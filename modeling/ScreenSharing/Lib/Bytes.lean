import Mathlib.Algebra.Group.Nat.Defs
import Mathlib.Data.List.Basic

/-!
# Bytes

Byte strings are lists of bytes.  `writeBE w v` writes a number into `w` bytes, the most significant
one first, and `readBE` reads it; `readBE_writeBE` says that a number below `256 ^ w` is read back.
-/

namespace ScreenSharing.Lib

abbrev Bytes := List UInt8

/-- The last `w` base-256 digits of a number, the most significant one first. -/
def writeBE : ℕ → ℕ → Bytes
  | 0, _ => []
  | w + 1, v => writeBE w (v / 256) ++ [UInt8.ofNat v]

/-- The number that a byte string stands for, the most significant byte first. -/
def readBE (bs : Bytes) : ℕ := bs.foldl (fun v b => v * 256 + b.toNat) 0

@[simp] theorem length_writeBE (w v : ℕ) : (writeBE w v).length = w := by
  induction w generalizing v with
  | zero => rfl
  | succ w ih =>
    show (writeBE w (v / 256) ++ [UInt8.ofNat v]).length = w + 1
    rw [List.length_append, ih]
    rfl

theorem readBE_append_singleton (bs : Bytes) (b : UInt8) :
    readBE (bs ++ [b]) = readBE bs * 256 + b.toNat := by
  unfold readBE
  rw [List.foldl_append]
  rfl

/-- **Reading what was written.** -/
theorem readBE_writeBE {w v : ℕ} (h : v < 256 ^ w) : readBE (writeBE w v) = v := by
  induction w generalizing v with
  | zero =>
    have hv : v = 0 := by
      rw [Nat.pow_zero] at h
      omega
    rw [hv]
    rfl
  | succ w ih =>
    have hdiv : v / 256 < 256 ^ w := by
      rw [Nat.pow_succ] at h
      omega
    show readBE (writeBE w (v / 256) ++ [UInt8.ofNat v]) = v
    rw [readBE_append_singleton, ih hdiv, UInt8.toNat_ofNat']
    omega

theorem writeBE_injective {w v v' : ℕ} (h : v < 256 ^ w) (h' : v' < 256 ^ w)
    (heq : writeBE w v = writeBE w v') : v = v' := by
  rw [← readBE_writeBE h, ← readBE_writeBE h', heq]

end ScreenSharing.Lib
