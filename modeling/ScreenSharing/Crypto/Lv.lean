import ScreenSharing.Lib.Bytes

/-!
# Length-value concatenation

`lvCat` puts the length of each field in front of it, as a LEB128 number, so that no field can bleed
into the next.  Nobody parses these strings, but `lvCat_append_inj` says that they could be: from the
concatenation of a known number of fields, with anything behind it, the fields and what is behind
them can be told.  With nothing behind it, the number need not be known (`lvCat_inj`).
-/

namespace ScreenSharing.Crypto

open Lib

/-- `leb128`: seven bits a byte, the low ones first, with the high bit on every byte but the last. -/
def leb128 (value : ℕ) : Bytes :=
  if value / 128 = 0 then [UInt8.ofNat (value % 128)]
  else UInt8.ofNat (value % 128 + 128) :: leb128 (value / 128)
termination_by value
decreasing_by omega

/-- `prependLen`. -/
def prependLen (bytes : Bytes) : Bytes := leb128 bytes.length ++ bytes

/-- `lvCat`. -/
def lvCat (fields : List Bytes) : Bytes := fields.flatMap prependLen

theorem ofNat_inj {a b : ℕ} (ha : a < 256) (hb : b < 256) (h : UInt8.ofNat a = UInt8.ofNat b) :
    a = b := by
  have hnat := congrArg UInt8.toNat h
  rw [UInt8.toNat_ofNat', UInt8.toNat_ofNat'] at hnat
  omega

/-- **Where a LEB128 number ends** can be told from its bytes. -/
theorem leb128_append_inj {a b : ℕ} {xs ys : Bytes} (h : leb128 a ++ xs = leb128 b ++ ys) :
    a = b ∧ xs = ys := by
  induction a using Nat.strongRecOn generalizing b with
  | _ a ih =>
    rw [leb128.eq_def a, leb128.eq_def b] at h
    split at h
    · split at h
      · obtain ⟨hbyte, hrest⟩ := List.cons.inj h
        have hlow := ofNat_inj (by omega) (by omega) hbyte
        exact ⟨by omega, hrest⟩
      · -- the high bit is set on one side only
        obtain ⟨hbyte, -⟩ := List.cons.inj h
        have hlow := ofNat_inj (by omega) (by omega) hbyte
        omega
    · split at h
      · obtain ⟨hbyte, -⟩ := List.cons.inj h
        have hlow := ofNat_inj (by omega) (by omega) hbyte
        omega
      · obtain ⟨hbyte, hrest⟩ := List.cons.inj h
        have hlow := ofNat_inj (by omega) (by omega) hbyte
        obtain ⟨hhigh, hrest⟩ := ih (a / 128) (by omega) hrest
        exact ⟨by omega, hrest⟩

theorem prependLen_append_inj {f f' xs ys : Bytes}
    (h : prependLen f ++ xs = prependLen f' ++ ys) : f = f' ∧ xs = ys := by
  unfold prependLen at h
  rw [List.append_assoc, List.append_assoc] at h
  obtain ⟨hlen, hrest⟩ := leb128_append_inj h
  exact List.append_inj hrest hlen

/-- **A concatenation of fields determines them.** -/
theorem lvCat_append_inj {fs fs' : List Bytes} (hlen : fs.length = fs'.length) {xs ys : Bytes}
    (h : lvCat fs ++ xs = lvCat fs' ++ ys) : fs = fs' ∧ xs = ys := by
  induction fs generalizing fs' with
  | nil =>
    obtain rfl := List.eq_nil_of_length_eq_zero hlen.symm
    exact ⟨rfl, h⟩
  | cons f fs ih =>
    cases fs' with
    | nil => cases hlen
    | cons f' fs' =>
      rw [lvCat, lvCat, List.flatMap_cons, List.flatMap_cons, List.append_assoc,
        List.append_assoc] at h
      obtain ⟨rfl, hrest⟩ := prependLen_append_inj h
      obtain ⟨rfl, hxs⟩ := ih (Nat.succ.inj hlen) hrest
      exact ⟨rfl, hxs⟩

/-- A field takes a byte at least. -/
theorem prependLen_ne_nil (f : Bytes) : prependLen f ≠ [] := by
  unfold prependLen
  rw [leb128.eq_def]
  split <;> exact List.cons_ne_nil _ _

/-- Even their number can be told, if nothing is behind them. -/
theorem lvCat_inj {fs fs' : List Bytes} (h : lvCat fs = lvCat fs') : fs = fs' := by
  induction fs generalizing fs' with
  | nil =>
    cases fs' with
    | nil => rfl
    | cons f' fs' =>
      rw [lvCat, lvCat, List.flatMap_nil, List.flatMap_cons] at h
      exact absurd (List.append_eq_nil_iff.mp h.symm).1 (prependLen_ne_nil f')
  | cons f fs ih =>
    cases fs' with
    | nil =>
      rw [lvCat, lvCat, List.flatMap_nil, List.flatMap_cons] at h
      exact absurd (List.append_eq_nil_iff.mp h).1 (prependLen_ne_nil f)
    | cons f' fs' =>
      rw [lvCat, lvCat, List.flatMap_cons, List.flatMap_cons] at h
      obtain ⟨rfl, hrest⟩ := prependLen_append_inj h
      rw [ih hrest]

end ScreenSharing.Crypto
