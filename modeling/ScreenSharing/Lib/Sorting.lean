import Mathlib.Data.List.Sort

/-!
# Sorting by a key

A comparator `r` that compares keys of a linear order.  Where the elements of a list have distinct keys,
the sorted list is the only one with these elements in this order: sorting forgets how the list was
arranged, and commutes with taking elements out.
-/

namespace ScreenSharing.Lib

variable {α β : Type*} [LinearOrder β] {r : α → α → Prop} {key : α → β} {l l' : List α}

/-- `r a b` says that the key of `a` is at most the one of `b`. -/
def Compares (r : α → α → Prop) (key : α → β) : Prop := ∀ a b, r a b ↔ key a ≤ key b

variable [DecidableRel r]

theorem Compares.pairwise (h : Compares r key) (l : List α) : (l.insertionSort r).Pairwise r := by
  have htotal : Std.Total r := ⟨fun a b => by rw [h a b, h b a]; exact le_total _ _⟩
  have htrans : IsTrans α r := ⟨fun a b c => by rw [h a b, h b c, h a c]; exact le_trans⟩
  exact List.pairwise_insertionSort r l

/-- The sorted list is the only one. -/
theorem Compares.eq_sort (h : Compares r key) (hinj : ∀ a ∈ l, ∀ b ∈ l, key a = key b → a = b)
    (hperm : l'.Perm l) (hsorted : l'.Pairwise r) : l' = l.insertionSort r := by
  refine List.Perm.eq_of_pairwise (fun a b ha hb hab hba => ?_) hsorted (h.pairwise l)
    (hperm.trans (List.perm_insertionSort r l).symm)
  exact hinj a (hperm.mem_iff.mp ha) b ((List.mem_insertionSort r).mp hb)
    (le_antisymm ((h a b).mp hab) ((h b a).mp hba))

theorem Compares.sort_perm (h : Compares r key) (hinj : ∀ a ∈ l, ∀ b ∈ l, key a = key b → a = b)
    (hperm : l'.Perm l) : l'.insertionSort r = l.insertionSort r :=
  h.eq_sort hinj ((List.perm_insertionSort r l').trans hperm) (h.pairwise l')

theorem Compares.sort_filter (h : Compares r key) (hinj : ∀ a ∈ l, ∀ b ∈ l, key a = key b → a = b)
    (p : α → Bool) : (l.filter p).insertionSort r = (l.insertionSort r).filter p := by
  refine (h.eq_sort (fun a ha b hb => ?_) ((List.perm_insertionSort r l).filter p)
    ((h.pairwise l).filter p)).symm
  exact hinj a (List.mem_of_mem_filter ha) b (List.mem_of_mem_filter hb)

/-- Distinct keys stand in strictly increasing order. -/
theorem Compares.strict (h : Compares r key) (hnodup : l.Pairwise fun a b => key a ≠ key b) :
    (l.insertionSort r).Pairwise fun a b => key a < key b := by
  have hne : (l.insertionSort r).Pairwise fun a b => key a ≠ key b :=
    (List.perm_insertionSort r l).symm.pairwise hnodup Ne.symm
  exact ((h.pairwise l).and hne).imp fun hab => lt_of_le_of_ne ((h _ _).mp hab.1) hab.2

end ScreenSharing.Lib
