import Mathlib.Algebra.GroupWithZero.Nat
import Mathlib.Data.List.Nodup
import Mathlib.Data.List.Perm.Subperm
import Mathlib.Data.List.Basic

/-!
# Finite maps that remember insertion order

A JavaScript `Map` iterates over its keys in the order in which they were first inserted.
Overwriting a key keeps its place, deleting a key and inserting it again moves it to the end.
`InsertionMap κ α` is that structure: a list of entries whose keys are pairwise distinct.

* `get`, `has`, `set`, `delete`, `size`, `keys`, `values` are the operations of the map.
* The `get_*` lemmas give the lookup after every operation. They are the only facts about the
  entries that a client needs as long as it does not iterate.
* `forall_get_set` and `forall_get_delete` are the rules for an invariant of the entries.
* `mem_entries` connects iteration with lookup: the entries are exactly the pairs `get` finds.
* `values_set_free`, `values_set_keyed` and `values_delete` give the iteration over the values after
  each operation, for a map whose values know their keys (`Keyed`).

Nothing here depends on what is stored. The keys only need decidable equality.
-/

namespace ScreenSharing.Lib

/-- A finite map as the list of its entries, oldest key first. The field `nodup` is the
representation invariant: no key occurs twice. -/
structure InsertionMap (κ α : Type*) where
  entries : List (κ × α)
  nodup : (entries.map Prod.fst).Nodup

namespace InsertionMap

variable {κ α : Type*} [DecidableEq κ]

instance [DecidableEq α] : DecidableEq (InsertionMap κ α) := fun m m' =>
  decidable_of_iff (m.entries = m'.entries) (by cases m; cases m'; simp)

/-- The map with no entries. -/
def empty : InsertionMap κ α := ⟨[], List.nodup_nil⟩

instance : Inhabited (InsertionMap κ α) := ⟨empty⟩

/-- The value stored under `k`. -/
def get (m : InsertionMap κ α) (k : κ) : Option α := m.entries.lookup k

def has (m : InsertionMap κ α) (k : κ) : Bool := (m.get k).isSome

def keys (m : InsertionMap κ α) : List κ := m.entries.map Prod.fst

def values (m : InsertionMap κ α) : List α := m.entries.map Prod.snd

def size (m : InsertionMap κ α) : ℕ := m.entries.length

/-- Overwrite `k` in place, or append it when it is new. -/
def setEntries (k : κ) (a : α) : List (κ × α) → List (κ × α)
  | [] => [(k, a)]
  | e :: es => if e.1 = k then (k, a) :: es else e :: setEntries k a es

theorem mem_keys_setEntries (k : κ) (a : α) (es : List (κ × α)) (k' : κ) :
    k' ∈ (setEntries k a es).map Prod.fst ↔ k' = k ∨ k' ∈ es.map Prod.fst := by
  induction es with
  | nil => simp [setEntries]
  | cons e es ih =>
    by_cases h : e.1 = k
    · simp only [setEntries, h, if_true, List.map_cons, List.mem_cons]
      tauto
    · simp only [setEntries, h, if_false, List.map_cons, List.mem_cons, ih]
      tauto

theorem nodup_setEntries (k : κ) (a : α) (es : List (κ × α))
    (h : (es.map Prod.fst).Nodup) : ((setEntries k a es).map Prod.fst).Nodup := by
  induction es with
  | nil => simp [setEntries]
  | cons e es ih =>
    rw [List.map_cons, List.nodup_cons] at h
    by_cases hk : e.1 = k
    · simp only [setEntries, hk, if_true, List.map_cons, List.nodup_cons]
      exact ⟨hk ▸ h.1, h.2⟩
    · simp only [setEntries, if_neg hk, List.map_cons, List.nodup_cons, mem_keys_setEntries]
      exact ⟨fun hm => hm.elim hk h.1, ih h.2⟩

/-- `Map.prototype.set`. -/
def set (m : InsertionMap κ α) (k : κ) (a : α) : InsertionMap κ α :=
  ⟨setEntries k a m.entries, nodup_setEntries k a m.entries m.nodup⟩

/-- `Map.prototype.delete`. -/
def delete (m : InsertionMap κ α) (k : κ) : InsertionMap κ α :=
  ⟨m.entries.filter fun e => e.1 ≠ k, m.nodup.sublist (List.filter_sublist.map Prod.fst)⟩

/-- Apply a function to every value. -/
def mapValues (f : α → α) (m : InsertionMap κ α) : InsertionMap κ α :=
  ⟨m.entries.map fun e => (e.1, f e.2), by simpa [Function.comp_def] using m.nodup⟩

/-- Delete every entry whose value fails `p`. -/
def filterValues (p : α → Bool) (m : InsertionMap κ α) : InsertionMap κ α :=
  ⟨m.entries.filter fun e => p e.2, m.nodup.sublist (List.filter_sublist.map Prod.fst)⟩

/-! ### Lookup after each operation -/

@[simp] theorem get_empty (k : κ) : (empty : InsertionMap κ α).get k = none := rfl

theorem lookup_cons_if (k k' : κ) (a : α) (es : List (κ × α)) :
    ((k, a) :: es).lookup k' = if k' = k then some a else es.lookup k' := by
  rw [List.lookup_cons]
  by_cases h : k' = k
  · rw [beq_iff_eq.mpr h, if_pos h]
  · rw [beq_eq_false_iff_ne.mpr h, if_neg h]

theorem lookup_setEntries (k : κ) (a : α) (es : List (κ × α)) (k' : κ) :
    (setEntries k a es).lookup k' = if k' = k then some a else es.lookup k' := by
  induction es with
  | nil => simp [setEntries, lookup_cons_if]
  | cons e es ih =>
    obtain ⟨k₀, a₀⟩ := e
    by_cases hk : k₀ = k
    · simp only [setEntries, hk, if_true, lookup_cons_if]
      split <;> rfl
    · simp only [setEntries, if_neg hk, lookup_cons_if, ih]
      by_cases h : k' = k₀
      · rw [if_pos h, if_pos h, if_neg (h ▸ hk)]
      · rw [if_neg h, if_neg h]

theorem get_set (m : InsertionMap κ α) (k : κ) (a : α) (k' : κ) :
    (m.set k a).get k' = if k' = k then some a else m.get k' :=
  lookup_setEntries k a m.entries k'

@[simp] theorem get_set_self (m : InsertionMap κ α) (k : κ) (a : α) :
    (m.set k a).get k = some a := by simp [get_set]

theorem get_set_ne (m : InsertionMap κ α) {k k' : κ} (a : α) (h : k' ≠ k) :
    (m.set k a).get k' = m.get k' := by simp [get_set, h]

/-- Setting a free key keeps every entry. -/
theorem get_set_of_free {m : InsertionMap κ α} {k k' : κ} {a : α} (hfree : m.get k = none) (b : α)
    (h : m.get k' = some a) : (m.set k b).get k' = some a := by
  have hne : k' ≠ k := by
    rintro rfl
    rw [hfree] at h
    cases h
  exact (get_set_ne m b hne).trans h

theorem setEntries_setEntries (k : κ) (a b : α) (es : List (κ × α)) :
    setEntries k b (setEntries k a es) = setEntries k b es := by
  induction es with
  | nil => simp [setEntries]
  | cons e es ih =>
    by_cases hk : e.1 = k
    · simp [setEntries, hk]
    · simp [setEntries, hk, ih]

/-- Only the last of two writes to one key counts. -/
@[simp] theorem set_set (m : InsertionMap κ α) (k : κ) (a b : α) :
    (m.set k a).set k b = m.set k b := by
  unfold set
  congr 1
  exact setEntries_setEntries k a b m.entries

theorem setEntries_self {k : κ} {a : α} {es : List (κ × α)} (h : es.lookup k = some a) :
    setEntries k a es = es := by
  induction es with
  | nil => simp at h
  | cons e es ih =>
    obtain ⟨k₀, a₀⟩ := e
    rw [lookup_cons_if] at h
    split at h
    · next hk =>
      cases h
      simp [setEntries, hk]
    · next hk => simp [setEntries, Ne.symm hk, ih h]

/-- Writing what is there changes nothing. -/
theorem set_get_self {m : InsertionMap κ α} {k : κ} {a : α} (h : m.get k = some a) :
    m.set k a = m := by
  unfold set
  congr 1
  exact setEntries_self h

theorem lookup_filter_ne (es : List (κ × α)) (k k' : κ) :
    (es.filter fun e => e.1 ≠ k).lookup k' = if k' = k then none else es.lookup k' := by
  induction es with
  | nil => simp
  | cons e es ih =>
    obtain ⟨k₀, a₀⟩ := e
    by_cases hk : k₀ = k
    · rw [List.filter_cons_of_neg (by simpa using hk), ih, lookup_cons_if, hk]
      split <;> rfl
    · rw [List.filter_cons_of_pos (by simpa using hk), lookup_cons_if, lookup_cons_if, ih]
      by_cases h : k' = k₀
      · rw [if_pos h, if_pos h, if_neg (h ▸ hk)]
      · rw [if_neg h, if_neg h]

theorem get_delete (m : InsertionMap κ α) (k k' : κ) :
    (m.delete k).get k' = if k' = k then none else m.get k' :=
  lookup_filter_ne m.entries k k'

@[simp] theorem get_delete_self (m : InsertionMap κ α) (k : κ) : (m.delete k).get k = none := by
  simp [get_delete]

theorem get_delete_ne (m : InsertionMap κ α) {k k' : κ} (h : k' ≠ k) :
    (m.delete k).get k' = m.get k' := by simp [get_delete, h]

theorem get_of_get_delete {m : InsertionMap κ α} {k k' : κ} {a : α}
    (h : (m.delete k).get k' = some a) : m.get k' = some a ∧ k' ≠ k := by
  rw [get_delete] at h
  split at h
  · cases h
  · exact ⟨h, ‹_›⟩

/-- **An invariant of the entries** is kept by setting one that satisfies it. -/
theorem forall_get_set {P : κ → α → Prop} {m : InsertionMap κ α} {k : κ} {a : α}
    (h : ∀ k' b, m.get k' = some b → P k' b) (ha : P k a) :
    ∀ k' b, (m.set k a).get k' = some b → P k' b := by
  intro k' b hget
  rw [get_set] at hget
  split at hget
  · next hk =>
    cases hget
    rw [hk]
    exact ha
  · exact h k' b hget

theorem forall_get_delete {P : κ → α → Prop} {m : InsertionMap κ α} {k : κ}
    (h : ∀ k' b, m.get k' = some b → P k' b) : ∀ k' b, (m.delete k).get k' = some b → P k' b :=
  fun k' b hget => h k' b (get_of_get_delete hget).1

theorem lookup_map_values (f : α → α) (es : List (κ × α)) (k : κ) :
    (es.map fun e => (e.1, f e.2)).lookup k = (es.lookup k).map f := by
  induction es with
  | nil => rfl
  | cons e es ih =>
    rw [List.map_cons, lookup_cons_if, lookup_cons_if, ih]
    split <;> rfl

@[simp] theorem get_mapValues (f : α → α) (m : InsertionMap κ α) (k : κ) :
    (m.mapValues f).get k = (m.get k).map f :=
  lookup_map_values f m.entries k

theorem lookup_filter_values (p : α → Bool) {es : List (κ × α)} (hnd : (es.map Prod.fst).Nodup)
    (k : κ) : (es.filter fun e => p e.2).lookup k = (es.lookup k).filter p := by
  induction es with
  | nil => rfl
  | cons e es ih =>
    rw [List.map_cons, List.nodup_cons] at hnd
    rw [List.filter_cons, lookup_cons_if e.1]
    by_cases hk : k = e.1
    · -- no later entry has this key
      have hnone : (es.filter fun e => p e.2).lookup k = none := by
        rw [List.lookup_eq_none_iff]
        intro e' he'
        have hmem : e'.1 ∈ es.map Prod.fst := List.mem_map_of_mem (List.mem_of_mem_filter he')
        exact bne_iff_ne.mpr fun h => hnd.1 (hk.symm.trans h ▸ hmem)
      rw [if_pos hk, Option.filter_some]
      split
      · rw [lookup_cons_if e.1, if_pos hk]
      · exact hnone
    · rw [if_neg hk, ← ih hnd.2]
      split
      · rw [lookup_cons_if e.1, if_neg hk]
      · rfl

@[simp] theorem get_filterValues (p : α → Bool) (m : InsertionMap κ α) (k : κ) :
    (m.filterValues p).get k = (m.get k).filter p :=
  lookup_filter_values p m.nodup k

/-! ### Membership -/

theorem has_iff (m : InsertionMap κ α) (k : κ) : m.has k = true ↔ ∃ a, m.get k = some a := by
  simp [has, Option.isSome_iff_exists]

theorem has_eq_false (m : InsertionMap κ α) (k : κ) : m.has k = false ↔ m.get k = none := by
  simp [has]

/-- Overwriting a key that is there adds none. -/
theorem has_of_has_set {m : InsertionMap κ α} {k k' : κ} {a b : α} (hget : m.get k = some a)
    (h : (m.set k b).has k' = true) : m.has k' = true := by
  by_cases hk : k' = k
  · exact (has_iff _ _).mpr ⟨a, hk ▸ hget⟩
  · rwa [has, get_set_ne _ _ hk] at h

theorem has_set (m : InsertionMap κ α) (k k' : κ) (a : α) :
    (m.set k a).has k' = true ↔ m.has k' = true ∨ k' = k := by
  simp only [has_iff, get_set]
  by_cases hk : k' = k
  · simp [hk]
  · simp [hk]

theorem mem_of_lookup {es : List (κ × α)} {k : κ} {a : α} (h : es.lookup k = some a) :
    (k, a) ∈ es := by
  induction es with
  | nil => simp at h
  | cons e es ih =>
    obtain ⟨k₀, a₀⟩ := e
    rw [lookup_cons_if] at h
    split at h
    · next hk =>
      cases h
      exact hk ▸ List.mem_cons_self
    · exact List.mem_cons_of_mem _ (ih h)

theorem lookup_of_mem {es : List (κ × α)} {k : κ} {a : α} (hnd : (es.map Prod.fst).Nodup)
    (h : (k, a) ∈ es) : es.lookup k = some a := by
  induction es with
  | nil => simp at h
  | cons e es ih =>
    obtain ⟨k₀, a₀⟩ := e
    rw [List.map_cons, List.nodup_cons] at hnd
    rw [lookup_cons_if]
    rcases List.mem_cons.mp h with heq | hmem
    · cases heq
      exact if_pos rfl
    · have hne : k ≠ k₀ := fun he => hnd.1 (List.mem_map.mpr ⟨(k, a), hmem, he⟩)
      rw [if_neg hne]
      exact ih hnd.2 hmem

/-- Iterating over the entries visits exactly the pairs that `get` finds. -/
theorem mem_entries (m : InsertionMap κ α) (k : κ) (a : α) :
    (k, a) ∈ m.entries ↔ m.get k = some a :=
  ⟨lookup_of_mem m.nodup, mem_of_lookup⟩

theorem delete_of_free {m : InsertionMap κ α} {k : κ} (hfree : m.get k = none) : m.delete k = m := by
  have hkept : m.entries.filter (fun e => e.1 ≠ k) = m.entries := by
    refine List.filter_eq_self.mpr fun e he => ?_
    have hne : e.1 ≠ k := by
      rintro rfl
      have hget : m.get e.1 = some e.2 := (mem_entries m e.1 e.2).mp he
      rw [hfree] at hget
      cases hget
    simpa using hne
  cases m
  simpa [delete] using hkept

/-- A map in which nothing is found is empty. -/
theorem eq_empty {m : InsertionMap κ α} (h : ∀ k, m.get k = none) : m = empty := by
  have hentries : m.entries = [] := by
    rw [List.eq_nil_iff_forall_not_mem]
    rintro ⟨k, a⟩ hmem
    have hget := (mem_entries m k a).mp hmem
    rw [h k] at hget
    cases hget
  cases m
  simpa [empty] using hentries

theorem mem_values (m : InsertionMap κ α) (a : α) : a ∈ m.values ↔ ∃ k, m.get k = some a := by
  simp only [values, List.mem_map, Prod.exists, exists_eq_right, mem_entries]

theorem mem_keys (m : InsertionMap κ α) (k : κ) : k ∈ m.keys ↔ ∃ a, m.get k = some a := by
  simp only [keys, List.mem_map, Prod.exists, exists_and_right, exists_eq_right, mem_entries]

theorem mem_keys_set {m : InsertionMap κ α} {k k' : κ} {a : α} :
    k' ∈ (m.set k a).keys ↔ k' = k ∨ k' ∈ m.keys := by
  simp only [mem_keys, get_set]
  by_cases hk : k' = k
  · simp [hk]
  · simp [hk]

theorem mem_keys_delete {m : InsertionMap κ α} {k k' : κ} :
    k' ∈ (m.delete k).keys ↔ k' ≠ k ∧ k' ∈ m.keys := by
  simp only [mem_keys, get_delete]
  by_cases hk : k' = k
  · simp [hk]
  · simp [hk]

/-! ### Size -/

theorem length_setEntries (k : κ) (a : α) (es : List (κ × α)) :
    (setEntries k a es).length = if (es.lookup k).isSome then es.length else es.length + 1 := by
  induction es with
  | nil => rfl
  | cons e es ih =>
    obtain ⟨k₀, a₀⟩ := e
    rw [lookup_cons_if]
    by_cases hk : k₀ = k
    · rw [setEntries, if_pos hk, if_pos hk.symm]
      rfl
    · rw [setEntries, if_neg hk, if_neg (Ne.symm hk), List.length_cons, ih]
      split <;> rfl

/-- Overwriting keeps the size. -/
theorem size_set_of_get {m : InsertionMap κ α} {k : κ} {a b : α} (h : m.get k = some a) :
    (m.set k b).size = m.size := by
  have hsome : (m.entries.lookup k).isSome = true := by
    show (m.get k).isSome = true
    rw [h]
    rfl
  exact (length_setEntries k b m.entries).trans (if_pos hsome)

theorem size_set_of_free {m : InsertionMap κ α} {k : κ} {b : α} (h : m.get k = none) :
    (m.set k b).size = m.size + 1 := by
  have hnone : ¬ (m.entries.lookup k).isSome = true := by
    show ¬ (m.get k).isSome = true
    rw [h]
    exact Bool.false_ne_true
  exact (length_setEntries k b m.entries).trans (if_neg hnone)

theorem size_set_le (m : InsertionMap κ α) (k : κ) (b : α) : (m.set k b).size ≤ m.size + 1 := by
  cases h : m.get k with
  | none => exact Nat.le_of_eq (size_set_of_free h)
  | some a => exact Nat.le_succ_of_le (Nat.le_of_eq (size_set_of_get h))

theorem size_delete_le (m : InsertionMap κ α) (k : κ) : (m.delete k).size ≤ m.size :=
  List.length_filter_le _ _

/-- A map whose keys are all keys of another is no larger. -/
theorem size_le_of_has {β : Type*} {m : InsertionMap κ α} {m' : InsertionMap κ β}
    (h : ∀ k a, m.get k = some a → ∃ b, m'.get k = some b) : m.size ≤ m'.size := by
  have hsub : m.keys ⊆ m'.keys := by
    intro k hk
    obtain ⟨a, ha⟩ := (mem_keys m k).mp hk
    exact (mem_keys m' k).mpr (h k a ha)
  have hlength : m.keys.length ≤ m'.keys.length := (List.subperm_of_subset m.nodup hsub).length_le
  simpa only [keys, size, List.length_map] using hlength

/-! ### Values that know their keys -/

/-- Every value is stored under its own key. -/
def Keyed (key : α → κ) (m : InsertionMap κ α) : Prop := ∀ k a, m.get k = some a → key a = k

section

variable {key : α → κ} {m : InsertionMap κ α} {k : κ} {a b : α}

theorem Keyed.set (h : m.Keyed key) (ha : key a = k) : (m.set k a).Keyed key :=
  forall_get_set h ha

theorem Keyed.delete (h : m.Keyed key) : (m.delete k).Keyed key := forall_get_delete h

theorem Keyed.entries (h : m.Keyed key) : ∀ e ∈ m.entries, key e.2 = e.1 := by
  rintro ⟨k', a'⟩ hmem
  exact h k' a' ((mem_entries m k' a').mp hmem)

theorem Keyed.map_values (h : m.Keyed key) : m.values.map key = m.keys := by
  unfold values keys
  rw [List.map_map]
  exact List.map_congr_left fun e he => h.entries e he

theorem Keyed.nodup_values (h : m.Keyed key) : (m.values.map key).Nodup := by
  rw [h.map_values]
  exact m.nodup

theorem values_delete (h : m.Keyed key) :
    (m.delete k).values = m.values.filter fun a => key a ≠ k := by
  have hentries := h.entries
  show (m.entries.filter fun e => e.1 ≠ k).map Prod.snd = (m.entries.map Prod.snd).filter _
  rw [List.filter_map]
  refine congrArg (List.map Prod.snd) (List.filter_congr fun e he => ?_)
  simp [hentries e he]

theorem values_set_free (h : m.get k = none) : (m.set k a).values = m.values ++ [a] := by
  have hset : ∀ es : List (κ × α), es.lookup k = none →
      (setEntries k a es).map Prod.snd = es.map Prod.snd ++ [a] := by
    intro es hes
    induction es with
    | nil => rfl
    | cons e es ih =>
      rw [lookup_cons_if] at hes
      split at hes
      · cases hes
      · next hne =>
        rw [setEntries, if_neg (Ne.symm hne), List.map_cons, ih hes]
        rfl
  exact hset m.entries h

theorem values_set_keyed (h : m.Keyed key) (hget : m.get k = some b) :
    (m.set k a).values = m.values.map fun x => if key x = k then a else x := by
  have hset : ∀ es : List (κ × α), (∀ e ∈ es, key e.2 = e.1) → (es.map Prod.fst).Nodup →
      es.lookup k = some b → (setEntries k a es).map Prod.snd =
        (es.map Prod.snd).map fun x => if key x = k then a else x := by
    intro es hes hnodup hlookup
    induction es with
    | nil => cases hlookup
    | cons e es ih =>
      have he := hes e List.mem_cons_self
      rw [List.map_cons, List.nodup_cons] at hnodup
      rw [lookup_cons_if] at hlookup
      split at hlookup
      · next heq =>
        -- the key does not come again
        have hrest : ∀ x ∈ es.map Prod.snd, key x ≠ k := by
          intro x hx hkey
          obtain ⟨e', he', rfl⟩ := List.mem_map.mp hx
          refine hnodup.1 (List.mem_map.mpr ⟨e', he', ?_⟩)
          rw [← hes e' (List.mem_cons_of_mem _ he'), hkey, heq]
        rw [setEntries, if_pos heq.symm, List.map_cons, List.map_cons, List.map_cons,
          if_pos (by rw [he, heq])]
        refine congrArg (a :: ·) ?_
        refine (List.map_id _).symm.trans (List.map_congr_left fun x hx => ?_)
        rw [if_neg (hrest x hx), id]
      · next hne =>
        rw [setEntries, if_neg (Ne.symm hne), List.map_cons, List.map_cons, List.map_cons,
          ih (fun e' he' => hes e' (List.mem_cons_of_mem _ he')) hnodup.2 hlookup,
          if_neg (by rw [he]; exact Ne.symm hne)]
  exact hset m.entries h.entries m.nodup hget

/-- What only the value at one key brings in. -/
theorem flatMap_values_key {β : Type*} (h : m.Keyed key) (k : κ) (f : α → List β) :
    (m.values.flatMap fun a => if key a = k then f a else []) = ((m.get k).map f).getD [] := by
  have hlist : ∀ es : List (κ × α), (∀ e ∈ es, key e.2 = e.1) → (es.map Prod.fst).Nodup →
      ((es.map Prod.snd).flatMap fun a => if key a = k then f a else []) =
        ((es.lookup k).map f).getD [] := by
    intro es hes hnodup
    induction es with
    | nil => rfl
    | cons e es ih =>
      have he := hes e List.mem_cons_self
      have hrest := ih (fun e' he' => hes e' (List.mem_cons_of_mem _ he'))
        (List.nodup_cons.mp hnodup).2
      rw [lookup_cons_if e.1, List.map_cons, List.flatMap_cons, hrest, he]
      by_cases hk : k = e.1
      · -- the key does not come again
        have hnone : es.lookup k = none := by
          rw [List.lookup_eq_none_iff]
          intro e' he'
          have hmem : e'.1 ∈ es.map Prod.fst := List.mem_map_of_mem he'
          exact bne_iff_ne.mpr fun heq => (List.nodup_cons.mp hnodup).1 (hk.symm.trans heq ▸ hmem)
        rw [if_pos hk.symm, if_pos hk, hnone]
        exact List.append_nil _
      · rw [if_neg (Ne.symm hk), if_neg hk]
        rfl
  exact hlist m.entries h.entries m.nodup

end

/-! ### Sums over the values -/

section

variable {m : InsertionMap κ α} {k : κ} {a b : α} (f : α → ℕ)

/-- A value is replaced: its summand goes, and that of the new value comes. -/
theorem sum_values_set (hget : m.get k = some a) :
    ((m.set k b).values.map f).sum + f a = (m.values.map f).sum + f b := by
  have hsum : ∀ es : List (κ × α), es.lookup k = some a →
      (((setEntries k b es).map Prod.snd).map f).sum + f a =
        ((es.map Prod.snd).map f).sum + f b := by
    intro es hes
    induction es with
    | nil => cases hes
    | cons e es ih =>
      rw [lookup_cons_if] at hes
      split at hes
      · next heq =>
        rw [setEntries, if_pos heq.symm, ← Option.some.inj hes]
        simp only [List.map_cons, List.sum_cons]
        omega
      · next hne =>
        have hrest := ih hes
        rw [setEntries, if_neg (Ne.symm hne)]
        simp only [List.map_cons, List.sum_cons]
        omega
  exact hsum m.entries hget

theorem sum_values_set_free (h : m.get k = none) :
    ((m.set k b).values.map f).sum = (m.values.map f).sum + f b := by
  rw [values_set_free h, List.map_append, List.sum_append]
  rfl

end

end InsertionMap

end ScreenSharing.Lib
