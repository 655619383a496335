import Mathlib.Data.List.Lex

/-!
# The order of strings

A string of JavaScript is a sequence of UTF-16 code units, and `<` compares these, not the characters:
a character outside of the basic plane is a pair of surrogates, so it comes before U+E000.  A string is
determined by its code units, so the order of strings is a linear one.
-/

namespace ScreenSharing.Lib

/-- The code units of one character. -/
def codeUnits (c : Char) : List ℕ :=
  if c.toNat < 0x10000 then [c.toNat]
  else [0xd800 + (c.toNat - 0x10000) / 0x400, 0xdc00 + (c.toNat - 0x10000) % 0x400]

/-- The code units of a string. -/
def utf16 (s : String) : List ℕ := s.toList.flatMap codeUnits

/-- No character is a surrogate. -/
theorem toNat_ranges (c : Char) : c.toNat < 0xd800 ∨ 0xdfff < c.toNat ∧ c.toNat < 0x110000 := c.valid

/-- A character is determined by its code units, whatever follows them. -/
theorem codeUnits_append_inj {c c' : Char} {us us' : List ℕ}
    (h : codeUnits c ++ us = codeUnits c' ++ us') : c = c' ∧ us = us' := by
  have hc := toNat_ranges c
  have hc' := toNat_ranges c'
  suffices hnat : c.toNat = c'.toNat ∧ us = us' from
    ⟨Char.ext (UInt32.toNat_inj.mp hnat.1), hnat.2⟩
  unfold codeUnits at h
  split at h <;> split at h <;> simp only [List.cons_append, List.nil_append, List.cons.injEq] at h
  · exact h
  -- a surrogate is no character
  · omega
  · omega
  · exact ⟨by omega, h.2.2⟩

theorem flatMap_codeUnits_injective : Function.Injective (List.flatMap codeUnits) := by
  have hne : ∀ c, codeUnits c ≠ [] := fun c => by unfold codeUnits; split <;> exact List.cons_ne_nil _ _
  intro cs
  induction cs with
  | nil =>
    intro cs' h
    cases cs' with
    | nil => rfl
    | cons c' cs' =>
      rw [List.flatMap_nil, List.flatMap_cons] at h
      exact absurd (List.append_eq_nil_iff.mp h.symm).1 (hne c')
  | cons c cs ih =>
    intro cs' h
    cases cs' with
    | nil =>
      rw [List.flatMap_nil, List.flatMap_cons] at h
      exact absurd (List.append_eq_nil_iff.mp h).1 (hne c)
    | cons c' cs' =>
      rw [List.flatMap_cons, List.flatMap_cons] at h
      obtain ⟨rfl, hrest⟩ := codeUnits_append_inj h
      rw [ih hrest]

/-- **A string is determined by its code units.** -/
theorem utf16_injective : Function.Injective utf16 := fun _ _ h =>
  String.toList_injective (flatMap_codeUnits_injective h)

-- U+1F600 is a pair of surrogates and comes before U+FFFD
example : utf16 "😀" = [0xd83d, 0xde00] ∧ utf16 "😀" < utf16 "\uFFFD" := by decide

end ScreenSharing.Lib
