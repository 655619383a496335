import ScreenSharing.Crypto.Agreement

/-!
# Nothing is ambiguous

What CPace hashes is put together from fields of variable length.  The length in front of a field is a
LEB128 number, which no other one is the beginning of; so the fields can be told, and nested encodings
with them: the channel id is a field of the generator string, and its version ends at the first slash.

The padding of the generator string fills the first block of the hash, as long as the two fields in
front of it leave room for it.
-/

namespace ScreenSharing.Crypto

open Lib

theorem length_leb128 (n : ℕ) : (leb128 n).length = lvLen n := by
  induction n using Nat.strongRecOn with
  | _ n ih =>
    rw [leb128.eq_def, lvLen.eq_def]
    split
    · rfl
    · rw [List.length_cons, ih (n / 128) (by omega), Nat.add_comm]

theorem length_prependLen (f : Bytes) : (prependLen f).length = lvLen f.length + f.length := by
  rw [prependLen, List.length_append, length_leb128]

theorem lvLen_of_lt {n : ℕ} (h : n < 128) : lvLen n = 1 := by
  rw [lvLen.eq_def, if_pos (Nat.div_eq_of_lt h)]

/-- No LEB128 number is the beginning of another one. -/
theorem leb128_prefix {m n : ℕ} (h : leb128 m <+: leb128 n) : m = n := by
  obtain ⟨rest, hrest⟩ := h
  rw [← List.append_nil (leb128 n)] at hrest
  exact (leb128_append_inj hrest).1

/-- The generator string is its three fields of the first block and two more. -/
theorem generatorString_eq (w ci sid : Bytes) : ∃ z, z = zpadTarget - 1 -
      (lvLen w.length + w.length) - (lvLen dsi.length + dsi.length) ∧
    generatorString w ci sid =
      (prependLen dsi ++ prependLen w ++ prependLen (List.replicate z 0)) ++
        (prependLen ci ++ prependLen sid) := by
  refine ⟨_, rfl, ?_⟩
  simp [generatorString, lvCat]

/-- **The padding fills the first block.** -/
theorem first_block {w : Bytes} (ci sid : Bytes)
    (hroom : (prependLen dsi ++ prependLen w).length ≤ 127) :
    ∃ z, generatorString w ci sid =
        (prependLen dsi ++ prependLen w ++ prependLen (List.replicate z 0)) ++
          (prependLen ci ++ prependLen sid) ∧
      (prependLen dsi ++ prependLen w ++ prependLen (List.replicate z 0)).length = 128 := by
  obtain ⟨z, hz, heq⟩ := generatorString_eq w ci sid
  refine ⟨z, heq, ?_⟩
  have hdsi : dsi.length = 17 := by decide
  rw [List.length_append, length_prependLen, length_prependLen] at hroom
  unfold zpadTarget at hz
  -- a padding shorter than 128 bytes has a length of one byte
  have hpad : lvLen z = 1 := lvLen_of_lt (by omega)
  rw [List.length_append, List.length_append, length_prependLen, length_prependLen,
    length_prependLen, List.length_replicate, hpad]
  omega

/-- **The inputs of CPace are encoded without ambiguity.**  LEB128 numbers are injective and
prefix-free, and as long as `lvLen` says; a concatenation of fields determines them, of a known number
of fields whatever follows; the generator string determines the password key, the binding and the
session id, and the input of the session key all its parts; and the first three fields of the
generator string fill its first 128 bytes where the first two leave room for the third. -/
theorem inputs_unambiguous (m n : ℕ) (fs gs : List Bytes) (xs ys : Bytes) (w w' sid sid' : Bytes)
    (b b' : CpaceBinding) (k k' msgA msgA' adA adA' msgB msgB' adB adB' : Bytes) :
    (leb128 m = leb128 n → m = n) ∧
    (leb128 m <+: leb128 n → m = n) ∧
    lvLen n = (leb128 n).length ∧
    (lvCat fs = lvCat gs → fs = gs) ∧
    (fs.length = gs.length → lvCat fs ++ xs = lvCat gs ++ ys → fs = gs ∧ xs = ys) ∧
    (generatorString w (channelId b) sid = generatorString w' (channelId b') sid' →
      w = w' ∧ b.roomId = b'.roomId ∧ b.protocolVersion = b'.protocolVersion ∧ sid = sid') ∧
    (iskInput sid k msgA adA msgB adB = iskInput sid' k' msgA' adA' msgB' adB' →
      sid = sid' ∧ k = k' ∧ msgA = msgA' ∧ adA = adA' ∧ msgB = msgB' ∧ adB = adB') ∧
    ((prependLen dsi ++ prependLen w).length ≤ 127 →
      ∃ z, generatorString w (channelId b) sid =
          (prependLen dsi ++ prependLen w ++ prependLen (List.replicate z 0)) ++
            (prependLen (channelId b) ++ prependLen sid) ∧
        (prependLen dsi ++ prependLen w ++ prependLen (List.replicate z 0)).length = 128) := by
  refine ⟨fun h => leb128_prefix (h ▸ List.prefix_rfl), leb128_prefix, (length_leb128 n).symm,
    lvCat_inj, fun hlen h => lvCat_append_inj hlen h, fun h => ?_, iskInput_injective,
    first_block (channelId b) sid⟩
  obtain ⟨hw, hci, hsid⟩ := generatorString_injective h
  have hbinding := channelId_injective hci
  exact ⟨hw, congrArg _ hbinding, congrArg _ hbinding, hsid⟩

end ScreenSharing.Crypto
