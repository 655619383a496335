import ScreenSharing.Lib.Bytes

/-!
# Sealing

`aeadSeal` and `aeadOpen` are the two functions around AES-256-GCM: they check the lengths of the key
and of the nonce, put the tag behind the ciphertext, and take it off again.  The cipher itself is a
parameter: `Gcm` is `createCipheriv('aes-256-gcm', …)`, and a `Decipher` is the whole of
`createDecipheriv`, `setAAD`, `setAuthTag`, `update` and `final`.

`ideal` is the decipher of an ideal cipher, which opens exactly what was sealed: it is given the
`Sealing`s made so far, and finds the plaintext of one with this key, nonce, additional data and
ciphertext, or fails.
-/

namespace ScreenSharing.Crypto

open Lib

def keyBytes : ℕ := 32
def nonceBytes : ℕ := 12
def tagBytes : ℕ := 16

structure AeadError where
  message : String
  deriving DecidableEq

/-- The cipher: a ciphertext and a tag. -/
structure Gcm where
  encrypt (key nonce aad plaintext : Bytes) : Bytes × Bytes
  tag_length : ∀ key nonce aad plaintext,
    (encrypt key nonce aad plaintext).2.length = tagBytes

/-- A cipher that hides nothing.  The properties here do not need more. -/
instance : Inhabited Gcm where
  default := ⟨fun _ _ _ plaintext => (plaintext, List.replicate tagBytes 0), fun _ _ _ _ => rfl⟩

/-- The plaintext of a key, a nonce, additional data, a ciphertext and a tag; `none` is a failed
authentication. -/
abbrev Decipher := Bytes → Bytes → Bytes → Bytes → Bytes → Option Bytes

/-- `seal`. -/
def aeadSeal (gcm : Gcm) (key nonce plaintext aad : Bytes) : Except AeadError Bytes :=
  if key.length ≠ keyBytes then .error ⟨"key must be 32 bytes"⟩
  else if nonce.length ≠ nonceBytes then .error ⟨"nonce must be 12 bytes"⟩
  else
    let (body, tag) := gcm.encrypt key nonce aad plaintext
    .ok (body ++ tag)

/-- `open`. -/
def aeadOpen (decipher : Decipher) (key nonce sealed aad : Bytes) : Except AeadError Bytes :=
  if key.length ≠ keyBytes then .error ⟨"key must be 32 bytes"⟩
  else if nonce.length ≠ nonceBytes then .error ⟨"nonce must be 12 bytes"⟩
  else if sealed.length < tagBytes then .error ⟨"sealed payload too short"⟩
  else
    let body := sealed.take (sealed.length - tagBytes)
    let tag := sealed.drop (sealed.length - tagBytes)
    match decipher key nonce aad body tag with
    | some plaintext => .ok plaintext
    | none => .error ⟨"authentication failed"⟩

theorem aeadSeal_eq_ok (gcm : Gcm) {key nonce : Bytes} (plaintext aad : Bytes)
    (hkey : key.length = keyBytes) (hnonce : nonce.length = nonceBytes) :
    aeadSeal gcm key nonce plaintext aad =
      .ok ((gcm.encrypt key nonce aad plaintext).1 ++ (gcm.encrypt key nonce aad plaintext).2) := by
  unfold aeadSeal
  rw [if_neg (not_not.mpr hkey), if_neg (not_not.mpr hnonce)]

theorem aeadSeal_eq_error (gcm : Gcm) {key : Bytes} (nonce plaintext aad : Bytes)
    (hkey : key.length ≠ keyBytes) :
    aeadSeal gcm key nonce plaintext aad = .error ⟨"key must be 32 bytes"⟩ := if_pos hkey

/-- What is opened was deciphered, from the parts of the sealed payload. -/
theorem aeadOpen_eq_ok {decipher : Decipher} {key nonce sealed aad plaintext : Bytes} :
    aeadOpen decipher key nonce sealed aad = .ok plaintext ↔
      key.length = keyBytes ∧ nonce.length = nonceBytes ∧ ∃ body tag, sealed = body ++ tag ∧
        tag.length = tagBytes ∧ decipher key nonce aad body tag = some plaintext := by
  unfold aeadOpen
  split
  · next hkey => exact ⟨fun h => (by cases h), fun h => absurd h.1 hkey⟩
  · next hkey =>
    rw [not_not] at hkey
    split
    · next hnonce => exact ⟨fun h => (by cases h), fun h => absurd h.2.1 hnonce⟩
    · next hnonce =>
      rw [not_not] at hnonce
      split
      · next hshort =>
        constructor
        · intro h
          cases h
        · rintro ⟨-, -, body, tag, rfl, htag, -⟩
          rw [List.length_append] at hshort
          omega
      · next hlong =>
        have hparts : ∀ body tag : Bytes, sealed = body ++ tag → tag.length = tagBytes →
            sealed.take (sealed.length - tagBytes) = body ∧
              sealed.drop (sealed.length - tagBytes) = tag := by
          rintro body tag rfl htag
          have hlen : (body ++ tag).length - tagBytes = body.length := by
            rw [List.length_append]
            omega
          rw [hlen]
          exact ⟨List.take_left, List.drop_left⟩
        dsimp only
        constructor
        · intro h
          split at h
          · next hopen =>
            cases h
            refine ⟨hkey, hnonce, _, _, (List.take_append_drop _ _).symm, ?_, hopen⟩
            rw [List.length_drop]
            omega
          · cases h
        · rintro ⟨-, -, body, tag, hsealed, htag, hopen⟩
          obtain ⟨hbody, htag'⟩ := hparts body tag hsealed htag
          rw [hbody, htag', hopen]

/-! ### The ideal cipher -/

/-- One use of `seal`. -/
structure Sealing where
  key : Bytes
  nonce : Bytes
  aad : Bytes
  plaintext : Bytes
  deriving DecidableEq

/-- What `seal` made of it: the ciphertext and the tag. -/
def Sealing.parts (gcm : Gcm) (r : Sealing) : Bytes × Bytes :=
  gcm.encrypt r.key r.nonce r.aad r.plaintext

/-- The ideal cipher opens exactly the outputs of `seal` under the same key, nonce and additional
data, and returns their plaintext. -/
def ideal (gcm : Gcm) (table : List Sealing) : Decipher := fun key nonce aad body tag =>
  (table.find? fun r => decide (r.key = key ∧ r.nonce = nonce ∧ r.aad = aad ∧
    r.parts gcm = (body, tag))).map Sealing.plaintext

/-- What is opened was sealed. -/
theorem sealed_of_ideal {gcm : Gcm} {table : List Sealing} {key nonce aad body tag plaintext : Bytes}
    (h : ideal gcm table key nonce aad body tag = some plaintext) :
    ∃ r ∈ table, r.key = key ∧ r.nonce = nonce ∧ r.aad = aad ∧ r.parts gcm = (body, tag) ∧
      r.plaintext = plaintext := by
  obtain ⟨r, hfind, hplain⟩ := Option.map_eq_some_iff.mp h
  have hmatch := List.find?_some hfind
  rw [decide_eq_true_iff] at hmatch
  obtain ⟨hkey, hnonce, haad, hparts⟩ := hmatch
  exact ⟨r, List.mem_of_find?_eq_some hfind, hkey, hnonce, haad, hparts, hplain⟩

/-- What was sealed is opened, to this plaintext or that of another sealing with the same output. -/
theorem ideal_of_sealed {gcm : Gcm} {table : List Sealing} {r : Sealing} (hr : r ∈ table) :
    ∃ r' ∈ table, r'.key = r.key ∧ r'.nonce = r.nonce ∧ r'.aad = r.aad ∧
      r'.parts gcm = r.parts gcm ∧
      ideal gcm table r.key r.nonce r.aad (r.parts gcm).1 (r.parts gcm).2 = some r'.plaintext := by
  unfold ideal
  cases hfind : table.find? fun r' => decide (r'.key = r.key ∧ r'.nonce = r.nonce ∧
      r'.aad = r.aad ∧ r'.parts gcm = ((r.parts gcm).1, (r.parts gcm).2)) with
  | none =>
    have hmiss := List.find?_eq_none.mp hfind r hr
    exact absurd (decide_eq_true ⟨rfl, rfl, rfl, rfl⟩) hmiss
  | some r' =>
    have hmatch := List.find?_some hfind
    rw [decide_eq_true_iff] at hmatch
    obtain ⟨hkey, hnonce, haad, hparts⟩ := hmatch
    exact ⟨r', List.mem_of_find?_eq_some hfind, hkey, hnonce, haad, hparts, rfl⟩

end ScreenSharing.Crypto
