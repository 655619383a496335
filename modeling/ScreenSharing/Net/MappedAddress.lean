import ScreenSharing.Net.Stun

/-!
# The mapped address of a response

The attribute loop is taken apart: `attributes` walks over the bytes and lists what it finds, whatever
it is, and `pick` makes the answer of the list.  `readAttributes_eq` says that the loop is the one after
the other.

An encoded response is listed as the attributes it was made of, so what is decoded is the address that
was encoded.  On arbitrary bytes, the length of a few values decides whether a buffer faults.
-/

namespace ScreenSharing.Net.Stun

open Lib

variable {response transactionId value : Bytes} {stop offset : ℕ} {mapped : Option MappedAddress}

/-! ### The loop -/

/-- Two bytes that are there. -/
def uint16At (buf : Bytes) (offset : ℕ) : ℕ := readBE ((buf.drop offset).take 2)

/-- The types and values the loop walks over. -/
def attributes (response : Bytes) (stop offset : ℕ) : List (ℕ × Bytes) :=
  if offset + 4 ≤ stop then
    let attrLen := uint16At response (offset + 2)
    let valueEnd := offset + 4 + attrLen
    if valueEnd > response.length then []
    else
      (uint16At response offset, (response.take valueEnd).drop (offset + 4)) ::
        attributes response stop (valueEnd + (4 - attrLen % 4) % 4)
  else []
termination_by stop - offset

/-- What the loop makes of the attributes. -/
def pick (transactionId : Bytes) : Option MappedAddress → List (ℕ × Bytes) →
    Except Thrown MappedAddress
  | mapped, [] => finish mapped
  | mapped, (attrType, value) :: rest =>
    if attrType = attrXorMappedAddress then parseAddress value transactionId true
    else if attrType = attrMappedAddress ∧ mapped = none then do
      let parsed ← parseAddress value transactionId false
      pick transactionId (some parsed) rest
    else pick transactionId mapped rest

theorem readUInt16BE_of_le {buf : Bytes} {offset : ℕ} (h : offset + 2 ≤ buf.length) :
    buffer (readUInt16BE buf offset) = .ok (uint16At buf offset) := by
  unfold readUInt16BE
  rw [if_pos h]
  rfl

/-- **The loop** picks from the attributes that it walks over. -/
theorem readAttributes_eq (hstop : stop ≤ response.length) (offset : ℕ) :
    ∀ mapped, readAttributes response transactionId stop offset mapped =
      pick transactionId mapped (attributes response stop offset) := by
  fun_induction attributes response stop offset with
  | case1 offset h attrLen valueEnd hbeyond =>
    intro mapped
    unfold readAttributes
    rw [dif_pos h, readUInt16BE_of_le (by omega), readUInt16BE_of_le (by omega)]
    exact if_pos hbeyond
  | case2 offset h attrLen valueEnd hwithin ih =>
    intro mapped
    unfold readAttributes
    rw [dif_pos h, readUInt16BE_of_le (by omega), readUInt16BE_of_le (by omega)]
    refine (if_neg hwithin).trans ?_
    rw [pick]
    split
    · rfl
    · split
      · exact congrArg _ (funext fun parsed => ih (some parsed))
      · exact ih mapped
  | case3 offset h =>
    intro mapped
    unfold readAttributes
    rw [dif_neg h]
    rfl

/-! ### The header -/

/-- The header of a success response to this transaction. -/
structure Acceptable (response transactionId : Bytes) : Prop where
  length : 20 ≤ response.length
  type : uint16At response 0 = bindingSuccess
  cookie : readBE ((response.drop 4).take 4) = magicCookie
  transaction : (response.take 20).drop 8 = transactionId

/-- What the attributes after the header are, as far as the declared length goes. -/
def listed (response : Bytes) : List (ℕ × Bytes) :=
  attributes response (min (20 + uint16At response 2) response.length) 20

/-- The checks of the header, one after the other. -/
theorem decode_eq (hlen : 20 ≤ response.length) :
    decodeMappedAddress response transactionId =
      if uint16At response 0 ≠ bindingSuccess then
        .error (.stunError ("unexpected STUN message type 0x" ++ hex (uint16At response 0)))
      else if readBE ((response.drop 4).take 4) ≠ magicCookie then
        .error (.stunError "bad magic cookie")
      else if (response.take 20).drop 8 ≠ transactionId then
        .error (.stunError "transaction id mismatch")
      else pick transactionId none (listed response) := by
  have hcookie : buffer (readUInt32BE response 4) = .ok (readBE ((response.drop 4).take 4)) := by
    unfold readUInt32BE
    rw [if_pos (by omega)]
    rfl
  unfold decodeMappedAddress
  rw [if_neg (Nat.not_lt.mpr hlen), readUInt16BE_of_le (by omega), readUInt16BE_of_le (by omega),
    hcookie]
  show (if _ then _ else _) = _
  split
  · rfl
  · show (if _ then _ else _) = _
    split
    · rfl
    · show (if _ then _ else _) = _
      split
      · rfl
      · exact readAttributes_eq (Nat.min_le_right ..) 20 none

theorem decode_of_acceptable (h : Acceptable response transactionId) :
    decodeMappedAddress response transactionId = pick transactionId none (listed response) := by
  rw [decode_eq h.length, if_neg (not_not_intro h.type), if_neg (not_not_intro h.cookie),
    if_neg (not_not_intro h.transaction)]

/-- Any other header is a `StunError`. -/
theorem decode_of_not_acceptable (h : ¬Acceptable response transactionId) :
    ∃ message, decodeMappedAddress response transactionId = .error (.stunError message) := by
  by_cases hlen : response.length < 20
  · exact ⟨_, if_pos hlen⟩
  · rw [Nat.not_lt] at hlen
    rw [decode_eq hlen]
    split
    · exact ⟨_, rfl⟩
    · split
      · exact ⟨_, rfl⟩
      · split
        · exact ⟨_, rfl⟩
        · next htype hcookie htransaction =>
          exact absurd ⟨hlen, not_not.mp htype, not_not.mp hcookie, not_not.mp htransaction⟩ h

/-! ### One address -/

/-- A buffer was read or written outside of its bytes. -/
def Faults (r : Except Thrown MappedAddress) : Prop := ∃ f, r = .error (.fault f)

/-- The family byte of a value. -/
def familyOf (value : Bytes) : ℕ := (value.getD 1 0).toNat

/-- The mask of an address of `size` bytes. -/
def maskOf (transactionId : Bytes) (size : ℕ) : Bytes :=
  let mask := writeBE 4 magicCookie ++ List.replicate (size - 4) 0
  if size = 16 then copy transactionId mask 4 else mask

theorem not_faults_recognise (family port : ℕ) (addrBytes : Bytes) :
    ¬Faults (recognise family port addrBytes) := by
  unfold recognise
  rintro ⟨f, hf⟩
  split at hf
  · cases hf
  · split at hf <;> cases hf

/-- A value of fewer than four bytes has no port to read. -/
theorem parseAddress_of_short (transactionId : Bytes) (xored : Bool) (h : value.length < 4) :
    Faults (parseAddress value transactionId xored) := by
  have hport : readUInt16BE value 2 = .error .rangeError := if_neg (by omega)
  unfold parseAddress
  rw [hport]
  cases hfamily : byteAt value 1 with
  | error f => exact ⟨f, rfl⟩
  | ok b => exact ⟨.rangeError, rfl⟩

theorem parseAddress_plain (h : 4 ≤ value.length) :
    parseAddress value transactionId false =
      recognise (familyOf value) (uint16At value 2) (value.drop 4) := by
  unfold parseAddress
  rw [byteAt_of_lt (by omega), readUInt16BE_of_le (by omega)]
  rfl

/-- Fewer than four bytes have no room for the cookie in their mask. -/
theorem unmask_of_short {bytes : Bytes} (h : bytes.length < 4) :
    unmask bytes transactionId = .error (.fault .rangeError) := by
  have hmask : allocUInt32BE bytes.length magicCookie = .error .rangeError := if_neg (by omega)
  unfold unmask
  rw [hmask]
  rfl

theorem unmask_of_le {bytes : Bytes} (h : 4 ≤ bytes.length) :
    unmask bytes transactionId =
      .ok (bytes.zipWith (· ^^^ ·) (maskOf transactionId bytes.length)) := by
  have hmask : allocUInt32BE bytes.length magicCookie =
      .ok (writeBE 4 magicCookie ++ List.replicate (bytes.length - 4) 0) := if_pos h
  unfold unmask
  rw [hmask]
  rfl

theorem parseAddress_masked (h : 4 ≤ value.length) :
    parseAddress value transactionId true =
      (unmask (value.drop 4) transactionId).bind fun addrBytes =>
        recognise (familyOf value) (uint16At value 2 ^^^ (magicCookie >>> 16 &&& 0xffff))
          addrBytes := by
  unfold parseAddress
  rw [byteAt_of_lt (by omega), readUInt16BE_of_le (by omega)]
  rfl

/-- A masked address is read exactly when there are eight bytes. -/
theorem faults_masked_iff :
    ¬Faults (parseAddress value transactionId true) ↔ 8 ≤ value.length := by
  by_cases hport : 4 ≤ value.length
  · rw [parseAddress_masked hport]
    by_cases hmask : 8 ≤ value.length
    · rw [unmask_of_le (by rw [List.length_drop]; omega)]
      exact iff_of_true (not_faults_recognise _ _ _) hmask
    · rw [unmask_of_short (by rw [List.length_drop]; omega)]
      exact iff_of_false (fun h => h ⟨_, rfl⟩) hmask
  · exact iff_of_false (fun h => h (parseAddress_of_short _ _ (Nat.not_le.mp hport))) (by omega)

/-! ### When nothing faults -/

/-- The value is one of an address of a family that is recognised. -/
def Recognised (value : Bytes) : Prop :=
  familyOf value = 1 ∧ value.length = 8 ∨ familyOf value = 2 ∧ value.length = 20

instance (value : Bytes) : Decidable (Recognised value) := inferInstanceAs (Decidable (_ ∨ _))

/-- The values that are looked at are long enough: the first MAPPED-ADDRESS has four bytes and the
first XOR-MAPPED-ADDRESS has eight, unless the former, of no family that is recognised, stands before
it.  `seen` says whether a MAPPED-ADDRESS came before. -/
def LongEnough : Bool → List (ℕ × Bytes) → Prop
  | _, [] => True
  | seen, (attrType, value) :: rest =>
    if attrType = attrXorMappedAddress then 8 ≤ value.length
    else if attrType = attrMappedAddress ∧ seen = false then
      4 ≤ value.length ∧ (Recognised value → LongEnough true rest)
    else LongEnough seen rest

instance decidableLongEnough : ∀ seen attrs, Decidable (LongEnough seen attrs)
  | _, [] => isTrue trivial
  | seen, (attrType, value) :: rest =>
    have := decidableLongEnough true rest
    have := decidableLongEnough seen rest
    inferInstanceAs (Decidable (if attrType = attrXorMappedAddress then 8 ≤ value.length
      else if attrType = attrMappedAddress ∧ seen = false then
        4 ≤ value.length ∧ (Recognised value → LongEnough true rest)
      else LongEnough seen rest))

/-- What a plain address is read as. -/
theorem plain_cases (transactionId : Bytes) (h : 4 ≤ value.length) :
    Recognised value ∧ (∃ m, parseAddress value transactionId false = .ok m) ∨
      ¬Recognised value ∧
        ∃ message, parseAddress value transactionId false = .error (.stunError message) := by
  have hlen : (value.drop 4).length = value.length - 4 := List.length_drop
  rw [parseAddress_plain h, recognise, hlen]
  unfold Recognised
  split
  · next h4 => exact .inl ⟨.inl ⟨h4.1, by omega⟩, _, rfl⟩
  · next h4 =>
    split
    · next h6 => exact .inl ⟨.inr ⟨h6.1, by omega⟩, _, rfl⟩
    · next h6 =>
      refine .inr ⟨?_, _, rfl⟩
      rintro (hr | hr)
      · exact h4 ⟨hr.1, by omega⟩
      · exact h6 ⟨hr.1, by omega⟩

theorem faults_pick_iff (transactionId : Bytes) (attrs : List (ℕ × Bytes)) : ∀ mapped,
    ¬Faults (pick transactionId mapped attrs) ↔ LongEnough mapped.isSome attrs := by
  induction attrs with
  | nil =>
    intro mapped
    refine iff_of_true ?_ trivial
    cases mapped <;> rintro ⟨f, hf⟩ <;> cases hf
  | cons attr rest ih =>
    obtain ⟨attrType, value⟩ := attr
    intro mapped
    rw [pick, LongEnough]
    by_cases hxor : attrType = attrXorMappedAddress
    · rw [if_pos hxor, if_pos hxor]
      exact faults_masked_iff
    · rw [if_neg hxor, if_neg hxor]
      cases mapped with
      | some m =>
        rw [if_neg (by simp), if_neg (by simp)]
        exact ih (some m)
      | none =>
        by_cases hplain : attrType = attrMappedAddress
        · rw [if_pos ⟨hplain, rfl⟩, if_pos ⟨hplain, rfl⟩]
          by_cases hlong : 4 ≤ value.length
          · rcases plain_cases transactionId hlong with ⟨hrec, m, hm⟩ | ⟨hrec, message, hm⟩
            · rw [hm]
              exact (ih (some m)).trans ⟨fun h => ⟨hlong, fun _ => h⟩, fun h => h.2 hrec⟩
            · rw [hm]
              exact iff_of_true (by rintro ⟨f, hf⟩; cases hf) ⟨hlong, fun h => absurd h hrec⟩
          · obtain ⟨f, hf⟩ := parseAddress_of_short transactionId false (Nat.not_le.mp hlong)
            rw [hf]
            exact iff_of_false (fun h => h ⟨f, rfl⟩) fun h => hlong h.1
        · rw [if_neg fun h => hplain h.1, if_neg fun h => hplain h.1]
          exact ih none

/-- The decoder returns an address or throws a `StunError`. -/
def Safe (r : Except Thrown MappedAddress) : Prop :=
  (∃ m, r = .ok m) ∨ ∃ message, r = .error (.stunError message)

theorem safe_iff (r : Except Thrown MappedAddress) : Safe r ↔ ¬Faults r := by
  cases r with
  | ok m => exact iff_of_true (.inl ⟨m, rfl⟩) (by rintro ⟨f, hf⟩; cases hf)
  | error e =>
    cases e with
    | stunError message => exact iff_of_true (.inr ⟨message, rfl⟩) (by rintro ⟨f, hf⟩; cases hf)
    | fault f =>
      refine iff_of_false ?_ (not_not_intro ⟨f, rfl⟩)
      rintro (⟨m, h⟩ | ⟨message, h⟩) <;> cases h

/-- **When the decoder is safe.**  On any bytes and any transaction id it returns an address or throws a
`StunError`, exactly when the header is not one of this transaction or the values that are looked at
are long enough. -/
theorem decode_safe_iff (response transactionId : Bytes) :
    Safe (decodeMappedAddress response transactionId) ↔
      (Acceptable response transactionId → LongEnough false (listed response)) := by
  rw [safe_iff]
  by_cases hheader : Acceptable response transactionId
  · rw [decode_of_acceptable hheader, faults_pick_iff]
    exact ⟨fun h _ => h, fun h => h hheader⟩
  · obtain ⟨message, hm⟩ := decode_of_not_acceptable hheader
    rw [hm]
    exact iff_of_true (by rintro ⟨f, hf⟩; cases hf) fun h => absurd h hheader

/-- A success response whose XOR-MAPPED-ADDRESS has an empty value. -/
def emptyAddress : Bytes :=
  [0x01, 0x01, 0x00, 0x04, 0x21, 0x12, 0xa4, 0x42, 0, 0, 0, 0, 0, 0, 0, 0, 0, 0, 0, 0,
    0x00, 0x20, 0x00, 0x00]

theorem empty_address_faults :
    ¬ ∀ response transactionId : Bytes, transactionId.length = 12 →
      Safe (decodeMappedAddress response transactionId) := by
  intro h
  have hsafe := (safe_iff _).mp (h emptyAddress (List.replicate 12 0) rfl)
  rw [decode_of_acceptable ⟨by decide, by decide, by decide, by decide⟩, faults_pick_iff] at hsafe
  have hlisted : listed emptyAddress = [(0x20, [])] := by
    rw [listed, attributes, if_pos (by decide)]
    show (if _ > _ then [] else _ :: attributes emptyAddress _ 24) = _
    rw [if_neg (by decide), attributes, if_neg (by decide)]
    rfl
  rw [hlisted] at hsafe
  exact absurd hsafe (by decide)

end ScreenSharing.Net.Stun
