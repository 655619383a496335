import ScreenSharing.Crypto.Aead

/-!
# Authenticated framing

One message of the control plane is one frame: ten bytes of header, which are the version, the
direction and a counter, and the sealed payload.  The header is the additional data, and the counter
is part of the nonce.

`FrameEncoder` and `FrameDecoder` hold the fields of the classes of these names.  Their constructors
refuse a short salt, which is a field of the structures.
-/

namespace ScreenSharing.Net

open Lib Crypto

def frameVersion : UInt8 := 1
def headerBytes : ℕ := 10
def maxPlaintextBytes : ℕ := 256 * 1024
def maxU64 : ℕ := 2 ^ 64 - 1

inductive Direction
  | clientToServer
  | serverToClient
  deriving DecidableEq

def Direction.byte : Direction → UInt8
  | .clientToServer => 1
  | .serverToClient => 2

/-- What `encode` and `decode` throw. -/
inductive CodecError
  | frame (message : String)
  | replay (message : String)
  | aead (e : AeadError)
  deriving DecidableEq

def header (direction : Direction) (counter : ℕ) : Bytes :=
  frameVersion :: direction.byte :: writeBE 8 counter

/-- `nonce`, of at least four bytes of salt and eight bytes of counter. -/
def nonce (nonceSalt counterBytes : Bytes) : Bytes := nonceSalt.take 4 ++ counterBytes.take 8

structure FrameEncoder where
  key : Bytes
  salt : Bytes
  direction : Direction
  counter : ℕ
  salt_length : 4 ≤ salt.length

def FrameEncoder.new (key nonceSalt : Bytes) (direction : Direction) :
    Except CodecError FrameEncoder :=
  if h : 4 ≤ nonceSalt.length then .ok ⟨key, nonceSalt, direction, 0, h⟩
  else .error (.frame "nonce salt must be >= 4 bytes")

def FrameEncoder.encode (gcm : Gcm) (plaintext : Bytes) (E : FrameEncoder) :
    FrameEncoder × Except CodecError Bytes :=
  if plaintext.length > maxPlaintextBytes then
    (E, .error (.frame ("plaintext " ++ toString plaintext.length ++ " exceeds frame limit")))
  else if E.counter > maxU64 then (E, .error (.frame "frame counter exhausted"))
  else
    let E' := { E with counter := E.counter + 1 }
    let h := header E.direction E.counter
    match aeadSeal gcm E.key (nonce E.salt (h.drop 2)) plaintext h with
    | .error e => (E', .error (.aead e))
    | .ok sealed => (E', .ok (h ++ sealed))

structure FrameDecoder where
  key : Bytes
  salt : Bytes
  expectedDirection : Direction
  lastCounter : ℤ
  salt_length : 4 ≤ salt.length

def FrameDecoder.new (key nonceSalt : Bytes) (expectedDirection : Direction) :
    Except CodecError FrameDecoder :=
  if h : 4 ≤ nonceSalt.length then .ok ⟨key, nonceSalt, expectedDirection, -1, h⟩
  else .error (.frame "nonce salt must be >= 4 bytes")

def FrameDecoder.decode (decipher : Decipher) (frame : Bytes) (D : FrameDecoder) :
    FrameDecoder × Except CodecError Bytes :=
  if frame.length < headerBytes + 16 then (D, .error (.frame "frame shorter than header + tag"))
  else if frame.getD 0 0 ≠ frameVersion then (D, .error (.frame "unknown frame version"))
  else if frame.getD 1 0 ≠ D.expectedDirection.byte then
    (D, .error (.frame "unexpected frame direction"))
  else
    let counter := readBE ((frame.drop 2).take 8)
    if (counter : ℤ) ≤ D.lastCounter then
      (D, .error (.replay ("frame counter " ++ toString counter ++ " did not advance")))
    else
      let h := frame.take headerBytes
      match aeadOpen decipher D.key (nonce D.salt ((frame.take headerBytes).drop 2))
          (frame.drop headerBytes) h with
      | .error e => (D, .error (.aead e))
      | .ok plaintext =>
        if plaintext.length > maxPlaintextBytes then
          (D, .error (.frame "decoded plaintext exceeds frame limit"))
        else ({ D with lastCounter := counter }, .ok plaintext)

/-! ### Headers and nonces -/

@[simp] theorem length_header (direction : Direction) (counter : ℕ) :
    (header direction counter).length = headerBytes := by
  show (writeBE 8 counter).length + 1 + 1 = 10
  rw [length_writeBE]

/-- **A header determines** the direction and, below the limit, the counter. -/
theorem header_injective {d d' : Direction} {c c' : ℕ} (hc : c ≤ maxU64) (hc' : c' ≤ maxU64)
    (h : header d c = header d' c') : d = d' ∧ c = c' := by
  have hbyte : d.byte = d'.byte := (List.cons.inj (List.cons.inj h).2).1
  have hcounter : writeBE 8 c = writeBE 8 c' := (List.cons.inj (List.cons.inj h).2).2
  unfold maxU64 at hc hc'
  refine ⟨?_, writeBE_injective (by omega) (by omega) hcounter⟩
  cases d <;> cases d' <;> first | rfl | exact absurd hbyte (by decide)

theorem length_nonce {salt : Bytes} (hsalt : 4 ≤ salt.length) (d : Direction) (c : ℕ) :
    (nonce salt ((header d c).drop 2)).length = nonceBytes := by
  show (salt.take 4 ++ (writeBE 8 c).take 8).length = 12
  rw [List.length_append, List.length_take, List.length_take, length_writeBE]
  omega

theorem nonce_injective {salt : Bytes} {d d' : Direction} {c c' : ℕ} (hc : c ≤ maxU64)
    (hc' : c' ≤ maxU64)
    (h : nonce salt ((header d c).drop 2) = nonce salt ((header d' c').drop 2)) : c = c' := by
  have hcounter : (writeBE 8 c).take 8 = (writeBE 8 c').take 8 := List.append_cancel_left h
  rw [List.take_of_length_le (Nat.le_of_eq (length_writeBE 8 c)),
    List.take_of_length_le (Nat.le_of_eq (length_writeBE 8 c'))] at hcounter
  unfold maxU64 at hc hc'
  exact writeBE_injective (by omega) (by omega) hcounter

/-! ### What the codec does -/

/-- What `encode` seals. -/
def FrameEncoder.sealing (E : FrameEncoder) (plaintext : Bytes) : Sealing :=
  let h := header E.direction E.counter
  ⟨E.key, nonce E.salt (h.drop 2), h, plaintext⟩

/-- The frame that carries a sealing. -/
def frameOf (gcm : Gcm) (r : Sealing) : Bytes := r.aad ++ ((r.parts gcm).1 ++ (r.parts gcm).2)

/-- **`encode`** fails, without sealing anything, or counts and emits the frame of its sealing. -/
theorem encode_cases (gcm : Gcm) (plaintext : Bytes) (E : FrameEncoder) :
    (∃ e, (E.encode gcm plaintext).2 = .error e ∧ ((E.encode gcm plaintext).1 = E ∨
      E.key.length ≠ keyBytes ∧ E.counter ≤ maxU64 ∧
        (E.encode gcm plaintext).1 = { E with counter := E.counter + 1 })) ∨
    (plaintext.length ≤ maxPlaintextBytes ∧ E.counter ≤ maxU64 ∧ E.key.length = keyBytes ∧
      E.encode gcm plaintext =
        ({ E with counter := E.counter + 1 }, .ok (frameOf gcm (E.sealing plaintext)))) := by
  unfold FrameEncoder.encode
  split
  · exact .inl ⟨_, rfl, .inl rfl⟩
  · next hlen =>
    split
    · exact .inl ⟨_, rfl, .inl rfl⟩
    · next hcount =>
      dsimp only
      by_cases hkey : E.key.length = keyBytes
      · rw [aeadSeal_eq_ok gcm _ _ hkey (length_nonce E.salt_length _ _)]
        exact .inr ⟨Nat.le_of_not_lt hlen, Nat.le_of_not_lt hcount, hkey, rfl⟩
      · rw [aeadSeal_eq_error gcm _ _ _ hkey]
        exact .inl ⟨_, rfl, .inr ⟨hkey, Nat.le_of_not_lt hcount, rfl⟩⟩

/-- A plaintext and a counter within the limits are encoded. -/
theorem encode_eq_ok (gcm : Gcm) {plaintext : Bytes} {E : FrameEncoder}
    (hlen : plaintext.length ≤ maxPlaintextBytes) (hcount : E.counter ≤ maxU64)
    (hkey : E.key.length = keyBytes) : E.encode gcm plaintext =
      ({ E with counter := E.counter + 1 }, .ok (frameOf gcm (E.sealing plaintext))) := by
  unfold FrameEncoder.encode
  rw [if_neg (Nat.not_lt.mpr hlen), if_neg (Nat.not_lt.mpr hcount)]
  dsimp only
  rw [aeadSeal_eq_ok gcm _ _ hkey (length_nonce E.salt_length _ _)]
  rfl

/-- **`decode`** fails and leaves the decoder alone, or accepts a frame whose counter is new. -/
theorem decode_cases (decipher : Decipher) (frame : Bytes) (D : FrameDecoder) :
    (∃ e, D.decode decipher frame = (D, .error e)) ∨
    ∃ plaintext, D.decode decipher frame =
        ({ D with lastCounter := readBE ((frame.drop 2).take 8) }, .ok plaintext) ∧
      headerBytes + 16 ≤ frame.length ∧ frame.getD 0 0 = frameVersion ∧
      frame.getD 1 0 = D.expectedDirection.byte ∧
      D.lastCounter < (readBE ((frame.drop 2).take 8) : ℤ) ∧
      aeadOpen decipher D.key (nonce D.salt ((frame.take headerBytes).drop 2))
        (frame.drop headerBytes) (frame.take headerBytes) = .ok plaintext := by
  unfold FrameDecoder.decode
  split
  · exact .inl ⟨_, rfl⟩
  · next hlen =>
    split
    · exact .inl ⟨_, rfl⟩
    · next hversion =>
      split
      · exact .inl ⟨_, rfl⟩
      · next hdirection =>
        dsimp only
        split
        · exact .inl ⟨_, rfl⟩
        · next hcounter =>
          split
          · exact .inl ⟨_, rfl⟩
          · next plaintext hopen =>
            split
            · exact .inl ⟨_, rfl⟩
            · exact .inr ⟨plaintext, rfl, Nat.le_of_not_lt hlen, not_not.mp hversion,
                not_not.mp hdirection, Int.lt_of_not_ge hcounter, hopen⟩

/-- A frame that passes every check is accepted. -/
theorem decode_eq_ok {decipher : Decipher} {frame plaintext : Bytes} {D : FrameDecoder}
    (hlen : headerBytes + 16 ≤ frame.length) (hversion : frame.getD 0 0 = frameVersion)
    (hdirection : frame.getD 1 0 = D.expectedDirection.byte)
    (hcounter : D.lastCounter < (readBE ((frame.drop 2).take 8) : ℤ))
    (hopen : aeadOpen decipher D.key (nonce D.salt ((frame.take headerBytes).drop 2))
      (frame.drop headerBytes) (frame.take headerBytes) = .ok plaintext)
    (hplain : plaintext.length ≤ maxPlaintextBytes) :
    D.decode decipher frame =
      ({ D with lastCounter := readBE ((frame.drop 2).take 8) }, .ok plaintext) := by
  unfold FrameDecoder.decode
  rw [if_neg (Nat.not_lt.mpr hlen), if_neg (not_not.mpr hversion), if_neg (not_not.mpr hdirection)]
  dsimp only
  rw [if_neg (Int.not_le.mpr hcounter), hopen]
  exact if_neg (Nat.not_lt.mpr hplain)

/-! ### A decoder of the same keys -/

variable {gcm : Gcm}

theorem length_frameOf (r : Sealing) :
    (frameOf gcm r).length = r.aad.length + (r.parts gcm).1.length + tagBytes := by
  unfold frameOf
  rw [List.length_append, List.length_append, Sealing.parts, gcm.tag_length]
  omega

/-- The header of a frame, read back. -/
theorem counter_frameOf (gcm : Gcm) {E : FrameEncoder} (hcount : E.counter ≤ maxU64)
    (plaintext : Bytes) :
    readBE (((frameOf gcm (E.sealing plaintext)).drop 2).take 8) = E.counter := by
  have hcounter : ((frameOf gcm (E.sealing plaintext)).drop 2).take 8 = writeBE 8 E.counter := by
    show (writeBE 8 E.counter ++ _).take 8 = writeBE 8 E.counter
    exact List.take_left' (length_writeBE 8 E.counter)
  rw [hcounter]
  unfold maxU64 at hcount
  exact readBE_writeBE (by omega)

/-- **A frame is accepted** by a decoder of the same keys and direction if its counter is new and the
cipher opens it. -/
theorem decode_frameOf {decipher : Decipher} {D : FrameDecoder} {E : FrameEncoder}
    {plaintext : Bytes} (hkey : D.key = E.key) (hsalt : D.salt = E.salt)
    (hdir : D.expectedDirection = E.direction) (hkeylen : E.key.length = keyBytes)
    (hcount : E.counter ≤ maxU64) (hnew : D.lastCounter < (E.counter : ℤ))
    (hplain : plaintext.length ≤ maxPlaintextBytes)
    (hopens : decipher (E.sealing plaintext).key (E.sealing plaintext).nonce
      (E.sealing plaintext).aad ((E.sealing plaintext).parts gcm).1
      ((E.sealing plaintext).parts gcm).2 = some plaintext) :
    D.decode decipher (frameOf gcm (E.sealing plaintext)) =
      ({ D with lastCounter := E.counter }, .ok plaintext) := by
  have haad : (E.sealing plaintext).aad = header E.direction E.counter := rfl
  have htake : (frameOf gcm (E.sealing plaintext)).take headerBytes =
      header E.direction E.counter := by
    unfold frameOf
    rw [haad]
    exact List.take_left' (length_header _ _)
  have hdrop : (frameOf gcm (E.sealing plaintext)).drop headerBytes =
      ((E.sealing plaintext).parts gcm).1 ++ ((E.sealing plaintext).parts gcm).2 := by
    unfold frameOf
    rw [haad]
    exact List.drop_left' (length_header _ _)
  have hopen : aeadOpen decipher D.key
      (nonce D.salt (((frameOf gcm (E.sealing plaintext)).take headerBytes).drop 2))
      ((frameOf gcm (E.sealing plaintext)).drop headerBytes)
      ((frameOf gcm (E.sealing plaintext)).take headerBytes) = .ok plaintext := by
    rw [htake, hdrop, hkey, hsalt]
    refine aeadOpen_eq_ok.mpr ⟨hkeylen, length_nonce E.salt_length _ _, _, _, rfl, ?_, hopens⟩
    rw [Sealing.parts, gcm.tag_length]
  have hlen : headerBytes + 16 ≤ (frameOf gcm (E.sealing plaintext)).length := by
    rw [length_frameOf, haad, length_header]
    show 10 + 16 ≤ 10 + _ + 16
    omega
  have hversion : (frameOf gcm (E.sealing plaintext)).getD 0 0 = frameVersion := rfl
  have hbyte : (frameOf gcm (E.sealing plaintext)).getD 1 0 = D.expectedDirection.byte := by
    rw [hdir]
    rfl
  have hcounter := counter_frameOf gcm hcount plaintext
  have hok := decode_eq_ok hlen hversion hbyte (by rw [hcounter]; exact hnew) hopen hplain
  rw [hcounter] at hok
  exact hok

end ScreenSharing.Net
