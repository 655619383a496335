import Mathlib.Data.List.Nodup
import ScreenSharing.Lib.Machine
import ScreenSharing.Net.FrameCodec

/-!
# Framing over an adversarial transport

`channel` is the four ends of a connection, an encoder and a decoder for each direction, over a
transport that is the adversary: a `deliver` hands any bytes whatever to a decoder.  The cipher is
ideal, and `sealed` is what it has sealed for each encoder.

The decoder accepts just the frames of its own encoder whose counter is new (`decode_outcome`), so
`Sound` holds in every run, and from it `framing_secure`: what a decoder returns is an ordered
selection of what its encoder sealed, everything if the transport is `Faithful`; a rejected frame is
as if it had not been delivered; and no nonce is used twice.
-/

namespace ScreenSharing.Net

open Lib Crypto

/-- The ends of a connection, and what has passed through them in each direction. -/
structure Channel where
  encoder : Direction → FrameEncoder
  decoder : Direction → FrameDecoder
  /-- what the encoder sealed -/
  sealed : Direction → List Sealing
  /-- the frames that `encode` returned -/
  frames : Direction → List Bytes
  /-- the frames that the transport handed to the decoder -/
  delivered : Direction → List Bytes
  /-- the plaintexts that `decode` returned -/
  returned : Direction → List Bytes

inductive ChannelEvent
  | encode (direction : Direction) (plaintext : Bytes)
  | deliver (direction : Direction) (frame : Bytes)

/-- The keys and the salts of the two directions. -/
structure ChannelKeys where
  key : Direction → Bytes
  salt : Direction → Bytes
  salt_length : ∀ d, 4 ≤ (salt d).length

def Channel.new (K : ChannelKeys) : Channel where
  encoder d := ⟨K.key d, K.salt d, d, 0, K.salt_length d⟩
  decoder d := ⟨K.key d, K.salt d, d, -1, K.salt_length d⟩
  sealed _ := []
  frames _ := []
  delivered _ := []
  returned _ := []

/-- All that was sealed. -/
def Channel.table (C : Channel) : List Sealing :=
  C.sealed .clientToServer ++ C.sealed .serverToClient

/-- What the decoder makes of a frame now. -/
def Channel.decode (gcm : Gcm) (C : Channel) (d : Direction) (frame : Bytes) :
    FrameDecoder × Except CodecError Bytes :=
  (C.decoder d).decode (ideal gcm C.table) frame

def channelStep (gcm : Gcm) (C : Channel) :
    ChannelEvent → Channel × List (Except CodecError Bytes)
  | .encode d plaintext =>
    match (C.encoder d).encode gcm plaintext with
    | (E, .error e) => ({ C with encoder := Function.update C.encoder d E }, [.error e])
    | (E, .ok frame) =>
      ({ C with
          encoder := Function.update C.encoder d E
          sealed := Function.update C.sealed d (C.sealed d ++ [(C.encoder d).sealing plaintext])
          frames := Function.update C.frames d (C.frames d ++ [frame]) }, [.ok frame])
  | .deliver d frame =>
    let C' := { C with delivered := Function.update C.delivered d (C.delivered d ++ [frame]) }
    match C.decode gcm d frame with
    | (D, .error e) => ({ C' with decoder := Function.update C.decoder d D }, [.error e])
    | (D, .ok plaintext) =>
      ({ C' with
          decoder := Function.update C.decoder d D
          returned := Function.update C.returned d (C.returned d ++ [plaintext]) },
        [.ok plaintext])

/-- The connection and its transport as a machine. -/
def channel (gcm : Gcm) : Machine Channel ChannelEvent (Except CodecError Bytes) where
  enabled _ _ := True
  step := channelStep gcm

variable {gcm : Gcm} {K : ChannelKeys} {C : Channel}

theorem mem_table {r : Sealing} : r ∈ C.table ↔ ∃ d, r ∈ C.sealed d := by
  unfold Channel.table
  rw [List.mem_append]
  constructor
  · rintro (h | h)
    · exact ⟨_, h⟩
    · exact ⟨_, h⟩
  · rintro ⟨_ | _, h⟩
    · exact .inl h
    · exact .inr h

/-! ### What holds in every run -/

/-- The sealing number `i` of a direction. -/
def sealingAt (K : ChannelKeys) (d : Direction) (i : ℕ) (plaintext : Bytes) : Sealing :=
  ⟨K.key d, nonce (K.salt d) ((header d i).drop 2), header d i, plaintext⟩

/-- What holds of one direction in every run. -/
structure SoundAt (gcm : Gcm) (K : ChannelKeys) (C : Channel) (d : Direction) : Prop where
  encoder : (C.encoder d).key = K.key d ∧ (C.encoder d).salt = K.salt d ∧ (C.encoder d).direction = d
  decoder : (C.decoder d).key = K.key d ∧ (C.decoder d).salt = K.salt d ∧
    (C.decoder d).expectedDirection = d
  sealed : ∀ i r, (C.sealed d)[i]? = some r →
    r = sealingAt K d i r.plaintext ∧ r.plaintext.length ≤ maxPlaintextBytes
  /-- with a key of the right length, the counter says how often `seal` was called -/
  counter : (K.key d).length = keyBytes → (C.encoder d).counter = (C.sealed d).length
  keyless : (K.key d).length ≠ keyBytes → C.sealed d = []
  bound : (C.sealed d).length ≤ maxU64 + 1
  frames : C.frames d = (C.sealed d).map (frameOf gcm)
  least : -1 ≤ (C.decoder d).lastCounter
  last : (C.decoder d).lastCounter < (C.sealed d).length
  returned : (C.returned d).Sublist
    (((C.sealed d).map Sealing.plaintext).take ((C.decoder d).lastCounter + 1).toNat)

/-- What holds in every run. -/
def Sound (gcm : Gcm) (K : ChannelKeys) (C : Channel) : Prop := ∀ d, SoundAt gcm K C d

theorem sound_new (gcm : Gcm) (K : ChannelKeys) : Sound gcm K (.new K) := fun d =>
  { encoder := ⟨rfl, rfl, rfl⟩
    decoder := ⟨rfl, rfl, rfl⟩
    sealed := fun i r h => by cases h
    counter := fun _ => rfl
    keyless := fun _ => rfl
    bound := Nat.zero_le _
    frames := rfl
    least := Int.le_refl _
    last := by
      show (-1 : ℤ) < 0
      decide
    returned := List.nil_sublist _ }

/-- What `SoundAt` says depends only on what belongs to the direction. -/
theorem SoundAt.congr {C' : Channel} {d : Direction} (h : SoundAt gcm K C d)
    (hencoder : C'.encoder d = C.encoder d) (hdecoder : C'.decoder d = C.decoder d)
    (hsealed : C'.sealed d = C.sealed d) (hframes : C'.frames d = C.frames d)
    (hreturned : C'.returned d = C.returned d) : SoundAt gcm K C' d where
  encoder := by rw [hencoder]; exact h.encoder
  decoder := by rw [hdecoder]; exact h.decoder
  sealed := by rw [hsealed]; exact h.sealed
  counter := by rw [hencoder, hsealed]; exact h.counter
  keyless := by rw [hsealed]; exact h.keyless
  bound := by rw [hsealed]; exact h.bound
  frames := by rw [hframes, hsealed]; exact h.frames
  least := by rw [hdecoder]; exact h.least
  last := by rw [hdecoder, hsealed]; exact h.last
  returned := by rw [hreturned, hsealed, hdecoder]; exact h.returned

/-! ### What a decoder accepts -/

theorem Sound.index_le (h : Sound gcm K C) {d : Direction} {i : ℕ} {r : Sealing}
    (hr : (C.sealed d)[i]? = some r) : i ≤ maxU64 := by
  have hlt := (List.getElem?_eq_some_iff.mp hr).1
  have hle := (h d).bound
  omega

/-- A genuine frame whose counter is new is accepted. -/
theorem decode_genuine (h : Sound gcm K C) {d : Direction} {i : ℕ} {r : Sealing}
    (hi : (C.sealed d)[i]? = some r) (hnew : (C.decoder d).lastCounter < (i : ℤ)) :
    C.decode gcm d (frameOf gcm r) =
      ({ C.decoder d with lastCounter := i }, .ok r.plaintext) := by
  obtain ⟨hkey, hsalt, hdir⟩ := (h d).decoder
  obtain ⟨hat, hplain⟩ := (h d).sealed i r hi
  have hle := h.index_le hi
  have hkeylen : (K.key d).length = keyBytes := by
    by_contra hne
    rw [(h d).keyless hne] at hi
    cases hi
  have haad : r.aad = header d i := by rw [hat]; rfl
  -- the cipher finds this sealing and no other one
  have hdecipher : ideal gcm C.table r.key r.nonce r.aad (r.parts gcm).1 (r.parts gcm).2 =
      some r.plaintext := by
    have hsealed : r ∈ C.table := mem_table.mpr ⟨d, List.mem_of_getElem? hi⟩
    obtain ⟨r', hr', -, -, haad', -, hopen⟩ : ∃ r' ∈ C.table, r'.key = r.key ∧
        r'.nonce = r.nonce ∧ r'.aad = r.aad ∧ r'.parts gcm = r.parts gcm ∧
        ideal gcm C.table r.key r.nonce r.aad (r.parts gcm).1 (r.parts gcm).2 =
          some r'.plaintext := ideal_of_sealed hsealed
    obtain ⟨d', hr'⟩ := mem_table.mp hr'
    obtain ⟨j, hj⟩ := List.getElem?_of_mem hr'
    have hheader : header d' j = header d i := by
      rw [← haad, ← haad', ((h d').sealed j r' hj).1]
      rfl
    obtain ⟨rfl, rfl⟩ := header_injective (h.index_le hj) hle hheader
    obtain rfl : r = r' := Option.some.inj (hi.symm.trans hj)
    exact hopen
  -- `r` is a sealing of the encoder when its counter was `i`
  let E : FrameEncoder := ⟨K.key d, K.salt d, d, i, K.salt_length d⟩
  have hsealing : E.sealing r.plaintext = r := hat.symm
  have hok := decode_frameOf (E := E) hkey hsalt hdir
    hkeylen hle hnew hplain (by rw [hsealing]; exact hdecipher)
  rw [hsealing] at hok
  exact hok

/-- **What a decoder accepts**: the frame of a sealing of its own direction whose counter is above
all those accepted before.  Any other frame leaves it as it is. -/
theorem decode_outcome (h : Sound gcm K C) (d : Direction) (frame : Bytes) :
    (∃ e, C.decode gcm d frame = (C.decoder d, .error e)) ∨
    ∃ (i : ℕ) (r : Sealing), (C.sealed d)[i]? = some r ∧ (C.decoder d).lastCounter < (i : ℤ) ∧
      frame = frameOf gcm r ∧
      C.decode gcm d frame = ({ C.decoder d with lastCounter := i }, .ok r.plaintext) := by
  rcases decode_cases (ideal gcm C.table) frame (C.decoder d) with ⟨e, herr⟩ |
    ⟨p, -, -, -, hbyte, hnew, hopen⟩
  · exact .inl ⟨e, herr⟩
  · obtain ⟨-, -, body, tag, hsplit, -, hdecipher⟩ := aeadOpen_eq_ok.mp hopen
    obtain ⟨r, hr, -, -, haad, hparts, -⟩ := sealed_of_ideal hdecipher
    obtain ⟨d', hr⟩ := mem_table.mp hr
    obtain ⟨i, hi⟩ := List.getElem?_of_mem hr
    have hat := ((h d').sealed i r hi).1
    have hframe : frame = frameOf gcm r := by
      unfold frameOf
      rw [haad, hparts, ← hsplit, List.take_append_drop]
    -- the header is that of the sealing, so the direction is the decoder's
    have hdirection : d' = d := by
      rw [hframe, hat, ((h d).decoder).2.2] at hbyte
      change d'.byte = d.byte at hbyte
      cases d' <;> cases d <;> first | rfl | exact absurd hbyte (by decide)
    subst hdirection
    have hcounter : readBE ((frame.drop 2).take 8) = i := by
      rw [hframe, hat]
      exact counter_frameOf gcm (E := ⟨K.key d', K.salt d', d', i, K.salt_length d'⟩)
        (h.index_le hi) _
    rw [hcounter] at hnew
    refine .inr ⟨i, r, hi, hnew, hframe, ?_⟩
    rw [hframe]
    exact decode_genuine h hi hnew

/-! ### One step -/

theorem next_encode_error {d : Direction} {plaintext : Bytes} {E : FrameEncoder} {e : CodecError}
    (heq : (C.encoder d).encode gcm plaintext = (E, .error e)) :
    (channel gcm).next C (.encode d plaintext) =
      { C with encoder := Function.update C.encoder d E } := by
  show (channelStep gcm C (.encode d plaintext)).1 = _
  rw [channelStep, heq]

theorem next_encode_ok {d : Direction} {plaintext frame : Bytes} {E : FrameEncoder}
    (heq : (C.encoder d).encode gcm plaintext = (E, .ok frame)) :
    (channel gcm).next C (.encode d plaintext) =
      { C with
        encoder := Function.update C.encoder d E
        sealed := Function.update C.sealed d (C.sealed d ++ [(C.encoder d).sealing plaintext])
        frames := Function.update C.frames d (C.frames d ++ [frame]) } := by
  show (channelStep gcm C (.encode d plaintext)).1 = _
  rw [channelStep, heq]

theorem next_deliver_error {d : Direction} {frame : Bytes} {e : CodecError}
    (heq : C.decode gcm d frame = (C.decoder d, .error e)) :
    (channel gcm).next C (.deliver d frame) =
      { C with delivered := Function.update C.delivered d (C.delivered d ++ [frame]) } := by
  show (channelStep gcm C (.deliver d frame)).1 = _
  rw [channelStep, heq]
  dsimp only
  rw [Function.update_eq_self]

theorem next_deliver_ok {d : Direction} {frame plaintext : Bytes} {D : FrameDecoder}
    (heq : C.decode gcm d frame = (D, .ok plaintext)) :
    (channel gcm).next C (.deliver d frame) =
      { C with
        decoder := Function.update C.decoder d D
        delivered := Function.update C.delivered d (C.delivered d ++ [frame])
        returned := Function.update C.returned d (C.returned d ++ [plaintext]) } := by
  show (channelStep gcm C (.deliver d frame)).1 = _
  rw [channelStep, heq]

/-- `encode` throws: nothing is sealed. -/
theorem sound_unsealed (h : Sound gcm K C) {d : Direction} {E : FrameEncoder}
    (hfields : E.key = K.key d ∧ E.salt = K.salt d ∧ E.direction = d)
    (hcounter : (K.key d).length = keyBytes → E.counter = (C.sealed d).length) :
    Sound gcm K { C with encoder := Function.update C.encoder d E } := by
  intro d'
  by_cases hd : d' = d
  · subst hd
    refine { h d' with encoder := ?_, counter := ?_ }
    · dsimp only
      rw [Function.update_self]
      exact hfields
    · dsimp only
      rw [Function.update_self]
      exact hcounter
  · exact (h d').congr (Function.update_of_ne hd _ _) rfl rfl rfl rfl

/-- A sealing is appended to those of its direction. -/
theorem sealed_append {d : Direction} (h : SoundAt gcm K C d) {plaintext : Bytes}
    (hlen : plaintext.length ≤ maxPlaintextBytes) {i : ℕ} {r : Sealing}
    (hr : (C.sealed d ++ [sealingAt K d (C.sealed d).length plaintext])[i]? = some r) :
    r = sealingAt K d i r.plaintext ∧ r.plaintext.length ≤ maxPlaintextBytes := by
  rcases Nat.lt_trichotomy i (C.sealed d).length with hlt | rfl | hgt
  · rw [List.getElem?_append_left hlt] at hr
    exact h.sealed i r hr
  · rw [List.getElem?_concat_length] at hr
    obtain rfl := Option.some.inj hr
    exact ⟨rfl, hlen⟩
  · rw [List.getElem?_eq_none (by rw [List.length_append, List.length_singleton]; omega)] at hr
    cases hr

/-- `encode` returns a frame: its sealing is the next one of its direction. -/
theorem sound_sealed (h : Sound gcm K C) {d : Direction} {plaintext : Bytes} {E : FrameEncoder}
    (hfields : E.key = K.key d ∧ E.salt = K.salt d ∧ E.direction = d)
    (hcounter : E.counter = (C.sealed d).length + 1) (hkey : (K.key d).length = keyBytes)
    (hlen : plaintext.length ≤ maxPlaintextBytes) (hcount : (C.sealed d).length ≤ maxU64) :
    Sound gcm K { C with
      encoder := Function.update C.encoder d E
      sealed := Function.update C.sealed d
        (C.sealed d ++ [sealingAt K d (C.sealed d).length plaintext])
      frames := Function.update C.frames d
        (C.frames d ++ [frameOf gcm (sealingAt K d (C.sealed d).length plaintext)]) } := by
  intro d'
  by_cases hd : d' = d
  · subst hd
    have hlast := (h d').last
    refine { h d' with encoder := ?_, sealed := ?_, counter := ?_, keyless := ?_, bound := ?_,
                       frames := ?_, last := ?_, returned := ?_ } <;> dsimp only <;>
      simp only [Function.update_self]
    · exact hfields
    · exact fun i r hr => sealed_append (h d') hlen hr
    · intro _
      rw [hcounter, List.length_append, List.length_singleton]
    · exact fun hbad => absurd hkey hbad
    · rw [List.length_append, List.length_singleton]
      omega
    · rw [List.map_append, (h d').frames]
      rfl
    · rw [List.length_append, List.length_singleton]
      omega
    · rw [List.map_append, List.take_append_of_le_length (by rw [List.length_map]; omega)]
      exact (h d').returned
  · exact (h d').congr (Function.update_of_ne hd _ _) rfl (Function.update_of_ne hd _ _)
      (Function.update_of_ne hd _ _) rfl

theorem sound_encode (h : Sound gcm K C) (d : Direction) (plaintext : Bytes) :
    Sound gcm K ((channel gcm).next C (.encode d plaintext)) := by
  obtain ⟨hkey, hsalt, hdir⟩ := (h d).encoder
  rcases encode_cases gcm plaintext (C.encoder d) with ⟨e, herr, hsame⟩ | ⟨hlen, hcount, hkeylen, heq⟩
  · rw [next_encode_error (E := ((C.encoder d).encode gcm plaintext).1) (e := e)
      (Prod.ext rfl herr)]
    rcases hsame with hsame | ⟨hbad, -, hsame⟩
    · rw [hsame]
      exact sound_unsealed h ⟨hkey, hsalt, hdir⟩ (h d).counter
    · -- the counter is taken, and then the key is refused
      rw [hsame]
      rw [hkey] at hbad
      exact sound_unsealed h ⟨hkey, hsalt, hdir⟩ fun hlen => absurd hlen hbad
  · rw [hkey] at hkeylen
    have hcounter := (h d).counter hkeylen
    have hnow : (C.encoder d).sealing plaintext = sealingAt K d (C.sealed d).length plaintext := by
      unfold FrameEncoder.sealing sealingAt
      rw [hkey, hsalt, hdir, hcounter]
    rw [next_encode_ok heq, hnow]
    exact sound_sealed h ⟨hkey, hsalt, hdir⟩ (congrArg (· + 1) hcounter) hkeylen hlen
      (hcounter ▸ hcount)

/-- The decoder accepts sealing number `i`, which comes after all those it has accepted. -/
theorem sound_accepted (h : Sound gcm K C) {d : Direction} {i : ℕ} {r : Sealing}
    (hi : (C.sealed d)[i]? = some r) (hnew : (C.decoder d).lastCounter < (i : ℤ))
    (delivered : Direction → List Bytes) :
    Sound gcm K { C with
      decoder := Function.update C.decoder d { C.decoder d with lastCounter := i }
      delivered := delivered
      returned := Function.update C.returned d (C.returned d ++ [r.plaintext]) } := by
  have hlt : i < (C.sealed d).length := (List.getElem?_eq_some_iff.mp hi).1
  intro d'
  by_cases hd : d' = d
  · subst hd
    refine { h d' with decoder := ?_, least := ?_, last := ?_, returned := ?_ } <;> dsimp only <;>
      simp only [Function.update_self]
    · exact (h d').decoder
    · omega
    · omega
    · have hi' : ((C.sealed d').map Sealing.plaintext)[i]? = some r.plaintext := by
        rw [List.getElem?_map, hi]
        rfl
      -- the new plaintext is number `i`, and those of before are among the first `i`
      rw [show ((i : ℤ) + 1).toNat = i + 1 by omega, List.take_add_one, hi']
      refine List.Sublist.append ((h d').returned.trans ?_) (List.Sublist.refl _)
      have hleast := (h d').least
      exact List.take_sublist_take_left (by omega)
  · exact (h d').congr rfl (Function.update_of_ne hd _ _) rfl rfl (Function.update_of_ne hd _ _)

theorem sound_deliver (h : Sound gcm K C) (d : Direction) (frame : Bytes) :
    Sound gcm K ((channel gcm).next C (.deliver d frame)) := by
  rcases decode_outcome h d frame with ⟨e, heq⟩ | ⟨i, r, hi, hnew, -, heq⟩
  · rw [next_deliver_error heq]
    exact fun d' => (h d').congr rfl rfl rfl rfl rfl
  · rw [next_deliver_ok heq]
    exact sound_accepted h hi hnew _

/-- **One step**, of the ends or of the adversary. -/
theorem sound_next (h : Sound gcm K C) (e : ChannelEvent) :
    Sound gcm K ((channel gcm).next C e) := by
  cases e with
  | encode d plaintext => exact sound_encode h d plaintext
  | deliver d frame => exact sound_deliver h d frame

/-- **Every run** of the ends and the adversary. -/
theorem sound_exec (h : Sound gcm K C) (es : List ChannelEvent) :
    Sound gcm K ((channel gcm).exec C es) := by
  induction es generalizing C with
  | nil => exact h
  | cons e es ih => exact ih (sound_next h e)

/-! ### No nonce twice -/

theorem nonces_nodup (h : Sound gcm K C) (d : Direction) :
    ((C.sealed d).map Sealing.nonce).Nodup := by
  rw [List.nodup_iff_getElem?_ne_getElem?]
  intro i j hij hj heq
  rw [List.length_map] at hj
  rw [List.getElem?_map, List.getElem?_map] at heq
  obtain ⟨r, hr⟩ : ∃ r, (C.sealed d)[i]? = some r := ⟨_, List.getElem?_eq_getElem (by omega)⟩
  obtain ⟨r', hr'⟩ : ∃ r, (C.sealed d)[j]? = some r := ⟨_, List.getElem?_eq_getElem hj⟩
  rw [hr, hr', Option.map_some, Option.map_some, Option.some.injEq, ((h d).sealed i r hr).1,
    ((h d).sealed j r' hr').1] at heq
  have hsame := nonce_injective (h.index_le hr) (h.index_le hr') heq
  omega

/-! ### A faithful transport -/

/-- The transport hands the frames of one direction over in order and unchanged. -/
def Faithful (d : Direction) (C : Channel) : ChannelEvent → Prop
  | .deliver d' frame => d' = d → (C.frames d)[(C.delivered d).length]? = some frame
  | .encode _ _ => True

/-- What has been delivered is what has been accepted. -/
structure InOrder (d : Direction) (C : Channel) : Prop where
  last : (C.decoder d).lastCounter + 1 = (C.delivered d).length
  all : C.returned d = ((C.sealed d).map Sealing.plaintext).take (C.delivered d).length

theorem inOrder_next (h : Sound gcm K C) {d : Direction} (ho : InOrder d C) {e : ChannelEvent}
    (hf : Faithful d C e) : InOrder d ((channel gcm).next C e) := by
  cases e with
  | encode d' plaintext =>
    rcases encode_cases gcm plaintext (C.encoder d') with ⟨e, herr, -⟩ | ⟨-, -, -, heq⟩
    · rw [next_encode_error (E := ((C.encoder d').encode gcm plaintext).1) (e := e)
        (Prod.ext rfl herr)]
      exact ⟨ho.last, ho.all⟩
    · rw [next_encode_ok heq]
      refine ⟨ho.last, ?_⟩
      dsimp only
      rw [ho.all]
      by_cases hd : d = d'
      · subst hd
        have hlast := (h d).last
        have hlen := ho.last
        rw [Function.update_self, List.map_append,
          List.take_append_of_le_length (by rw [List.length_map]; omega)]
      · rw [Function.update_of_ne hd]
  | deliver d' frame =>
    by_cases hd : d' = d
    · subst hd
      have hframe := hf rfl
      rw [(h d').frames, List.getElem?_map, Option.map_eq_some_iff] at hframe
      obtain ⟨r, hr, rfl⟩ := hframe
      have hlast := ho.last
      rw [next_deliver_ok (decode_genuine h hr (by omega))]
      constructor
      · dsimp only
        rw [Function.update_self, Function.update_self, List.length_append, List.length_singleton]
        push_cast
        rfl
      · dsimp only
        have hplain : ((C.sealed d').map Sealing.plaintext)[(C.delivered d').length]? =
            some r.plaintext := by
          rw [List.getElem?_map, hr]
          rfl
        rw [Function.update_self, Function.update_self, List.length_append, List.length_singleton,
          List.take_add_one, hplain, ho.all]
        rfl
    · have hd' : d ≠ d' := fun heq => hd heq.symm
      rcases decode_outcome h d' frame with ⟨e, heq⟩ | ⟨i, r, -, -, -, heq⟩
      · rw [next_deliver_error heq]
        constructor
        · dsimp only
          rw [Function.update_of_ne hd']
          exact ho.last
        · dsimp only
          rw [Function.update_of_ne hd']
          exact ho.all
      · rw [next_deliver_ok heq]
        constructor
        · dsimp only
          rw [Function.update_of_ne hd', Function.update_of_ne hd']
          exact ho.last
        · dsimp only
          rw [Function.update_of_ne hd', Function.update_of_ne hd']
          exact ho.all

/-! ### A rejected frame -/

/-- The ends, without the record of what was delivered. -/
def Channel.ends (C : Channel) : Channel := { C with delivered := fun _ => [] }

theorem ends_next (gcm : Gcm) (C : Channel) (e : ChannelEvent) :
    ((channel gcm).next C e).ends = ((channel gcm).next C.ends e).ends := by
  cases e with
  | encode d plaintext =>
    show (channelStep gcm C _).1.ends = (channelStep gcm C.ends _).1.ends
    unfold channelStep
    dsimp only [Channel.ends]
    split <;> rfl
  | deliver d frame =>
    show (channelStep gcm C _).1.ends = (channelStep gcm C.ends _).1.ends
    have hsame : C.ends.decode gcm d frame = C.decode gcm d frame := rfl
    rw [channelStep, channelStep, hsame]
    obtain ⟨D, _ | plaintext⟩ := C.decode gcm d frame <;> rfl

theorem ends_exec (gcm : Gcm) (es : List ChannelEvent) : ∀ C C' : Channel, C.ends = C'.ends →
    ((channel gcm).exec C es).ends = ((channel gcm).exec C' es).ends := by
  induction es with
  | nil => exact fun C C' h => h
  | cons e es ih =>
    intro C C' h
    refine ih _ _ ?_
    rw [ends_next, h, ← ends_next]

/-- The decoder rejects the frame. -/
def Rejected (gcm : Gcm) (C : Channel) (d : Direction) (frame : Bytes) : Prop :=
  ∃ e, (C.decode gcm d frame).2 = .error e

/-- **A rejected frame** leaves the decoder as it is, and whatever happens afterwards happens as if it
had not been delivered. -/
theorem rejected_harmless (h : Sound gcm K C) {d : Direction} {frame : Bytes}
    (hrejected : Rejected gcm C d frame) :
    ((channel gcm).next C (.deliver d frame)).decoder = C.decoder ∧
      ∀ es, ((channel gcm).exec ((channel gcm).next C (.deliver d frame)) es).returned =
        ((channel gcm).exec C es).returned := by
  obtain ⟨e, herr⟩ := hrejected
  have heq : C.decode gcm d frame = (C.decoder d, .error e) := by
    rcases decode_outcome h d frame with ⟨e', heq⟩ | ⟨i, r, -, -, -, heq⟩
    · rw [heq] at herr ⊢
      rw [Except.error.inj herr]
    · rw [heq] at herr
      cases herr
  rw [next_deliver_error heq]
  refine ⟨rfl, fun es => ?_⟩
  have hends := ends_exec gcm es
    { C with delivered := Function.update C.delivered d (C.delivered d ++ [frame]) } C rfl
  have hreturned := congrArg Channel.returned hends
  exact hreturned

/-! ### Every run -/

/-- **Secure framing.**  In every run of two encoders and two decoders over an adversary: what a
decoder has returned is an ordered selection, without repetition, of what its encoder sealed; over a
transport that is faithful to the direction it is all of what was delivered, and everything when all
is delivered; a rejected frame does no harm; and no encoder seals twice under one nonce, of which
there are `2 ^ 64`. -/
theorem framing_secure (gcm : Gcm) (K : ChannelKeys) (es : List ChannelEvent) :
    let C := (channel gcm).exec (.new K) es
    (∀ d, (C.returned d).Sublist ((C.sealed d).map Sealing.plaintext)) ∧
    (∀ d, (channel gcm).Along (Faithful d) (.new K) es →
      C.returned d = ((C.sealed d).map Sealing.plaintext).take (C.delivered d).length ∧
        (C.delivered d = C.frames d → C.returned d = (C.sealed d).map Sealing.plaintext)) ∧
    (∀ d frame, Rejected gcm C d frame →
      ((channel gcm).next C (.deliver d frame)).decoder = C.decoder ∧
        ∀ es', ((channel gcm).exec ((channel gcm).next C (.deliver d frame)) es').returned =
          ((channel gcm).exec C es').returned) ∧
    ∀ d, ((C.sealed d).map Sealing.nonce).Nodup ∧ (C.sealed d).length ≤ 2 ^ 64 := by
  intro C
  have h : Sound gcm K C := sound_exec (sound_new gcm K) es
  refine ⟨fun d => ((h d).returned).trans (List.take_sublist _ _), fun d hfaithful => ?_,
    fun d frame => rejected_harmless h, fun d => ⟨nonces_nodup h d, (h d).bound⟩⟩
  have ho : Sound gcm K C ∧ InOrder d C := by
    refine Machine.exec_invariant (I := fun C => Sound gcm K C ∧ InOrder d C)
      (fun C e hI hf => ⟨sound_next hI.1 e, inOrder_next hI.1 hI.2 hf⟩) hfaithful
      ⟨sound_new gcm K, rfl, rfl⟩
  refine ⟨ho.2.all, fun hall => ?_⟩
  rw [ho.2.all, hall, (h d).frames, List.length_map]
  exact List.take_of_length_le (Nat.le_of_eq (List.length_map _))

/-- A key and a salt for each direction. -/
def plainKeys : ChannelKeys where
  key _ := List.replicate 32 7
  salt _ := List.replicate 4 9
  salt_length _ := by decide

/-- A message is framed, a forgery is delivered the other way, and the frame is delivered. -/
def oneMessageRun : List ChannelEvent :=
  [.encode .clientToServer [104, 105], .deliver .serverToClient [1, 2, 3],
    .deliver .clientToServer (frameOf default (sealingAt plainKeys .clientToServer 0 [104, 105]))]

theorem framing_secure_oneMessageRun :
    ((channel default).exec (.new plainKeys) oneMessageRun).returned .clientToServer =
      [[104, 105]] := by
  have hall := ((framing_secure default plainKeys oneMessageRun).2.1 .clientToServer
    ⟨trivial, fun h => (by cases h), fun _ => rfl, trivial⟩).1
  exact hall.trans rfl

end ScreenSharing.Net
