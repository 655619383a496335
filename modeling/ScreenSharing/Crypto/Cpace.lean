import Mathlib.GroupTheory.OrderOfElement
import ScreenSharing.Crypto.Lv

/-!
# CPace

The password-authenticated key exchange of the two sides, with the confirmation of the key on top.
The password key and the public binding make the generator of a group of prime order; each side
multiplies it by a scalar of its own and sends the product, its share; the product of the other
side's share and one's own scalar is the secret from which the session key `isk` is hashed.  The
MACs are of the transcript, under a key derived from `isk`, with the role in front.

The group and the primitives are parameters, in the record `Primitives`, where no generator is the
identity.  Two further properties are asked for only where they are used: that the outputs have their
lengths (`Sized`), and that the hash, the key derivation and the MAC are injective (`Ideal`), which
is their idealisation.
-/

namespace ScreenSharing.Crypto

open Lib

def sidBytes : ℕ := 16
def pointBytes : ℕ := 32

/-- The group and the primitives. -/
structure Primitives (P : Type*) [AddCommGroup P] where
  order : ℕ
  order_prime : order.Prime
  card : Nat.card P = order
  /-- `toBytes` of a point -/
  encode : P → Bytes
  /-- `Point.fromBytes`; `none` is an exception -/
  decode : Bytes → Option P
  decode_encode : ∀ p, decode (encode p) = some p
  length_encode : ∀ p, (encode p).length = pointBytes
  deriveToCurve : Bytes → P
  deriveToCurve_ne_zero : ∀ msg, deriveToCurve msg ≠ 0
  sha512 : Bytes → Bytes
  /-- `hkdf` with SHA-512 and no salt -/
  hkdf : Bytes → Bytes → ℕ → Bytes
  /-- `hmac` with SHA-256 -/
  hmac : Bytes → Bytes → Bytes

/-- The lengths of what is derived. -/
structure Primitives.Sized {P : Type*} [AddCommGroup P] (prim : Primitives P) : Prop where
  length_hkdf : ∀ ikm info n, (prim.hkdf ikm info n).length = n
  length_hmac : ∀ key msg, (prim.hmac key msg).length = 32

/-- No collisions. -/
structure Primitives.Ideal {P : Type*} [AddCommGroup P] (prim : Primitives P) : Prop where
  sha512_injective : Function.Injective prim.sha512
  hkdf_injective : ∀ {ikm ikm' info n}, prim.hkdf ikm info n = prim.hkdf ikm' info n → ikm = ikm'
  hmac_injective : ∀ {key key' msg msg'},
    prim.hmac key msg = prim.hmac key' msg' → key = key' ∧ msg = msg'

/-- `utf8ToBytes`. -/
def utf8ToBytes (s : String) : Bytes := s.toList.flatMap String.utf8EncodeChar

/-- `expandKey`. -/
def expandKey {P : Type*} [AddCommGroup P] (prim : Primitives P) (ikm : Bytes) (info : String)
    (length : ℕ) : Bytes :=
  prim.hkdf ikm (utf8ToBytes ("erros-share/" ++ info)) length

structure CpaceError where
  message : String
  deriving DecidableEq

structure CpaceBinding where
  roomId : Bytes
  protocolVersion : ℕ
  deriving DecidableEq

/-- A scalar that `randomScalar` can return. -/
def Scalar (order : ℕ) := { s : ℕ // 1 ≤ s ∧ s < order }

def channelId (b : CpaceBinding) : Bytes :=
  utf8ToBytes ("erros-share/v" ++ toString b.protocolVersion ++ "/") ++ b.roomId

/-- `DSI`. -/
def dsi : Bytes := utf8ToBytes "CPaceRistretto255"

/-- `DSI_ISK`. -/
def dsiIsk : Bytes := utf8ToBytes "CPaceRistretto255_ISK"

/-- `ZPAD_TARGET`. -/
def zpadTarget : ℕ := 128

/-- `lvLen`: the number of bytes of the LEB128 form. -/
def lvLen (n : ℕ) : ℕ := if n / 128 = 0 then 1 else 1 + lvLen (n / 128)
termination_by n
decreasing_by omega

def generatorString (w ci sid : Bytes) : Bytes :=
  let prsField := lvLen w.length + w.length
  let dsiField := lvLen dsi.length + dsi.length
  let zpadLen := zpadTarget - 1 - prsField - dsiField
  lvCat [dsi, w, List.replicate zpadLen 0, ci, sid]

/-- `constantTimeEqual`. -/
def constantTimeEqual (a b : Bytes) : Bool :=
  if a.length ≠ b.length then false
  else ((a.zipWith (· ^^^ ·) b).foldl (· ||| ·) 0) == 0

/-- The tag of a MAC. -/
inductive Role
  | host
  | peer
  deriving DecidableEq

def Role.tag : Role → String
  | .host => "host"
  | .peer => "peer"

section Protocol

variable {P : Type*} [AddCommGroup P] [DecidableEq P] (prim : Primitives P)

def calculateGenerator (w : Bytes) (binding : CpaceBinding) (sid : Bytes) : P :=
  prim.deriveToCurve (prim.sha512 (generatorString w (channelId binding) sid))

/-- What is hashed into the session key. -/
def iskInput (sid k msgA adA msgB adB : Bytes) : Bytes :=
  lvCat [dsiIsk, sid, k] ++ lvCat [msgA, adA] ++ lvCat [msgB, adB]

def deriveIsk (sid k msgA adA msgB adB : Bytes) : Bytes :=
  prim.sha512 (iskInput sid k msgA adA msgB adB)

def decodeShare (bytes : Bytes) (who : String) : Except CpaceError P :=
  if bytes.length ≠ pointBytes then
    .error ⟨who ++ " share has wrong length " ++ toString bytes.length⟩
  else
    match prim.decode bytes with
    | none => .error ⟨who ++ " share is not a valid ristretto255 point"⟩
    | some p => if p = 0 then .error ⟨who ++ " share is the identity element"⟩ else .ok p

def confirmKey (isk : Bytes) : Bytes := expandKey prim isk "cpace-confirm/v1" 32

def macFor (isk : Bytes) (role : Role) (sid ya yb : Bytes) : Bytes :=
  prim.hmac (confirmKey prim isk) (utf8ToBytes role.tag ++ sid ++ ya ++ yb)

/-! ### The peer -/

/-- What the closure `finish` holds, and the share. -/
structure PeerHandshake (order : ℕ) where
  sid : Bytes
  scalar : Scalar order
  ya : Bytes

structure PeerResult where
  isk : Bytes
  macPeer : Bytes
  hostConfirmed : Bool
  deriving DecidableEq

/-- `peerBegin`, with the scalar it draws. -/
def peerBegin (w : Bytes) (binding : CpaceBinding) (sid : Bytes) (scalar : Scalar prim.order) :
    Except CpaceError (PeerHandshake prim.order) :=
  if sid.length ≠ sidBytes then .error ⟨"sid must be 16 bytes"⟩
  else
    let g := calculateGenerator prim w binding sid
    .ok ⟨sid, scalar, prim.encode (scalar.1 • g)⟩

def PeerHandshake.finish (H : PeerHandshake prim.order) (yb macHost : Bytes) :
    Except CpaceError PeerResult :=
  match decodeShare prim yb "host" with
  | .error e => .error e
  | .ok ybPoint =>
    let kPoint := H.scalar.1 • ybPoint
    if kPoint = 0 then .error ⟨"shared secret is the identity element"⟩
    else
      let k := prim.encode kPoint
      let isk := deriveIsk prim H.sid k H.ya [] yb []
      .ok ⟨isk, macFor prim isk .peer H.sid H.ya yb,
        constantTimeEqual macHost (macFor prim isk .host H.sid H.ya yb)⟩

/-! ### The host -/

structure HostHandshake where
  yb : Bytes
  macHost : Bytes
  isk : Bytes
  expectedPeer : Bytes
  deriving DecidableEq

/-- `hostRespond`, with the scalar it draws. -/
def hostRespond (w : Bytes) (binding : CpaceBinding) (sid ya : Bytes) (scalar : Scalar prim.order) :
    Except CpaceError HostHandshake :=
  if sid.length ≠ sidBytes then .error ⟨"sid must be 16 bytes"⟩
  else
    let g := calculateGenerator prim w binding sid
    match decodeShare prim ya "peer" with
    | .error e => .error e
    | .ok yaPoint =>
      let yb := prim.encode (scalar.1 • g)
      let kPoint := scalar.1 • yaPoint
      if kPoint = 0 then .error ⟨"shared secret is the identity element"⟩
      else
        let k := prim.encode kPoint
        let isk := deriveIsk prim sid k ya [] yb []
        .ok ⟨yb, macFor prim isk .host sid ya yb, isk, macFor prim isk .peer sid ya yb⟩

def HostHandshake.verifyPeer (H : HostHandshake) (macPeer : Bytes) : Bool :=
  constantTimeEqual macPeer H.expectedPeer

end Protocol

end ScreenSharing.Crypto
