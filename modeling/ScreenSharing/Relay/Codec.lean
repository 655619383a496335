import ScreenSharing.Lib.Json
import ScreenSharing.Relay.Wire

/-!
# The relay's half of the wire format

The functions of the relay's wire module, over buffers, with every read checked and every exception
that may be thrown.  The decoders of `Relay.Wire`, on which the registry is built, are total and
read a missing byte as 0; `decodeDataFromHost_checked` and its companions say that on every buffer the
checked decoder succeeds and returns the same.
-/

namespace ScreenSharing.Relay.Wire

open Lib

variable (rt : JsonRuntime)

/-! ### Encoding -/

def jsonFrame (type : UInt8) (obj : Json) : Bytes := type :: rt.stringify obj

/-- The object of a READY frame; a member that is not given is left out. -/
def readyObject (connId : Option ℕ) (hostToken : Option String) : Json :=
  .obj ((connId.toList.map fun c => ("connId", Json.nat c)) ++
    hostToken.toList.map fun token => ("hostToken", Json.str token))

def rejectObject (reason : RejectReason) : Json := .obj [("reason", .str reason.text)]

def connIdObject (connId : ℕ) : Json := .obj [("connId", Json.nat connId)]

def ready (connId : Option ℕ) (hostToken : Option String) : Bytes :=
  jsonFrame rt T.ready (readyObject connId hostToken)

def reject (reason : RejectReason) : Bytes := jsonFrame rt T.reject (rejectObject reason)

def peerUp (connId : ℕ) : Bytes := jsonFrame rt T.peerUp (connIdObject connId)

def peerDown (connId : ℕ) : Bytes := jsonFrame rt T.peerDown (connIdObject connId)

def hostGone : Bytes := [T.hostGone]

def hostClaimed : Bytes := [T.hostClaimed]

def pong : Bytes := [T.pong]

/-- The flag byte of a DATA frame. -/
def flag (isBinary : Bool) : UInt8 := if isBinary then 1 else 0

theorem flag_eq_one (isBinary : Bool) : decide (flag isBinary = 1) = isBinary := by
  cases isBinary <;> decide

def dataToPeer (isBinary : Bool) (payload : Bytes) : Bytes :=
  T.dataP :: flag isBinary :: payload

def dataToHost (connId : ℕ) (isBinary : Bool) (payload : Bytes) : Except Fault Bytes := do
  let id ← writeUInt32BE connId
  return T.dataH :: (id ++ flag isBinary :: payload)

/-- A DATA_H frame can be written if its connId fits into four bytes. -/
theorem dataToHost_eq_ok {connId : ℕ} {isBinary : Bool} {payload bytes : Bytes} :
    dataToHost connId isBinary payload = .ok bytes ↔ connId < 2 ^ 32 ∧
      bytes = T.dataH :: (writeBE 4 connId ++ flag isBinary :: payload) := by
  unfold dataToHost writeUInt32BE
  split
  · next h =>
    simp only [h, true_and]
    exact ⟨fun heq => (Except.ok.inj heq).symm, fun heq => congrArg Except.ok heq.symm⟩
  · next h =>
    simp only [h, false_and, iff_false]
    exact fun heq => by cases heq

/-- The buffer of a frame that the registry sends. -/
def encode : Frame → Except Fault Bytes
  | .ready connId hostToken => .ok (ready rt connId hostToken)
  | .reject reason => .ok (reject rt reason)
  | .peerUp connId => .ok (peerUp rt connId)
  | .peerDown connId => .ok (peerDown rt connId)
  | .hostGone => .ok hostGone
  | .hostClaimed => .ok hostClaimed
  | .pong => .ok pong
  | .dataToPeer isBinary payload => .ok (dataToPeer isBinary payload)
  | .dataToHost connId isBinary payload => dataToHost connId isBinary payload

/-- The object in a frame, if there is one. -/
def object : Frame → Option Json
  | .ready connId hostToken => some (readyObject connId hostToken)
  | .reject reason => some (rejectObject reason)
  | .peerUp connId => some (connIdObject connId)
  | .peerDown connId => some (connIdObject connId)
  | _ => none

/-! ### Decoding -/

/-- `/^[0-9a-f]{8}$/`. -/
def isRoomId (s : String) : Bool :=
  s.toList.length == 8 && s.toList.all fun c => "0123456789abcdef".toList.contains c

/-- `z.number().int()`: a safe integer. -/
def safeInt : JsNumber → Option ℤ
  | .finite q => if q.den = 1 ∧ q.num.natAbs ≤ 2 ^ 53 - 1 then some q.num else none
  | .infinite _ => none

def parseRole : Option Json → Option Role
  | some (.str s) => if s = "host" then some .host else if s = "peer" then some .peer else none
  | _ => none

def parseRoomId : Option Json → Option String
  | some (.str s) => if isRoomId s then some s else none
  | _ => none

def parseApp : Option Json → Option String
  | some (.str s) => if utf16Length s ≤ 32 then some s else none
  | _ => none

def parseProto : Option Json → Option ℤ
  | some (.num n) => safeInt n
  | _ => none

/-- An optional member may be missing, but not `null`. -/
def parseHostToken : Option Json → Option (Option String)
  | none => some none
  | some (.str s) => if utf16Length s ≤ 64 then some (some s) else none
  | some _ => none

/-- `helloSchema.safeParse`. -/
def helloSchema : Json → Option Hello
  | .obj members => do
    let role ← parseRole (members.lookup "role")
    let roomId ← parseRoomId (members.lookup "roomId")
    let app ← parseApp (members.lookup "app")
    let proto ← parseProto (members.lookup "proto")
    let hostToken ← parseHostToken (members.lookup "hostToken")
    return ⟨role, roomId, app, proto, hostToken⟩
  | _ => none

def decodeHello (buf : Bytes) : Except Fault (Option Hello) :=
  if buf.length < 2 then .ok none
  else do
    let type ← byteAt buf 0
    if type ≠ T.hello then return none
    orNull (do return helloSchema (← rt.parse (buf.drop 1)))

def decodeDataFromHost (buf : Bytes) : Except Fault (Option DataFromHost) :=
  if buf.length < 6 then .ok none
  else do
    let type ← byteAt buf 0
    if type ≠ T.dataH then return none
    return some ⟨← Lib.readUInt32BE buf 1, (← byteAt buf 5) = 1, buf.drop 6⟩

def decodeDataFromPeer (buf : Bytes) : Except Fault (Option DataFromPeer) :=
  if buf.length < 2 then .ok none
  else do
    let type ← byteAt buf 0
    if type ≠ T.dataP then return none
    return some ⟨(← byteAt buf 1) = 1, buf.drop 2⟩

def decodeKick (buf : Bytes) : Except Fault (Option ℕ) :=
  if buf.length < 5 then .ok none
  else do
    let type ← byteAt buf 0
    if type ≠ T.kick then return none
    return some (← Lib.readUInt32BE buf 1)

def isHandoff (buf : Bytes) : Except Fault Bool :=
  if buf.length ≥ 1 then do
    let type ← byteAt buf 0
    return type = T.handoff
  else .ok false

/-- The test of `onMessage` for a PING; the first byte of an empty buffer is `undefined`. -/
def isPing (buf : Bytes) : Bool := buf.head? = some T.ping

/-! ### Every read is inside the buffer -/

variable {rt}

/-- The four bytes at an offset, in either spelling. -/
theorem readUInt32BE_checked {buf : Bytes} (h : 5 ≤ buf.length) :
    Lib.readUInt32BE buf 1 = .ok (Relay.readUInt32BE buf 1) := by
  match buf, h with
  | b :: b₁ :: b₂ :: b₃ :: b₄ :: rest, _ =>
    unfold Lib.readUInt32BE Relay.readUInt32BE
    rw [if_pos (by simp)]
    refine congrArg Except.ok ?_
    show ((((0 * 256 + b₁.toNat) * 256 + b₂.toNat) * 256 + b₃.toNat) * 256 + b₄.toNat) =
      b₁.toNat * 2 ^ 24 + b₂.toNat * 2 ^ 16 + b₃.toNat * 2 ^ 8 + b₄.toNat
    omega

theorem head_of_byteAt {buf : Bytes} {b : UInt8} (h : byteAt buf 0 = .ok b) :
    buf.head? = some b := by
  cases buf with
  | nil => cases h
  | cons x buf =>
    cases h
    rfl

/-- A buffer with a byte in it has a first one. -/
theorem exists_byteAt_zero {buf : Bytes} {n : ℕ} (h : ¬ buf.length < n + 1) :
    ∃ b, byteAt buf 0 = .ok b ∧ buf.head? = some b := by
  have hfirst := byteAt_of_lt (show 0 < buf.length by omega)
  exact ⟨_, hfirst, head_of_byteAt hfirst⟩

theorem decodeDataFromHost_checked (buf : Bytes) :
    decodeDataFromHost buf = .ok (Relay.decodeDataFromHost buf) := by
  unfold decodeDataFromHost Relay.decodeDataFromHost
  by_cases hlen : buf.length < 6
  · rw [if_pos hlen, if_pos (.inl hlen)]
  · obtain ⟨type, hread, hhead⟩ := exists_byteAt_zero hlen
    rw [if_neg hlen, hread, hhead]
    by_cases htype : type = T.dataH
    · rw [if_neg (by simp [hlen, htype])]
      simp [htype, readUInt32BE_checked (show 5 ≤ buf.length by omega),
        byteAt_of_lt (show 5 < buf.length by omega), bind, Except.bind, pure, Except.pure]
    · rw [if_pos (.inr (by simpa using htype))]
      simp [htype, bind, Except.bind, pure, Except.pure]

theorem decodeDataFromPeer_checked (buf : Bytes) :
    decodeDataFromPeer buf = .ok (Relay.decodeDataFromPeer buf) := by
  unfold decodeDataFromPeer Relay.decodeDataFromPeer
  by_cases hlen : buf.length < 2
  · rw [if_pos hlen, if_pos (.inl hlen)]
  · obtain ⟨type, hread, hhead⟩ := exists_byteAt_zero hlen
    rw [if_neg hlen, hread, hhead]
    by_cases htype : type = T.dataP
    · rw [if_neg (by simp [hlen, htype])]
      simp [htype, byteAt_of_lt (show 1 < buf.length by omega), bind, Except.bind, pure,
        Except.pure]
    · rw [if_pos (.inr (by simpa using htype))]
      simp [htype, bind, Except.bind, pure, Except.pure]

theorem decodeKick_checked (buf : Bytes) : decodeKick buf = .ok (Relay.decodeKick buf) := by
  unfold decodeKick Relay.decodeKick
  by_cases hlen : buf.length < 5
  · rw [if_pos hlen, if_pos (.inl hlen)]
  · obtain ⟨type, hread, hhead⟩ := exists_byteAt_zero hlen
    rw [if_neg hlen, hread, hhead]
    by_cases htype : type = T.kick
    · rw [if_neg (by simp [hlen, htype])]
      simp [htype, readUInt32BE_checked (show 5 ≤ buf.length by omega), bind, Except.bind, pure,
        Except.pure]
    · rw [if_pos (.inr (by simpa using htype))]
      simp [htype, bind, Except.bind, pure, Except.pure]

theorem isHandoff_checked (buf : Bytes) :
    isHandoff buf = .ok (buf.head? = some T.handoff : Bool) := by
  cases buf with
  | nil => rfl
  | cons b buf => simp [isHandoff, bind, Except.bind, pure, Except.pure]

/-- Whatever `JSON.parse` does, `decodeHello` returns. -/
theorem decodeHello_total (rt : JsonRuntime) (buf : Bytes) :
    ∃ r, decodeHello rt buf = .ok r := by
  unfold decodeHello
  by_cases hlen : buf.length < 2
  · exact ⟨none, if_pos hlen⟩
  · obtain ⟨type, hread, -⟩ := exists_byteAt_zero hlen
    rw [if_neg hlen, hread]
    by_cases htype : type = T.hello
    · simp only [htype, bind, Except.bind, ne_eq, not_true_eq_false, if_false]
      exact orNull_total _
    · exact ⟨none, by simp [htype, bind, Except.bind, pure, Except.pure]⟩

/-- A frame of another type is no HELLO. -/
theorem decodeHello_ne {type : UInt8} {body : Bytes} (h : type ≠ T.hello) :
    decodeHello rt (type :: body) = .ok none := by
  unfold decodeHello
  split
  · rfl
  · simp [h, bind, Except.bind, pure, Except.pure]

end ScreenSharing.Relay.Wire
