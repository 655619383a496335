import ScreenSharing.Net.PeerLink
import ScreenSharing.Relay.Codec

/-!
# The client's half of the wire format

The client encodes what the relay decodes, and the other way round, in a module of its own that is kept
in step by hand.  `wire_agrees` says that the two halves fit: what either side writes the other reads
back, no two kinds of frame are taken for one another, and on any other bytes every decoder returns.
-/

namespace ScreenSharing.Net

open Lib hiding Bytes readUInt32BE
open Relay hiding readUInt32BE

/-! ### Decoding -/

/-- `RelayControl`. -/
inductive RelayControl
  | ready (connId : Option JsNumber) (hostToken : Option String)
  | reject (reason : String)
  | peerUp (connId : JsNumber)
  | peerDown (connId : JsNumber)
  | hostGone
  | hostClaimed
  | pong
  | data (connId : Option ℕ) (isBinary : Bool) (payload : Bytes)
  deriving DecidableEq

/-- A member that is a number. -/
def asNumber : Option Json → Option JsNumber
  | some (.num n) => some n
  | _ => none

/-- A member that is a string. -/
def asString : Option Json → Option String
  | some (.str s) => some s
  | _ => none

/-- `String(v ?? 'unknown')`. -/
def reasonText (rt : JsonRuntime) : Option Json → Except Fault String
  | none | some .null => .ok "unknown"
  | some v => rt.toText v

/-- The frames that carry an object. -/
def decodeObject (rt : JsonRuntime) (type : UInt8) (body : Bytes) :
    Except Fault (Option RelayControl) := do
  let obj ← rt.parse body
  if type = T.ready then
    return some (.ready (asNumber (← obj.member "connId")) (asString (← obj.member "hostToken")))
  if type = T.reject then return some (.reject (← reasonText rt (← obj.member "reason")))
  match asNumber (← obj.member "connId") with
  | none => return none
  | some connId => return some (if type = T.peerUp then .peerUp connId else .peerDown connId)

/-- `decodeRelayFrame`. -/
def decodeRelayFrame (rt : JsonRuntime) (buf : Bytes) : Except Fault (Option RelayControl) :=
  if buf.length = 0 then .ok none
  else do
    let type ← byteAt buf 0
    if type = T.ready ∨ type = T.reject ∨ type = T.peerUp ∨ type = T.peerDown then
      orNull (decodeObject rt type (buf.drop 1))
    else if type = T.hostGone then return some .hostGone
    else if type = T.hostClaimed then return some .hostClaimed
    else if type = T.pong then return some .pong
    else if type = T.dataH then
      if buf.length < 6 then return none
      return some (.data (some (← Lib.readUInt32BE buf 1)) ((← byteAt buf 5) = 1) (buf.drop 6))
    else if type = T.dataP then
      if buf.length < 2 then return none
      return some (.data none ((← byteAt buf 1) = 1) (buf.drop 2))
    else return none

/-! ### Encoding -/

/-- The object of a HELLO; an empty host token is left out like a missing one. -/
def helloObject (role : Role) (roomId app : String) (hostToken : Option String) : Json :=
  .obj ([("role", .str (match role with | .host => "host" | .peer => "peer")),
      ("roomId", .str roomId), ("app", .str app),
      ("proto", .num (.finite relayProtocolVersion))] ++
    (hostToken.toList.filter fun token => token ≠ "").map fun token => ("hostToken", Json.str token))

def encodeHello (rt : JsonRuntime) (role : Role) (roomId app : String)
    (hostToken : Option String) : Bytes :=
  T.hello :: rt.stringify (helloObject role roomId app hostToken)

def encodeDataH (connId : ℕ) (isBinary : Bool) (payload : Bytes) : Except Fault Bytes := do
  let id ← writeUInt32BE connId
  return T.dataH :: (id ++ (if isBinary then 1 else 0) :: payload)

def encodeKick (connId : ℕ) : Except Fault Bytes := do
  let id ← writeUInt32BE connId
  return T.kick :: id

def encodePing : Bytes := [T.ping]

def encodeHandoff : Bytes := [T.handoff]

/-- The frames a client sends. -/
inductive ClientFrame
  | hello (role : Role) (roomId app : String) (hostToken : Option String)
  | kick (connId : ℕ)
  | handoff
  | ping
  | dataP (isBinary : Bool) (payload : Bytes)
  | dataH (connId : ℕ) (isBinary : Bool) (payload : Bytes)

namespace ClientFrame

def encode (rt : JsonRuntime) : ClientFrame → Except Fault Bytes
  | .hello role roomId app hostToken => .ok (encodeHello rt role roomId app hostToken)
  | .kick connId => encodeKick connId
  | .handoff => .ok encodeHandoff
  | .ping => .ok encodePing
  | .dataP isBinary payload => .ok (encodeDataP isBinary payload)
  | .dataH connId isBinary payload => encodeDataH connId isBinary payload

/-- The object in a frame, if there is one. -/
def object : ClientFrame → Option Json
  | .hello role roomId app hostToken => some (helloObject role roomId app hostToken)
  | _ => none

/-- The fields are in the ranges that the format has for them. -/
def Fits : ClientFrame → Prop
  | .hello _ roomId app hostToken =>
    Wire.isRoomId roomId = true ∧ utf16Length app ≤ 32 ∧
      ∀ token ∈ hostToken, 1 ≤ utf16Length token ∧ utf16Length token ≤ 64
  | .kick connId => connId < 2 ^ 32
  | .dataH connId _ _ => connId < 2 ^ 32
  | _ => True

end ClientFrame

/-! ### What each side makes of a buffer -/

/-- What the decoders and type tests of the relay make of a buffer. -/
structure Reading where
  hello : Option Hello
  dataFromHost : Option DataFromHost
  dataFromPeer : Option DataFromPeer
  kick : Option ℕ
  handoff : Bool
  ping : Bool
  deriving DecidableEq

/-- A buffer that none of them accepts. -/
def Reading.nothing : Reading := ⟨none, none, none, none, false, false⟩

def relayReads (rt : JsonRuntime) (buf : Bytes) : Except Fault Reading := do
  return ⟨← Wire.decodeHello rt buf, ← Wire.decodeDataFromHost buf, ← Wire.decodeDataFromPeer buf,
    ← Wire.decodeKick buf, ← Wire.isHandoff buf, Wire.isPing buf⟩

/-- What the relay is to read of a frame: its fields, and by one decoder only. -/
def ClientFrame.reading : ClientFrame → Reading
  | .hello role roomId app hostToken =>
    { Reading.nothing with hello := some ⟨role, roomId, app, relayProtocolVersion, hostToken⟩ }
  | .kick connId => { Reading.nothing with kick := some connId }
  | .handoff => { Reading.nothing with handoff := true }
  | .ping => { Reading.nothing with ping := true }
  | .dataP isBinary payload => { Reading.nothing with dataFromPeer := some ⟨isBinary, payload⟩ }
  | .dataH connId isBinary payload =>
    { Reading.nothing with dataFromHost := some ⟨connId, isBinary, payload⟩ }

/-- What the client is to read of a frame of the relay. -/
def control : Frame → RelayControl
  | .ready connId hostToken => .ready (connId.map fun c => .finite c) hostToken
  | .reject reason => .reject reason.text
  | .peerUp connId => .peerUp (.finite connId)
  | .peerDown connId => .peerDown (.finite connId)
  | .hostGone => .hostGone
  | .hostClaimed => .hostClaimed
  | .pong => .pong
  | .dataToPeer isBinary payload => .data none isBinary payload
  | .dataToHost connId isBinary payload => .data (some connId) isBinary payload

/-! ### From the relay to the client -/

variable {rt : JsonRuntime}

theorem decodeRelayFrame_object {type : UInt8} (obj : Json)
    (htype : type = T.ready ∨ type = T.reject ∨ type = T.peerUp ∨ type = T.peerDown) :
    decodeRelayFrame rt (Wire.jsonFrame rt type obj) =
      orNull (decodeObject rt type (rt.stringify obj)) := by
  unfold decodeRelayFrame Wire.jsonFrame
  rw [if_neg (by simp)]
  simp only [byteAt_zero, bind, Except.bind]
  rw [if_pos htype]
  rfl

theorem decodeObject_ready (connId : Option ℕ) (hostToken : Option String)
    (hundoes : rt.Undoes (Wire.readyObject connId hostToken)) :
    decodeObject rt T.ready (rt.stringify (Wire.readyObject connId hostToken)) =
      .ok (some (control (.ready connId hostToken))) := by
  unfold decodeObject
  rw [hundoes]
  cases connId <;> cases hostToken <;> rfl

theorem decodeObject_reject (reason : RejectReason)
    (hundoes : rt.Undoes (Wire.rejectObject reason)) :
    decodeObject rt T.reject (rt.stringify (Wire.rejectObject reason)) =
      .ok (some (control (.reject reason))) := by
  unfold decodeObject
  rw [hundoes]
  rfl

theorem decodeObject_peerUp (connId : ℕ) (hundoes : rt.Undoes (Wire.connIdObject connId)) :
    decodeObject rt T.peerUp (rt.stringify (Wire.connIdObject connId)) =
      .ok (some (control (.peerUp connId))) := by
  unfold decodeObject
  rw [hundoes]
  rfl

theorem decodeObject_peerDown (connId : ℕ) (hundoes : rt.Undoes (Wire.connIdObject connId)) :
    decodeObject rt T.peerDown (rt.stringify (Wire.connIdObject connId)) =
      .ok (some (control (.peerDown connId))) := by
  unfold decodeObject
  rw [hundoes]
  rfl

theorem decodeRelayFrame_dataToPeer (isBinary : Bool) (payload : Bytes) :
    decodeRelayFrame rt (Wire.dataToPeer isBinary payload) =
      .ok (some (.data none isBinary payload)) := by
  cases isBinary <;> rfl

theorem decodeRelayFrame_dataToHost {connId : ℕ} (h : connId < 2 ^ 32) (isBinary : Bool)
    (payload : Bytes) :
    decodeRelayFrame rt (T.dataH :: (writeBE 4 connId ++ Wire.flag isBinary :: payload)) =
      .ok (some (.data (some connId) isBinary payload)) := by
  have hread := readUInt32BE_write T.dataH h (Wire.flag isBinary :: payload)
  have hlen : (writeBE 4 connId).length = 4 := length_writeBE 4 connId
  generalize writeBE 4 connId = id at hlen hread
  match id, hlen with
  | [b₁, b₂, b₃, b₄], _ =>
    have hflag : decide (Wire.flag isBinary = 1) = isBinary := Wire.flag_eq_one isBinary
    unfold decodeRelayFrame
    rw [if_neg (by simp)]
    simp only [byteAt_zero, bind, Except.bind]
    rw [if_neg (by decide), if_neg (by decide), if_neg (by decide), if_neg (by decide),
      if_pos trivial, if_neg (by simp), hread]
    simp [hflag, pure, Except.pure]

/-- **What the relay writes, the client reads back.** -/
theorem decodeRelayFrame_encode {frame : Frame} {bytes : Bytes}
    (hencode : Wire.encode rt frame = .ok bytes)
    (hundoes : ∀ v ∈ Wire.object frame, rt.Undoes v) :
    decodeRelayFrame rt bytes = .ok (some (control frame)) := by
  cases frame with
  | ready connId hostToken =>
    cases hencode
    rw [Wire.ready, decodeRelayFrame_object _ (.inl rfl),
      decodeObject_ready connId hostToken (hundoes _ rfl)]
    rfl
  | reject reason =>
    cases hencode
    rw [Wire.reject, decodeRelayFrame_object _ (.inr (.inl rfl)),
      decodeObject_reject reason (hundoes _ rfl)]
    rfl
  | peerUp connId =>
    cases hencode
    rw [Wire.peerUp, decodeRelayFrame_object _ (.inr (.inr (.inl rfl))),
      decodeObject_peerUp connId (hundoes _ rfl)]
    rfl
  | peerDown connId =>
    cases hencode
    rw [Wire.peerDown, decodeRelayFrame_object _ (.inr (.inr (.inr rfl))),
      decodeObject_peerDown connId (hundoes _ rfl)]
    rfl
  | hostGone => cases hencode; rfl
  | hostClaimed => cases hencode; rfl
  | pong => cases hencode; rfl
  | dataToPeer isBinary payload =>
    cases hencode
    exact decodeRelayFrame_dataToPeer isBinary payload
  | dataToHost connId isBinary payload =>
    obtain ⟨h, rfl⟩ := Wire.dataToHost_eq_ok.mp hencode
    exact decodeRelayFrame_dataToHost h isBinary payload

/-! ### From the client to the relay -/

theorem decodeDataFromHost_ne {type : UInt8} {body : Bytes} (h : type ≠ T.dataH) :
    decodeDataFromHost (type :: body) = none := if_pos (.inr (by simpa using h))

theorem decodeDataFromPeer_ne {type : UInt8} {body : Bytes} (h : type ≠ T.dataP) :
    decodeDataFromPeer (type :: body) = none := if_pos (.inr (by simpa using h))

theorem decodeKick_ne {type : UInt8} {body : Bytes} (h : type ≠ T.kick) :
    decodeKick (type :: body) = none := if_pos (.inr (by simpa using h))

/-- What the relay makes of a buffer that is no HELLO. -/
theorem relayReads_eq {type : UInt8} {body : Bytes} (h : type ≠ T.hello) :
    relayReads rt (type :: body) =
      .ok ⟨none, decodeDataFromHost (type :: body), decodeDataFromPeer (type :: body),
        decodeKick (type :: body), type = T.handoff, type = T.ping⟩ := by
  unfold relayReads
  rw [Wire.decodeHello_ne h, Wire.decodeDataFromHost_checked, Wire.decodeDataFromPeer_checked,
    Wire.decodeKick_checked, Wire.isHandoff_checked]
  simp [Wire.isPing, bind, Except.bind, pure, Except.pure]

theorem decodeDataFromHost_encode {connId : ℕ} (h : connId < 2 ^ 32) (isBinary : Bool)
    (payload : Bytes) :
    decodeDataFromHost (T.dataH :: (writeBE 4 connId ++ (if isBinary then 1 else 0) :: payload)) =
      some ⟨connId, isBinary, payload⟩ := by
  have hread := readUInt32BE_write T.dataH h ((if isBinary then 1 else 0) :: payload)
  have hlen : (writeBE 4 connId).length = 4 := length_writeBE 4 connId
  generalize writeBE 4 connId = id at hlen hread
  match id, hlen with
  | [b₁, b₂, b₃, b₄], _ =>
    have hfour := @Wire.readUInt32BE_checked
      (T.dataH :: ([b₁, b₂, b₃, b₄] ++ (if isBinary then 1 else 0) :: payload)) (by simp)
    rw [hread] at hfour
    unfold decodeDataFromHost
    rw [if_neg (by simp), ← Except.ok.inj hfour]
    cases isBinary <;> rfl

theorem decodeKick_encode {connId : ℕ} (h : connId < 2 ^ 32) :
    decodeKick (T.kick :: writeBE 4 connId) = some connId := by
  have hread := readUInt32BE_write T.kick h []
  rw [List.append_nil] at hread
  have hlen : (writeBE 4 connId).length = 4 := length_writeBE 4 connId
  rw [Wire.readUInt32BE_checked (by simp [hlen])] at hread
  unfold decodeKick
  rw [if_neg (by simp [hlen]), Except.ok.inj hread]

/-- The HELLO of a client satisfies the relay's schema. -/
theorem helloSchema_helloObject {role : Role} {roomId app : String} {hostToken : Option String}
    (hfits : (ClientFrame.hello role roomId app hostToken).Fits) :
    Wire.helloSchema (helloObject role roomId app hostToken) =
      some ⟨role, roomId, app, relayProtocolVersion, hostToken⟩ := by
  obtain ⟨hroom, happ, htoken⟩ := hfits
  have hproto : Wire.safeInt (.finite relayProtocolVersion) = some relayProtocolVersion := by
    decide
  have hrole : Wire.parseRole (some (.str (match role with | .host => "host" | .peer => "peer"))) =
      some role := by
    cases role <;> rfl
  cases hostToken with
  | none =>
    simp [Wire.helloSchema, helloObject, List.lookup_cons, hrole, Wire.parseRoomId, hroom, Wire.parseApp,
      happ, Wire.parseProto, hproto, Wire.parseHostToken]
  | some token =>
    obtain ⟨hpos, hmax⟩ := htoken token rfl
    have hne : token ≠ "" := by
      rintro rfl
      exact absurd hpos (by decide)
    simp [Wire.helloSchema, helloObject, List.lookup_cons, hrole, Wire.parseRoomId, hroom, Wire.parseApp,
      happ, Wire.parseProto, hproto, Wire.parseHostToken, hne, hmax]

theorem relayReads_hello {role : Role} {roomId app : String} {hostToken : Option String}
    (hfits : (ClientFrame.hello role roomId app hostToken).Fits)
    (hundoes : rt.Undoes (helloObject role roomId app hostToken)) :
    relayReads rt (encodeHello rt role roomId app hostToken) =
      .ok (ClientFrame.hello role roomId app hostToken).reading := by
  have hlen : ¬ (encodeHello rt role roomId app hostToken).length < 2 := by
    have hpos := List.length_pos_iff.mpr hundoes.ne_nil
    simp only [encodeHello, List.length_cons]
    omega
  have hhello : Wire.decodeHello rt (encodeHello rt role roomId app hostToken) =
      .ok (some ⟨role, roomId, app, relayProtocolVersion, hostToken⟩) := by
    unfold Wire.decodeHello
    rw [if_neg hlen]
    simp only [encodeHello, byteAt_zero, bind, Except.bind, List.drop_one, List.tail_cons, ne_eq,
      not_true_eq_false, if_false]
    rw [hundoes]
    exact congrArg Except.ok (helloSchema_helloObject hfits)
  unfold relayReads
  rw [hhello, Wire.decodeDataFromHost_checked, Wire.decodeDataFromPeer_checked,
    Wire.decodeKick_checked, Wire.isHandoff_checked]
  unfold encodeHello
  rw [decodeDataFromHost_ne (by decide), decodeDataFromPeer_ne (by decide),
    decodeKick_ne (by decide)]
  rfl

/-- **What the client writes, the relay reads back**, and takes for nothing else. -/
theorem relayReads_encode {frame : ClientFrame} (hfits : frame.Fits)
    (hundoes : ∀ v ∈ frame.object, rt.Undoes v) :
    ∃ bytes, frame.encode rt = .ok bytes ∧ relayReads rt bytes = .ok frame.reading := by
  cases frame with
  | hello role roomId app hostToken =>
    exact ⟨_, rfl, relayReads_hello hfits (hundoes _ rfl)⟩
  | kick connId =>
    have hconnId : connId < 2 ^ 32 := hfits
    refine ⟨T.kick :: writeBE 4 connId, ?_, ?_⟩
    · simp only [ClientFrame.encode, encodeKick, writeUInt32BE_of_lt hconnId]
      rfl
    · rw [relayReads_eq (by decide), decodeDataFromHost_ne (by decide),
        decodeDataFromPeer_ne (by decide), decodeKick_encode hconnId]
      rfl
  | handoff => exact ⟨_, rfl, relayReads_eq (by decide)⟩
  | ping => exact ⟨_, rfl, relayReads_eq (by decide)⟩
  | dataP isBinary payload =>
    refine ⟨encodeDataP isBinary payload, rfl, ?_⟩
    have hdecode := decode_encodeDataP isBinary payload
    unfold encodeDataP at hdecode ⊢
    rw [relayReads_eq (by decide), decodeDataFromHost_ne (by decide), hdecode,
      decodeKick_ne (by decide)]
    rfl
  | dataH connId isBinary payload =>
    have hconnId : connId < 2 ^ 32 := hfits
    refine ⟨T.dataH :: (writeBE 4 connId ++ (if isBinary then 1 else 0) :: payload), ?_, ?_⟩
    · simp only [ClientFrame.encode, encodeDataH, writeUInt32BE_of_lt hconnId]
      rfl
    · rw [relayReads_eq (by decide), decodeDataFromHost_encode hconnId,
        decodeDataFromPeer_ne (by decide), decodeKick_ne (by decide)]
      rfl

/-! ### On any bytes -/

theorem relayReads_total (rt : JsonRuntime) (buf : Bytes) : ∃ r, relayReads rt buf = .ok r := by
  obtain ⟨hello, hhello⟩ := Wire.decodeHello_total rt buf
  unfold relayReads
  rw [hhello, Wire.decodeDataFromHost_checked, Wire.decodeDataFromPeer_checked,
    Wire.decodeKick_checked, Wire.isHandoff_checked]
  exact ⟨_, rfl⟩

theorem decodeRelayFrame_total (rt : JsonRuntime) (buf : Bytes) :
    ∃ r, decodeRelayFrame rt buf = .ok r := by
  cases buf with
  | nil => exact ⟨none, rfl⟩
  | cons type body =>
    have hfour : 6 ≤ (type :: body).length →
        Lib.readUInt32BE (type :: body) 1 = .ok (Relay.readUInt32BE (type :: body) 1) :=
      fun h => Wire.readUInt32BE_checked (by omega)
    unfold decodeRelayFrame
    rw [if_neg (by simp)]
    simp only [byteAt_zero, bind, Except.bind]
    split
    · exact orNull_total _
    · split
      · exact ⟨_, rfl⟩
      · split
        · exact ⟨_, rfl⟩
        · split
          · exact ⟨_, rfl⟩
          · split
            · split
              · exact ⟨_, rfl⟩
              · next hlen =>
                rw [hfour (by omega), byteAt_of_lt (i := 5) (by omega)]
                exact ⟨_, rfl⟩
            · split
              · split
                · exact ⟨_, rfl⟩
                · next hlen =>
                  rw [byteAt_of_lt (i := 1) (by omega)]
                  exact ⟨_, rfl⟩
              · exact ⟨_, rfl⟩

/-- **The two halves of the wire format agree.**  For any runtime whose `JSON.parse` undoes its
`JSON.stringify` on the object of the frame, the client reads back every frame that the relay can
encode; the relay reads back every frame of a client whose fields are in range, which can be encoded,
and no decoder but its own accepts it; and on any bytes every decoder returns. -/
theorem wire_agrees (rt : JsonRuntime) :
    (∀ frame bytes, Wire.encode rt frame = .ok bytes → (∀ v ∈ Wire.object frame, rt.Undoes v) →
      decodeRelayFrame rt bytes = .ok (some (control frame))) ∧
    (∀ frame : ClientFrame, frame.Fits → (∀ v ∈ frame.object, rt.Undoes v) →
      ∃ bytes, frame.encode rt = .ok bytes ∧ relayReads rt bytes = .ok frame.reading) ∧
    ∀ buf, (∃ r, decodeRelayFrame rt buf = .ok r) ∧ ∃ r, relayReads rt buf = .ok r :=
  ⟨fun _ _ hencode hundoes => decodeRelayFrame_encode hencode hundoes,
    fun _ hfits hundoes => relayReads_encode hfits hundoes,
    fun buf => ⟨decodeRelayFrame_total rt buf, relayReads_total rt buf⟩⟩

/-- The text of an object with the connId 9. -/
def nineText : Bytes :=
  [0x7b, 0x22, 0x63, 0x6f, 0x6e, 0x6e, 0x49, 0x64, 0x22, 0x3a, 0x39, 0x7d]

/-- A runtime that knows how to write this object, and to read it. -/
def nineRuntime : JsonRuntime where
  stringify _ := nineText
  parse text := if text = nineText then .ok (Wire.connIdObject 9) else .error .syntaxError
  display _ := .error .typeError
  parse_nil := rfl

theorem wire_agrees_nine :
    Wire.encode nineRuntime (.peerUp 9) = .ok (T.peerUp :: nineText) ∧
      decodeRelayFrame nineRuntime (T.peerUp :: nineText) = .ok (some (.peerUp (.finite 9))) :=
  ⟨rfl, (wire_agrees nineRuntime).1 (.peerUp 9) _ rfl fun v hv => by cases hv; rfl⟩

end ScreenSharing.Net
