import ScreenSharing.Relay.Registry

/-!
# What each entry point of the relay can do

One inversion lemma for each entry point.  `HelloOutcome`, `MessageOutcome` and `CloseOutcome`
list the outcomes of `onHello`, `onMessage` and `onClose` with the guards under which each of them
happens; `onHello_outcome`, `onMessage_outcome` and `onClose_outcome` say that the list is
complete.  Every later invariant is a case analysis over these constructors and never unfolds the
entry points again.  `sweep` can only remove rooms, and `sweep_rooms_get` says which.
-/

namespace ScreenSharing.Relay

open Lib

/-! ### The frames for one socket -/

/-- The frames among the effects that go to a socket. -/
def sentTo (socket : Socket) (effects : List Effect) : List Frame :=
  effects.filterMap fun effect =>
    match effect with
    | .send dest frame => if dest = socket then some frame else none
    | _ => none

/-- The frame of an effect, if it is one for the socket. -/
theorem sentTo_cons_send (socket dest : Socket) (frame : Frame) (effects : List Effect) :
    sentTo socket (.send dest frame :: effects) =
      if dest = socket then frame :: sentTo socket effects else sentTo socket effects := by
  unfold sentTo
  rw [List.filterMap_cons]
  split <;> simp_all

theorem mem_sentTo {socket : Socket} {effects : List Effect} {frame : Frame} :
    frame ∈ sentTo socket effects ↔ Effect.send socket frame ∈ effects := by
  unfold sentTo
  rw [List.mem_filterMap]
  constructor
  · rintro ⟨effect, hmem, heq⟩
    cases effect with
    | send dest frame' =>
      dsimp only at heq
      split at heq
      · next hdest =>
        cases heq
        rw [← hdest]
        exact hmem
      · cases heq
    | close => cases heq
  · intro hmem
    exact ⟨_, hmem, if_pos rfl⟩

/-! ### `onHello` -/

/-- The outcomes of `onHello`. -/
inductive HelloOutcome (L : RelayLimits) (now : ℕ) (token : String) (socket : Socket)
    (hello : Hello) (R : State) : State × List Effect → Prop
  | refused {R' : State} (reason : RejectReason) (hrooms : R'.rooms = R.rooms)
      (hatt : R'.attached = R.attached) :
      HelloOutcome L now token socket hello R (R', kick socket reason)
  | claimed {room : Room} (hfresh : R.attached.get socket = none) (hrole : hello.role = .host)
      (hroom : R.rooms.get hello.roomId = some room) (hclaim : claimable now room = true)
      (hproto : hello.proto = relayProtocolVersion) :
      HelloOutcome L now token socket hello R (claimHandoff token socket room R)
  | created {R' : State} (hfresh : R.attached.get socket = none) (hrole : hello.role = .host)
      (hroom : R.rooms.get hello.roomId = none)
      (hrooms : R'.rooms = R.rooms.set hello.roomId ⟨hello.roomId, token, socket, .empty, 1, none⟩)
      (hatt : R'.attached = R.attached.set socket ⟨.host, hello.roomId, none⟩) :
      HelloOutcome L now token socket hello R (R', [.send socket (.ready none (some token))])
  | joined {R' : State} {room : Room} (hfresh : R.attached.get socket = none)
      (hrole : hello.role = .peer) (hroom : R.rooms.get hello.roomId = some room)
      (hrooms : R'.rooms = R.rooms.set hello.roomId
        { room with
            peers := room.peers.set room.nextConnId socket, nextConnId := room.nextConnId + 1 })
      (hatt : R'.attached =
        R.attached.set socket ⟨.peer, hello.roomId, some room.nextConnId⟩) :
      HelloOutcome L now token socket hello R
        (R', [.send socket (.ready (some room.nextConnId) none),
          .send room.host (.peerUp room.nextConnId)])

variable {L : RelayLimits} {now : ℕ} {token : String} {socket : Socket} {hello : Hello} {R : State}

theorem createRoom_outcome (hfresh : R.attached.get socket = none) (hrole : hello.role = .host) :
    HelloOutcome L now token socket hello R (createRoom L now token socket hello R) := by
  unfold createRoom
  split
  · exact .refused .serverFull rfl rfl
  · dsimp only
    split
    · exact .refused .rateLimited (allow_rooms ..) (allow_attached ..)
    · split
      · exact .refused .roomExists (allow_rooms ..) (allow_attached ..)
      · next hnew =>
        rw [Bool.not_eq_true, InsertionMap.has_eq_false, allow_rooms] at hnew
        refine .created hfresh hrole hnew ?_ ?_
        · rw [allow_rooms]
        · rw [allow_attached]

theorem hostHello_outcome (hfresh : R.attached.get socket = none) (hrole : hello.role = .host)
    (hproto : hello.proto = relayProtocolVersion) :
    HelloOutcome L now token socket hello R (hostHello L now token socket hello R) := by
  unfold hostHello
  split
  · next existing hroom =>
    split
    · next hclaim => exact .claimed hfresh hrole hroom hclaim hproto
    · exact createRoom_outcome hfresh hrole
  · exact createRoom_outcome hfresh hrole

theorem peerHello_outcome (hfresh : R.attached.get socket = none) (hrole : hello.role = .peer) :
    HelloOutcome L now token socket hello R (peerHello L now socket hello R) := by
  unfold peerHello
  split
  · exact .refused .noSuchRoom rfl rfl
  · next room hroom =>
    split
    · exact .refused .roomFull rfl rfl
    · dsimp only
      split
      · exact .refused .rateLimited (allow_rooms ..) (allow_attached ..)
      · refine .joined hfresh hrole hroom ?_ ?_
        · rw [allow_rooms]
        · rw [allow_attached]

/-- **Every outcome of `onHello` is listed.** -/
theorem onHello_outcome (L : RelayLimits) (now : ℕ) (token : String) (socket : Socket)
    (hello : Hello) (R : State) :
    HelloOutcome L now token socket hello R (onHello L now token socket hello R) := by
  unfold onHello
  split
  · exact .refused .badHello rfl rfl
  · next hatt =>
    rw [Bool.not_eq_true, InsertionMap.has_eq_false] at hatt
    split
    · exact .refused .protoMismatch rfl rfl
    · next hproto =>
      split
      · next hrole => exact hostHello_outcome hatt hrole (not_not.mp hproto)
      · next hrole => exact peerHello_outcome hatt hrole

/-- A host HELLO for a room in its handoff window claims it. -/
theorem onHello_claim (L : RelayLimits) {now : ℕ} (token : String) {socket : Socket} {hello : Hello}
    {R : State} {room : Room} (hfresh : R.attached.get socket = none)
    (hproto : hello.proto = relayProtocolVersion) (hrole : hello.role = .host)
    (hroom : R.rooms.get hello.roomId = some room) (hclaim : claimable now room = true) :
    onHello L now token socket hello R = claimHandoff token socket room R := by
  have hnew : R.attached.has socket = false := (InsertionMap.has_eq_false _ _).mpr hfresh
  unfold onHello
  rw [hnew, if_neg Bool.false_ne_true, if_neg (not_not.mpr hproto), hrole]
  dsimp only
  unfold hostHello
  rw [hroom]
  dsimp only
  rw [if_pos hclaim]

/-! ### `onMessage` -/

/-- The outcomes of `onMessage`. -/
inductive MessageOutcome (now : ℕ) (socket : Socket) (data : Bytes) (R : State) :
    State × List Effect → Prop
  | ignored : MessageOutcome now socket data R (R, [])
  | ponged (hping : data.head? = some T.ping) :
      MessageOutcome now socket data R (R, [.send socket .pong])
  | kicked {att : Attached} {room : Room} {connId : ℕ} {peer : Socket}
      (hatt : R.attached.get socket = some att) (hrole : att.role = .host)
      (hroom : R.rooms.get att.roomId = some room) (hkick : decodeKick data = some connId)
      (hpeer : room.peers.get connId = some peer) :
      MessageOutcome now socket data R
        ({ R with rooms := R.rooms.set att.roomId { room with peers := room.peers.delete connId } },
          [.close peer 1000 "kicked"])
  | handedOff {att : Attached} {room : Room} (hatt : R.attached.get socket = some att)
      (hrole : att.role = .host) (hroom : R.rooms.get att.roomId = some room)
      (hhost : room.host = socket) (htype : data.head? = some T.handoff) :
      MessageOutcome now socket data R
        ({ R with
            rooms := R.rooms.set att.roomId
              { room with handoffDeadline := some (now + handoffGraceMs) } }, [])
  | toPeer {att : Attached} {room : Room} {frame : DataFromHost} {peer : Socket}
      (hatt : R.attached.get socket = some att) (hrole : att.role = .host)
      (hroom : R.rooms.get att.roomId = some room)
      (hframe : decodeDataFromHost data = some frame)
      (hpeer : room.peers.get frame.connId = some peer) :
      MessageOutcome now socket data R
        (R, [.send peer (.dataToPeer frame.isBinary frame.payload)])
  | toHost {att : Attached} {room : Room} {frame : DataFromPeer} {connId : ℕ}
      (hatt : R.attached.get socket = some att) (hrole : att.role = .peer)
      (hroom : R.rooms.get att.roomId = some room) (hopen : room.handoffDeadline = none)
      (hframe : decodeDataFromPeer data = some frame) (hconn : att.connId = some connId) :
      MessageOutcome now socket data R
        (R, [.send room.host (.dataToHost connId frame.isBinary frame.payload)])

variable {data : Bytes} {att : Attached} {room : Room}

theorem onHostMessage_outcome (hatt : R.attached.get socket = some att) (hrole : att.role = .host)
    (hroom : R.rooms.get att.roomId = some room) :
    MessageOutcome now socket data R (onHostMessage now socket att room data R) := by
  unfold onHostMessage
  split
  · unfold onKick
    split
    · exact .ignored
    · next hkick =>
      split
      · exact .ignored
      · next hpeer => exact .kicked hatt hrole hroom hkick hpeer
  · split
    · next htype =>
      unfold onHandoff
      split
      · next hhost => exact .handedOff hatt hrole hroom hhost htype
      · exact .ignored
    · split
      · exact .ignored
      · next hframe =>
        split
        · exact .ignored
        · next hpeer => exact .toPeer hatt hrole hroom hframe hpeer

theorem onPeerMessage_outcome (hatt : R.attached.get socket = some att) (hrole : att.role = .peer)
    (hroom : R.rooms.get att.roomId = some room) :
    MessageOutcome now socket data R (onPeerMessage att room data R) := by
  unfold onPeerMessage
  split
  · exact .ignored
  · next hopen =>
    rw [Bool.not_eq_true, Option.isSome_eq_false_iff, Option.isNone_iff_eq_none] at hopen
    split
    · next hframe hconn => exact .toHost hatt hrole hroom hopen hframe hconn
    · exact .ignored

/-- **Every outcome of `onMessage` is listed.** -/
theorem onMessage_outcome (now : ℕ) (socket : Socket) (data : Bytes) (R : State) :
    MessageOutcome now socket data R (onMessage now socket data R) := by
  unfold onMessage
  split
  · next hping => exact .ponged hping
  · split
    · exact .ignored
    · next hatt =>
      split
      · exact .ignored
      · next hroom =>
        split
        · next hrole => exact onHostMessage_outcome hatt hrole hroom
        · next hrole => exact onPeerMessage_outcome hatt hrole hroom

/-- A KICK from a socket attached as a host removes the peer it names, whoever the host is now. -/
theorem onMessage_kick {connId : ℕ} {peer : Socket} (hatt : R.attached.get socket = some att)
    (hrole : att.role = .host) (hroom : R.rooms.get att.roomId = some room)
    (hkick : decodeKick data = some connId) (hpeer : room.peers.get connId = some peer) :
    onMessage now socket data R =
      ({ R with rooms := R.rooms.set att.roomId { room with peers := room.peers.delete connId } },
        [.close peer 1000 "kicked"]) := by
  have hhead := head_of_decodeKick hkick
  simp [onMessage, hhead, hatt, hroom, hrole, onHostMessage, onKick, hkick, hpeer, T.kick, T.ping]

/-- A DATA_H frame from a socket attached as a host reaches the peer it names, whoever the host
is now. -/
theorem onMessage_dataH {frame : DataFromHost} {peer : Socket}
    (hatt : R.attached.get socket = some att) (hrole : att.role = .host)
    (hroom : R.rooms.get att.roomId = some room)
    (hframe : decodeDataFromHost data = some frame)
    (hpeer : room.peers.get frame.connId = some peer) :
    onMessage now socket data R =
      (R, [.send peer (.dataToPeer frame.isBinary frame.payload)]) := by
  have hhead := head_of_decodeDataFromHost hframe
  simp [onMessage, hhead, hatt, hroom, hrole, onHostMessage, hframe, hpeer, T.kick, T.ping,
    T.dataH, T.handoff]

/-- A DATA_P frame of a peer reaches the host of the room it is attached to, unless a handoff is
pending there. -/
theorem onMessage_dataP {frame : DataFromPeer} {connId : ℕ}
    (hatt : R.attached.get socket = some att) (hrole : att.role = .peer)
    (hroom : R.rooms.get att.roomId = some room) (hopen : room.handoffDeadline = none)
    (hframe : decodeDataFromPeer data = some frame) (hconn : att.connId = some connId) :
    onMessage now socket data R =
      (R, [.send room.host (.dataToHost connId frame.isBinary frame.payload)]) := by
  have hhead := head_of_decodeDataFromPeer hframe
  simp [onMessage, hhead, hatt, hroom, hrole, onPeerMessage, hopen, hframe, hconn, T.ping, T.dataP]

/-! ### `onClose` -/

/-- The outcomes of `onClose`. -/
inductive CloseOutcome (socket : Socket) (R : State) : State × List Effect → Prop
  | unattached (hatt : R.attached.get socket = none) : CloseOutcome socket R (R, [])
  | detached {att : Attached} (hatt : R.attached.get socket = some att) :
      CloseOutcome socket R ({ R with attached := R.attached.delete socket }, [])
  | toredown {att : Attached} {room : Room} (hatt : R.attached.get socket = some att)
      (hrole : att.role = .host) (hroom : R.rooms.get att.roomId = some room)
      (hhost : room.host = socket) (hopen : room.handoffDeadline = none) :
      CloseOutcome socket R
        (teardownRoom room { R with attached := R.attached.delete socket })
  | left {att : Attached} {room : Room} {connId : ℕ} (hatt : R.attached.get socket = some att)
      (hrole : att.role = .peer) (hconn : att.connId = some connId)
      (hroom : R.rooms.get att.roomId = some room) :
      CloseOutcome socket R
        (⟨R.rooms.set att.roomId { room with peers := room.peers.delete connId },
            R.attached.delete socket, R.rate⟩,
          [.send room.host (.peerDown connId)])

/-- **Every outcome of `onClose` is listed.** -/
theorem onClose_outcome (socket : Socket) (R : State) :
    CloseOutcome socket R (onClose socket R) := by
  unfold onClose
  split
  · next hatt => exact .unattached hatt
  · next att hatt =>
    dsimp only
    split
    · exact .detached hatt
    · next room hroom =>
      split
      · next hrole =>
        split
        · exact .detached hatt
        · next hcur =>
          obtain ⟨hhost, hopen⟩ := not_or.mp hcur
          rw [Bool.not_eq_true, Option.isSome_eq_false_iff, Option.isNone_iff_eq_none] at hopen
          exact .toredown hatt hrole hroom (not_not.mp hhost) hopen
      · next hrole =>
        split
        · exact .detached hatt
        · next hconn => exact .left hatt hrole hconn hroom

/-- The close of a socket attached as a peer, with its room id in use: the connId of the
attachment is deleted there and the host of that room hears of it. -/
theorem onClose_peer {connId : ℕ} (hatt : R.attached.get socket = some att)
    (hrole : att.role = .peer) (hconn : att.connId = some connId)
    (hroom : R.rooms.get att.roomId = some room) :
    onClose socket R =
      (⟨R.rooms.set att.roomId { room with peers := room.peers.delete connId },
          R.attached.delete socket, R.rate⟩,
        [.send room.host (.peerDown connId)]) := by
  simp [onClose, hatt, hroom, hrole, hconn]

/-! ### `sweep` -/

theorem sweepRooms_get (now : ℕ) (rooms : List Room) : ∀ (R : State) (r : String),
    (sweepRooms now rooms R).1.rooms.get r =
      if ∃ room ∈ rooms, expired now room = true ∧ room.roomId = r then none
      else R.rooms.get r := by
  induction rooms with
  | nil => intro R r; simp [sweepRooms]
  | cons room rooms ih =>
    intro R r
    by_cases hexp : expired now room = true
    · simp only [sweepRooms, hexp, if_true, ih, teardownRoom, InsertionMap.get_delete,
        List.mem_cons, exists_eq_or_imp, true_and]
      by_cases hr : r = room.roomId
      · simp [hr]
      · simp [hr, Ne.symm hr]
    · simp only [sweepRooms, hexp, ih, List.mem_cons, exists_eq_or_imp, Bool.false_eq_true,
        if_false, false_and, false_or]

/-- The room loop of `sweep` changes rooms only. -/
theorem sweepRooms_keeps (now : ℕ) (rooms : List Room) : ∀ R : State,
    (sweepRooms now rooms R).1.attached = R.attached ∧
      (sweepRooms now rooms R).1.rate = R.rate := by
  induction rooms with
  | nil => intro R; exact ⟨rfl, rfl⟩
  | cons room rooms ih =>
    intro R
    rw [sweepRooms]
    split
    · exact ih _
    · exact ih R

@[simp] theorem sweep_attached (L : RelayLimits) (now : ℕ) (R : State) :
    (sweep L now R).1.attached = R.attached := by
  simp [sweep, (sweepRooms_keeps _ _ _).1]

/-- **`sweep` removes exactly the rooms whose handoff window has elapsed.** -/
theorem sweep_rooms_get (L : RelayLimits) (now : ℕ) (R : State)
    (hid : ∀ r room, R.rooms.get r = some room → room.roomId = r) (r : String) :
    (sweep L now R).1.rooms.get r =
      match R.rooms.get r with
      | some room => if expired now room = true then none else some room
      | none => none := by
  have hiff : (∃ room ∈ R.rooms.values, expired now room = true ∧ room.roomId = r) ↔
      ∃ room, R.rooms.get r = some room ∧ expired now room = true := by
    constructor
    · rintro ⟨room, hmem, hexp, rfl⟩
      obtain ⟨r, hr⟩ := (InsertionMap.mem_values _ _).mp hmem
      exact ⟨room, by rw [hid r room hr]; exact hr, hexp⟩
    · rintro ⟨room, hr, hexp⟩
      exact ⟨room, (InsertionMap.mem_values _ _).mpr ⟨r, hr⟩, hexp, hid r room hr⟩
  simp only [sweep, sweepRate_rooms, sweepRooms_get, hiff]
  cases hr : R.rooms.get r with
  | none => simp
  | some room => simp

end ScreenSharing.Relay
