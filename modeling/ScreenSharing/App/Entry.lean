import Mathlib.Data.Fintype.EquivFin
import Mathlib.Logic.Function.Basic
import ScreenSharing.App.Standing
import ScreenSharing.Relay.Runs

/-!
# Many clients enter one room

`lobby` puts `n` sessions next to a relay.  A session that opens a link sends a HELLO on a socket of
its own; the relay takes the HELLOs in any order, and the answer to each makes its session go on.
Around that anything else may happen at the relay that has nothing to do with the room, and anything
to a session that is part of entering.

Whoever finds no room tries to host, and whoever then finds the room tries to join again.  The room is
never taken down, so the third attempt of a client finds it.  `Course` says where each client is on this
way, and `enter_elects_one_host` that all of them come to its end, one of them as the host.
-/

namespace ScreenSharing.App

open Lib RoomSession

/-- `FIXED_ROOM_ID_HEX`. -/
def fixedRoomIdHex : String := "65727231"

def appVersion : String := "0.1.0"

/-- The fields of the HELLO that `open` sends. -/
def helloOf (role : Relay.Role) : Relay.Hello :=
  ⟨role, fixedRoomIdHex, appVersion, Relay.relayProtocolVersion, none⟩

/-- `isRetriableRelayError`, of an error with the reason of a REJECT. -/
def isRetriable : Relay.RejectReason → Bool
  | .roomExists | .noSuchRoom | .roomFull | .badHello | .protoMismatch => false
  | .hostAbsent | .rateLimited | .serverFull => true

/-- What is on its way between a client and the relay. -/
inductive Post
  | idle
  | hello (role : Relay.Role)
  | answer (role : Relay.Role) (frame : Relay.Frame)
  deriving DecidableEq

/-- A client: its session, and the link that it opens. -/
structure Entrant where
  session : RoomSession
  post : Post
  /-- the socket of its last HELLO -/
  socket : Option Relay.Socket
  /-- how often `host` or `join` has been called -/
  attempts : ℕ

def Entrant.new : Entrant := ⟨.begin, .idle, none, 0⟩

structure Lobby (n : ℕ) where
  relay : Relay.ServerState
  entrants : Fin n → Entrant

inductive LobbyEvent (n : ℕ)
  | enter (i : Fin n) (opts : EnterOptions)
  | hello (i : Fin n) (socket : Relay.Socket) (now : ℕ) (token : String)
  /-- the session goes on with the answer; `hostPeerId` is the id that a new server draws -/
  | answer (i : Fin n) (hostPeerId : String)
  | session (i : Fin n) (e : SessionEvent)
  | relay (e : Relay.Event)

variable {n : ℕ}

def Entrant.opens : List Effect → Option Relay.Role
  | [] => none
  | .openHostLink _ :: _ => some .host
  | .openPeerLink _ :: _ => some .peer
  | _ :: effects => opens effects

/-- The session has taken a step; where it opens a link, a HELLO is under way. -/
def Entrant.goOn (x : Entrant) (result : RoomSession × List Effect) : Entrant :=
  match Entrant.opens result.2 with
  | some role => { x with session := result.1, post := .hello role, attempts := x.attempts + 1 }
  | none => { x with session := result.1, post := .idle }

/-- The link reads the answer to its HELLO. -/
def Entrant.read (hostPeerId : String) (x : Entrant) : Entrant :=
  match x.post with
  | .answer _ (.ready ..) => x.goOn (x.session.step (.entryOpened hostPeerId))
  | .answer role (.reject reason) =>
    if isRetriable reason then { x with post := .hello role }
    else
      x.goOn (x.session.step (.entryFailed (some reason.text) ("relay rejected: " ++ reason.text)))
  | _ => x

namespace Lobby

def start (S : Relay.ServerState) : Lobby n := ⟨S, fun _ => .new⟩

/-- A client is somewhere else now. -/
def move (W : Lobby n) (i : Fin n) (x : Entrant) : Lobby n :=
  { W with entrants := Function.update W.entrants i x }

variable (L : Relay.RelayLimits) (W : Lobby n)

/-- The relay takes the HELLO of client `i`. -/
def greet (i : Fin n) (role : Relay.Role) (socket : Relay.Socket) (now : ℕ) (token : String) : Lobby n :=
  let (S, effects) := (Relay.server L).step W.relay (.hello socket (helloOf role) now token)
  let post := match Relay.sentTo socket effects with
    | frame :: _ => .answer role frame
    | [] => .hello role
  { W with relay := S }.move i { W.entrants i with post := post, socket := some socket }

def step : LobbyEvent n → Lobby n
  | .enter i opts => W.move i ((W.entrants i).goOn ((W.entrants i).session.step (.enter opts)))
  | .hello i socket now token =>
    match (W.entrants i).post with
    | .hello role => W.greet L i role socket now token
    | _ => W
  | .answer i hostPeerId => W.move i ((W.entrants i).read hostPeerId)
  | .session i e =>
    W.move i { W.entrants i with session := ((W.entrants i).session.step e).1 }
  | .relay e => { W with relay := (Relay.server L).next W.relay e }

/-- Nobody in the room leaves it, removes a peer or hands it over, and no HELLO comes but those of
the clients.  Data may go to and fro. -/
def Elsewhere (R : Relay.State) : Relay.Event → Prop
  | .hello _ hello _ _ => hello.roomId ≠ fixedRoomIdHex
  | .message socket data _ =>
    Relay.decodeKick data = none ∧ data.head? ≠ some Relay.T.handoff ∨
      ∀ att ∈ R.attached.get socket, att.roomId ≠ fixedRoomIdHex
  | .close socket => ∀ att ∈ R.attached.get socket, att.roomId ≠ fixedRoomIdHex
  | .sweep _ => True

/-- The session neither begins nor leaves, and hears of no other host; what its link throws before
it is open is up to the relay. -/
def entersOnly (s : RoomSession) : SessionEvent → Bool
  | .waking | .entryListening | .entryJoined _ | .entryConnected | .entryClosed | .sendMedia _
  | .server .. => true
  | .entryFailed .. => !s.entry.isOpening
  | .client _ event => match event with
    | .hostTransfer .. => false
    | _ => true
  | _ => false

def enabled : LobbyEvent n → Prop
  | .enter i opts => (W.entrants i).session.enabled (.enter opts)
  | .hello i socket now token =>
    (∃ role, (W.entrants i).post = .hello role) ∧
      Relay.Enabled W.relay (.hello socket (helloOf .peer) now token)
  | .answer i _ => ∃ role frame, (W.entrants i).post = .answer role frame
  | .session i e =>
    (W.entrants i).session.enabled e ∧ entersOnly (W.entrants i).session e = true
  | .relay e => Relay.Enabled W.relay e ∧ Elsewhere W.relay.relay e

end Lobby

def lobby (L : Relay.RelayLimits) (n : ℕ) : Machine (Lobby n) (LobbyEvent n) Empty where
  enabled := Lobby.enabled
  step W e := (W.step L e, [])

/-- No limit of the relay stands against the HELLO. -/
def WithinLimits (L : Relay.RelayLimits) (W : Lobby n) : LobbyEvent n → Prop
  | .hello i socket now _ =>
    match (W.entrants i).post with
    | .hello .host => W.relay.relay.rooms.size < L.maxRooms ∧
        (Relay.allow L now socket.ip .creates W.relay.relay).2 = true
    | .hello .peer =>
      (∀ room ∈ W.relay.relay.rooms.get fixedRoomIdHex, room.peers.size < L.maxPeersPerRoom) ∧
        (Relay.allow L now socket.ip .joins W.relay.relay).2 = true
    | _ => True
  | _ => True

/-! ### The way of a client -/

variable {L : Relay.RelayLimits} {W : Lobby n} {x : Entrant} {room room' : Option Relay.Room}
  {s : RoomSession} {e : SessionEvent}

def roleOf (asHost : Bool) : Relay.Role := if asHost then .host else .peer

/-- The session waits for the link of its attempt `a`. -/
structure Asks (x : Entrant) (a : ℕ) (asHost : Bool) : Prop where
  entry : ∃ opts, x.session.entry = .opening (some a) opts asHost
  attempts : x.attempts = a
  leaving : x.session.leaving = false
  hostLink : x.session.hostLink = false
  peerLink : x.session.peerLink = false

/-- The socket of the client is that of the host, or registered as that of a peer. -/
def Seat (room : Option Relay.Room) (x : Entrant) : Bool → Prop
  | true => ∃ r ∈ room, x.socket = some r.host
  | false => ∃ r ∈ room, ∃ connId socket, x.socket = some socket ∧ r.peers.get connId = some socket

/-- Is the session behind its link? -/
def EntryFlow.opened : EntryFlow → Bool
  | .idle | .opening .. => false
  | _ => true

theorem isIdle_of_opened {flow : EntryFlow} (h : flow.opened = true) : flow.isIdle = false := by
  cases flow with
  | idle => simp [EntryFlow.opened] at h
  | _ => rfl

/-- **Where a client is on its way**: it tries to join, to host, and to join again, and it tries to join
a second time only where there is a room. -/
inductive Course (room : Option Relay.Room) (x : Entrant) : Prop
  | idle (entry : x.session.entry = .idle) (post : x.post = .idle) (attempts : x.attempts = 0)
      (leaving : x.session.leaving = false) (hostLink : x.session.hostLink = false)
      (peerLink : x.session.peerLink = false)
  | asks (a : ℕ) (asHost : Bool) (asks : Asks x a asHost) (post : x.post = .hello (roleOf asHost))
      (why : a = 1 ∧ asHost = false ∨ a = 2 ∧ asHost = true ∨ a = 3 ∧ asHost = false ∧ room ≠ none)
  | refused (a : ℕ) (asHost : Bool) (reason : Relay.RejectReason) (asks : Asks x a asHost)
      (post : x.post = .answer (roleOf asHost) (.reject reason))
      (why : a = 1 ∧ asHost = false ∧ reason = .noSuchRoom ∨
        a = 2 ∧ asHost = true ∧ reason = .roomExists ∧ room ≠ none)
  | admitted (a : ℕ) (asHost : Bool) (connId : Option ℕ) (hostToken : Option String)
      (asks : Asks x a asHost) (post : x.post = .answer (roleOf asHost) (.ready connId hostToken))
      (few : a ≤ maxEnterAttempts) (seat : Seat room x asHost)
  | past (asHost : Bool) (entry : x.session.entry.opened = true) (post : x.post = .idle)
      (few : x.attempts ≤ maxEnterAttempts) (hostLink : x.session.hostLink = asHost)
      (peerLink : x.session.peerLink = !asHost) (seat : Seat room x asHost)

/-- The room keeps its host and whoever is registered. -/
def Stays (room room' : Option Relay.Room) : Prop :=
  ∀ r ∈ room, ∃ r' ∈ room', r'.host = r.host ∧
    ∀ connId socket, r.peers.get connId = some socket → r'.peers.get connId = some socket

theorem Stays.refl : Stays room room := fun r hr => ⟨r, hr, rfl, fun _ _ h => h⟩

theorem Stays.ne_none (h : Stays room room') (hroom : room ≠ none) : room' ≠ none := by
  obtain ⟨r, hr⟩ := Option.ne_none_iff_exists'.mp hroom
  obtain ⟨r', hr', -⟩ := h r hr
  intro hnone
  rw [hnone] at hr'
  cases hr'

theorem Stays.seat (h : Stays room room') {asHost : Bool} (hseat : Seat room x asHost) :
    Seat room' x asHost := by
  cases asHost with
  | true =>
    obtain ⟨r, hr, hsocket⟩ := hseat
    obtain ⟨r', hr', hhost, -⟩ := h r hr
    exact ⟨r', hr', by rw [hsocket, hhost]⟩
  | false =>
    obtain ⟨r, hr, connId, socket, hsocket, hpeer⟩ := hseat
    obtain ⟨r', hr', -, hpeers⟩ := h r hr
    exact ⟨r', hr', connId, socket, hsocket, hpeers connId socket hpeer⟩

theorem Stays.course (h : Stays room room') (hcourse : Course room x) : Course room' x := by
  cases hcourse with
  | idle entry post attempts leaving hostLink peerLink =>
    exact .idle entry post attempts leaving hostLink peerLink
  | asks a asHost asks post why =>
    refine .asks a asHost asks post ?_
    obtain hfirst | hsecond | ⟨ha, hpeer, hroom⟩ := why
    · exact .inl hfirst
    · exact .inr (.inl hsecond)
    · exact .inr (.inr ⟨ha, hpeer, h.ne_none hroom⟩)
  | refused a asHost reason asks post why =>
    refine .refused a asHost reason asks post ?_
    obtain hfirst | ⟨ha, hhost, hreason, hroom⟩ := why
    · exact .inl hfirst
    · exact .inr ⟨ha, hhost, hreason, h.ne_none hroom⟩
  | admitted a asHost connId hostToken asks post few seat =>
    exact .admitted a asHost connId hostToken asks post few (h.seat seat)
  | past asHost entry post few hostLink peerLink seat =>
    exact .past asHost entry post few hostLink peerLink (h.seat seat)

/-! ### Steps of a session -/

theorem goOn_opens {result : RoomSession × List Effect} (role : Relay.Role)
    (h : Entrant.opens result.2 = some role) : x.goOn result =
      { x with session := result.1, post := .hello role, attempts := x.attempts + 1 } := by
  simp [Entrant.goOn, h]

theorem goOn_opens_nothing {result : RoomSession × List Effect} (h : Entrant.opens result.2 = none) :
    x.goOn result = { x with session := result.1, post := .idle } := by
  simp [Entrant.goOn, h]

theorem course_enter (hcourse : Course room x) (opts : EnterOptions)
    (henabled : x.session.enabled (.enter opts)) :
    Course room (x.goOn (x.session.step (.enter opts))) := by
  have hidle := henabled.2
  cases hcourse with
  | idle entry post attempts leaving hostLink peerLink =>
    rw [goOn_opens .peer rfl]
    refine .asks 1 false ⟨⟨opts, rfl⟩, ?_, leaving, hostLink, peerLink⟩ rfl (.inl ⟨rfl, rfl⟩)
    simp [attempts]
  | asks a asHost asks | refused a asHost reason asks | admitted a asHost connId hostToken asks =>
    obtain ⟨opts', hentry⟩ := asks.entry
    rw [hentry] at hidle
    cases hidle
  | past asHost entry =>
    rw [isIdle_of_opened entry] at hidle
    cases hidle

/-- **Turned away**, the session tries the other way in. -/
theorem asks_again {a : ℕ} {asHost : Bool} (hasks : Asks x a asHost) (ha : a < maxEnterAttempts)
    (reason : String) (hreason : flips asHost (some reason) = true) (message : String) :
    Asks (x.goOn (x.session.step (.entryFailed (some reason) message))) (a + 1) (!asHost) ∧
      (x.goOn (x.session.step (.entryFailed (some reason) message))).post =
        .hello (roleOf !asHost) := by
  obtain ⟨opts, hentry⟩ := hasks.entry
  have hstep : x.session.step (.entryFailed (some reason) message) =
      x.session.attempt (a + 1) opts !asHost := by
    simp [step, entryFailed, hentry, failed, hasks.leaving, hreason, ha]
  rw [hstep]
  cases asHost with
  | true =>
    rw [goOn_opens .peer rfl]
    exact ⟨⟨⟨opts, rfl⟩, by simp [hasks.attempts], hasks.leaving, hasks.hostLink, hasks.peerLink⟩, rfl⟩
  | false =>
    rw [goOn_opens .host rfl]
    exact ⟨⟨⟨opts, rfl⟩, by simp [hasks.attempts], hasks.leaving, hasks.hostLink, hasks.peerLink⟩, rfl⟩

/-- **Let in**, it goes on behind its link. -/
theorem past_of_admitted {a : ℕ} {asHost : Bool} (hasks : Asks x a asHost) (hostPeerId : String) :
    Entrant.opens (x.session.step (.entryOpened hostPeerId)).2 = none ∧
      (x.session.step (.entryOpened hostPeerId)).1.entry.opened = true ∧
      (x.session.step (.entryOpened hostPeerId)).1.hostLink = asHost ∧
      (x.session.step (.entryOpened hostPeerId)).1.peerLink = !asHost := by
  obtain ⟨opts, hentry⟩ := hasks.entry
  cases asHost with
  | true =>
    simp only [step, entryOpened, hentry, hasks.leaving]
    exact ⟨rfl, rfl, rfl, hasks.peerLink⟩
  | false =>
    simp only [step, entryOpened, hentry, hasks.leaving]
    exact ⟨rfl, rfl, hasks.hostLink, rfl⟩

theorem course_read (hcourse : Course room x) (hostPeerId : String) :
    Course room (x.read hostPeerId) := by
  cases hcourse with
  | idle entry post attempts leaving hostLink peerLink =>
    simp only [Entrant.read, post]
    exact .idle entry post attempts leaving hostLink peerLink
  | asks a asHost asks post why =>
    simp only [Entrant.read, post]
    exact .asks a asHost asks post why
  | refused a asHost reason asks post why =>
    simp only [Entrant.read, post]
    obtain ⟨rfl, rfl, rfl⟩ | ⟨rfl, rfl, rfl, hroom⟩ := why
    · obtain ⟨hagain, hpost⟩ := asks_again asks (by decide) "no_such_room" rfl
        "relay rejected: no_such_room"
      exact .asks 2 true hagain hpost (.inr (.inl ⟨rfl, rfl⟩))
    · obtain ⟨hagain, hpost⟩ := asks_again asks (by decide) "room_exists" rfl
        "relay rejected: room_exists"
      exact .asks 3 false hagain hpost (.inr (.inr ⟨rfl, rfl, hroom⟩))
  | admitted a asHost connId hostToken asks post few seat =>
    obtain ⟨hopens, hentry, hhost, hpeer⟩ := past_of_admitted asks hostPeerId
    simp only [Entrant.read, post]
    rw [goOn_opens_nothing hopens]
    refine .past asHost hentry rfl ?_ hhost hpeer ?_
    · rw [asks.attempts]
      exact few
    · cases asHost <;> exact seat
  | past asHost entry post few hostLink peerLink seat =>
    simp only [Entrant.read, post]
    exact .past asHost entry post few hostLink peerLink seat

/-- What a step that only enters keeps of the session. -/
structure Inside (s s' : RoomSession) : Prop where
  leaving : s'.leaving = s.leaving
  hostLink : s'.hostLink = s.hostLink
  peerLink : s'.peerLink = s.peerLink
  entry : s'.entry = s.entry ∨ s.entry.opened = true ∧ s'.entry.opened = true

theorem Inside.refl : Inside s s := ⟨rfl, rfl, rfl, .inl rfl⟩

theorem inside_onClient (client : ℕ) {event : ClientEvent}
    (h : ∀ successorPeerId epoch, event ≠ .hostTransfer successorPeerId epoch) :
    Inside s (s.onClient client event).1 := by
  cases event with
  | hostLost =>
    simp only [onClient]
    split <;> exact ⟨rfl, rfl, rfl, .inl rfl⟩
  | close reason =>
    simp only [onClient]
    split <;> exact ⟨rfl, rfl, rfl, .inl rfl⟩
  | hostTransfer successorPeerId epoch => exact absurd rfl (h successorPeerId epoch)
  | _ => exact ⟨rfl, rfl, rfl, .inl rfl⟩

theorem inside_onServer (server : ℕ) (event : ServerEvent) :
    Inside s (s.onServer server event).1 := by
  cases event with
  | sendTo peerId body =>
    simp only [onServer]
    split <;> exact Inside.refl
  | _ => exact ⟨rfl, rfl, rfl, .inl rfl⟩

theorem inside_entryFailed (h : s.entry.isOpening = false) (reason : Option String)
    (message : String) : Inside s (s.entryFailed reason message).1 := by
  unfold entryFailed
  split
  · next heq =>
    rw [heq] at h
    cases h
  · next heq => exact ⟨rfl, rfl, rfl, .inr ⟨by rw [heq]; rfl, rfl⟩⟩
  · next heq => exact ⟨rfl, rfl, rfl, .inr ⟨by rw [heq]; rfl, rfl⟩⟩
  · exact Inside.refl

theorem inside_step (he : Lobby.entersOnly s e = true) :
    Inside s (s.step e).1 := by
  cases e with
  | waking =>
    simp only [step, setWaking]
    split <;> exact ⟨rfl, rfl, rfl, .inl rfl⟩
  | entryListening =>
    simp only [step, entryListening]
    split
    · next heq =>
      split
      · exact ⟨rfl, rfl, rfl, .inr ⟨by rw [heq]; rfl, rfl⟩⟩
      · exact ⟨rfl, rfl, rfl, .inr ⟨by rw [heq]; rfl, rfl⟩⟩
    · exact Inside.refl
  | entryJoined welcome =>
    simp only [step, entryJoined]
    split
    · next heq =>
      split
      · exact inside_entryFailed (by rw [heq]; rfl) _ _
      · exact ⟨rfl, rfl, rfl, .inr ⟨by rw [heq]; rfl, rfl⟩⟩
    · exact Inside.refl
  | entryConnected =>
    simp only [step, entryConnected]
    split
    · next heq =>
      split
      · exact ⟨rfl, rfl, rfl, .inr ⟨by rw [heq]; rfl, rfl⟩⟩
      · exact ⟨rfl, rfl, rfl, .inr ⟨by rw [heq]; rfl, rfl⟩⟩
    · exact Inside.refl
  | entryFailed reason message => exact inside_entryFailed (by simpa [Lobby.entersOnly] using he) _ _
  | entryClosed =>
    simp only [step, entryClosed]
    split
    · next heq => exact ⟨rfl, rfl, rfl, .inr ⟨by rw [heq]; rfl, rfl⟩⟩
    · next heq => exact ⟨rfl, rfl, rfl, .inr ⟨by rw [heq]; rfl, rfl⟩⟩
    · exact Inside.refl
  | sendMedia body => exact Inside.refl
  | client client event =>
    refine inside_onClient client fun successorPeerId epoch heq => ?_
    rw [heq] at he
    cases he
  | server server event => exact inside_onServer server event
  | _ => cases he

theorem Inside.asks {s' : RoomSession} (h : Inside x.session s') {a : ℕ} {asHost : Bool}
    (hasks : Asks x a asHost) : Asks { x with session := s' } a asHost := by
  obtain ⟨opts, hentry⟩ := hasks.entry
  refine ⟨⟨opts, ?_⟩, hasks.attempts, h.leaving.trans hasks.leaving, h.hostLink.trans hasks.hostLink,
    h.peerLink.trans hasks.peerLink⟩
  obtain hsame | ⟨hopened, -⟩ := h.entry
  · exact hsame.trans hentry
  · rw [hentry] at hopened
    cases hopened

theorem Inside.course {s' : RoomSession} (h : Inside x.session s') (hcourse : Course room x) :
    Course room { x with session := s' } := by
  cases hcourse with
  | idle entry post attempts leaving hostLink peerLink =>
    refine .idle ?_ post attempts (h.leaving.trans leaving) (h.hostLink.trans hostLink)
      (h.peerLink.trans peerLink)
    obtain hsame | ⟨hopened, -⟩ := h.entry
    · exact hsame.trans entry
    · rw [entry] at hopened
      cases hopened
  | asks a asHost asks post why => exact .asks a asHost (h.asks asks) post why
  | refused a asHost reason asks post why => exact .refused a asHost reason (h.asks asks) post why
  | admitted a asHost connId hostToken asks post few seat =>
    refine .admitted a asHost connId hostToken (h.asks asks) post few ?_
    cases asHost <;> exact seat
  | past asHost entry post few hostLink peerLink seat =>
    refine .past asHost ?_ post few (h.hostLink.trans hostLink) (h.peerLink.trans peerLink) ?_
    · obtain hsame | ⟨-, hopened⟩ := h.entry
      · rw [show ({ x with session := s' } : Entrant).session.entry = x.session.entry from hsame]
        exact entry
      · exact hopened
    · cases asHost <;> exact seat

/-! ### Steps of the relay -/

section Greeting

variable {R : Relay.State} {r : Relay.Room} {socket : Relay.Socket} {now : ℕ} {token : String}

/-- The first frame that goes back to the socket. -/
def reply (socket : Relay.Socket) (result : Relay.State × List Relay.Effect) : Option Relay.Frame :=
  (Relay.sentTo socket result.2).head?

theorem reply_cons (frame : Relay.Frame) (effects : List Relay.Effect) :
    reply socket (R, .send socket frame :: effects) = some frame := by
  simp [reply, Relay.sentTo_cons_send]

/-- **A HELLO of a peer** makes it a peer of a room that is there. -/
theorem join_some (L : Relay.RelayLimits) (now : ℕ) (token : String)
    (hfresh : R.attached.get socket = none)
    (hroom : R.rooms.get fixedRoomIdHex = some r) (hsize : r.peers.size < L.maxPeersPerRoom)
    (hallow : (Relay.allow L now socket.ip .joins R).2 = true) :
    (Relay.onHello L now token socket (helloOf .peer) R).1.rooms = R.rooms.set fixedRoomIdHex
        { r with peers := r.peers.set r.nextConnId socket, nextConnId := r.nextConnId + 1 } ∧
      reply socket (Relay.onHello L now token socket (helloOf .peer) R) =
        some (.ready (some r.nextConnId) none) := by
  have hnew : R.attached.has socket = false := (InsertionMap.has_eq_false _ _).mpr hfresh
  have hstep : Relay.onHello L now token socket (helloOf .peer) R =
      Relay.peerHello L now socket (helloOf .peer) R := by
    simp [Relay.onHello, hnew, helloOf]
  rw [hstep]
  have hfull : ¬ r.peers.size ≥ L.maxPeersPerRoom := Nat.not_le_of_lt hsize
  simp only [Relay.peerHello, helloOf, hroom, hfull, hallow, if_false, Bool.not_true,
    Bool.false_eq_true, Relay.allow_rooms, true_and]
  exact reply_cons _ _

/-- It is refused where there is no room. -/
theorem join_none (L : Relay.RelayLimits) (now : ℕ) (token : String)
    (hfresh : R.attached.get socket = none) (hroom : R.rooms.get fixedRoomIdHex = none) :
    (Relay.onHello L now token socket (helloOf .peer) R).1.rooms = R.rooms ∧
      reply socket (Relay.onHello L now token socket (helloOf .peer) R) =
        some (.reject .noSuchRoom) := by
  have hnew : R.attached.has socket = false := (InsertionMap.has_eq_false _ _).mpr hfresh
  have hstep : Relay.onHello L now token socket (helloOf .peer) R =
      (R, Relay.kick socket .noSuchRoom) := by
    simp [Relay.onHello, hnew, helloOf, Relay.peerHello, hroom]
  rw [hstep]
  exact ⟨rfl, reply_cons _ _⟩

/-- **A HELLO of a host** is refused where there is a room. -/
theorem host_some (L : Relay.RelayLimits) (now : ℕ) (token : String)
    (hfresh : R.attached.get socket = none)
    (hroom : R.rooms.get fixedRoomIdHex = some r) (hopen : r.handoffDeadline = none)
    (hsize : R.rooms.size < L.maxRooms) (hallow : (Relay.allow L now socket.ip .creates R).2 = true) :
    (Relay.onHello L now token socket (helloOf .host) R).1.rooms = R.rooms ∧
      reply socket (Relay.onHello L now token socket (helloOf .host) R) =
        some (.reject .roomExists) := by
  have hnew : R.attached.has socket = false := (InsertionMap.has_eq_false _ _).mpr hfresh
  have hfull : ¬ R.rooms.size ≥ L.maxRooms := Nat.not_le_of_lt hsize
  have hhas : R.rooms.has fixedRoomIdHex = true := (InsertionMap.has_iff _ _).mpr ⟨r, hroom⟩
  have hstep : Relay.onHello L now token socket (helloOf .host) R =
      ((Relay.allow L now socket.ip .creates R).1, Relay.kick socket .roomExists) := by
    simp [Relay.onHello, hnew, helloOf, Relay.hostHello, hroom, Relay.claimable, hopen,
      Relay.createRoom, hfull, hallow, hhas]
  rw [hstep]
  exact ⟨Relay.allow_rooms .., reply_cons _ _⟩

/-- It makes the room where there is none. -/
theorem host_none (L : Relay.RelayLimits) (now : ℕ) (token : String)
    (hfresh : R.attached.get socket = none) (hroom : R.rooms.get fixedRoomIdHex = none)
    (hsize : R.rooms.size < L.maxRooms) (hallow : (Relay.allow L now socket.ip .creates R).2 = true) :
    (Relay.onHello L now token socket (helloOf .host) R).1.rooms = R.rooms.set fixedRoomIdHex
        ⟨fixedRoomIdHex, token, socket, .empty, 1, none⟩ ∧
      reply socket (Relay.onHello L now token socket (helloOf .host) R) =
        some (.ready none (some token)) := by
  have hnew : R.attached.has socket = false := (InsertionMap.has_eq_false _ _).mpr hfresh
  have hfull : ¬ R.rooms.size ≥ L.maxRooms := Nat.not_le_of_lt hsize
  have hhas : R.rooms.has fixedRoomIdHex = false := (InsertionMap.has_eq_false _ _).mpr hroom
  have hstep : Relay.onHello L now token socket (helloOf .host) R =
      Relay.createRoom L now token socket (helloOf .host) R := by
    simp [Relay.onHello, hnew, helloOf, Relay.hostHello, hroom]
  rw [hstep]
  simp only [Relay.createRoom, helloOf, hfull, hallow, hhas, if_false, Bool.not_true,
    Bool.false_eq_true, Relay.allow_rooms, true_and]
  exact reply_cons _ _

end Greeting

/-- What happens elsewhere leaves the room as it is. -/
theorem elsewhere_room {S : Relay.ServerState} {e : Relay.Event} (hwf : Relay.Wf S)
    (he : Lobby.Elsewhere S.relay e)
    (hopen : ∀ r ∈ S.relay.rooms.get fixedRoomIdHex, r.handoffDeadline = none) :
    ((Relay.server L).next S e).relay.rooms.get fixedRoomIdHex = S.relay.rooms.get fixedRoomIdHex := by
  rw [Relay.next_relay]
  cases e with
  | hello socket hello now token =>
    have hother : fixedRoomIdHex ≠ hello.roomId := fun heq => he heq.symm
    have houtcome := Relay.onHello_outcome L now token socket hello S.relay
    show (Relay.onHello L now token socket hello S.relay).1.rooms.get _ = _
    generalize Relay.onHello L now token socket hello S.relay = result at houtcome
    cases houtcome with
    | refused reason hrooms => rw [hrooms]
    | claimed hfresh hrole hroom =>
      simp only [Relay.claimHandoff]
      rw [hwf.roomId _ _ hroom, InsertionMap.get_set_ne _ _ hother]
    | created hfresh hrole hroom hrooms => rw [hrooms, InsertionMap.get_set_ne _ _ hother]
    | joined hfresh hrole hroom hrooms => rw [hrooms, InsertionMap.get_set_ne _ _ hother]
  | message socket data now =>
    have houtcome := Relay.onMessage_outcome now socket data S.relay
    show (Relay.onMessage now socket data S.relay).1.rooms.get _ = _
    generalize Relay.onMessage now socket data S.relay = result at houtcome
    cases houtcome with
    | kicked hatt hrole hroom hkick =>
      obtain ⟨hnone, -⟩ | hother := he
      · rw [hnone] at hkick
        cases hkick
      · exact InsertionMap.get_set_ne _ _ (Ne.symm (hother _ hatt))
    | handedOff hatt hrole hroom hhost htype =>
      obtain ⟨-, hdata⟩ | hother := he
      · exact absurd htype hdata
      · exact InsertionMap.get_set_ne _ _ (Ne.symm (hother _ hatt))
    | _ => rfl
  | close socket =>
    have houtcome := Relay.onClose_outcome socket S.relay
    show (Relay.onClose socket S.relay).1.rooms.get _ = _
    generalize Relay.onClose socket S.relay = result at houtcome
    cases houtcome with
    | toredown hatt hrole hroom =>
      simp only [Relay.teardownRoom]
      rw [hwf.roomId _ _ hroom]
      exact InsertionMap.get_delete_ne _ (Ne.symm (he _ hatt))
    | left hatt => exact InsertionMap.get_set_ne _ _ (Ne.symm (he _ hatt))
    | _ => rfl
  | sweep now =>
    show (Relay.sweep L now S.relay).1.rooms.get _ = _
    rw [Relay.sweep_rooms_get L now S.relay hwf.roomId]
    split
    · next r hr => simp [hr, Relay.expired, hopen r hr]
    · next hr => exact hr.symm

/-! ### Runs -/

/-- What the relay has for the room. -/
def Lobby.roomNow (W : Lobby n) : Option Relay.Room := W.relay.relay.rooms.get fixedRoomIdHex

/-- The relay has let the client in. -/
def Entrant.letIn (x : Entrant) : Prop :=
  x.session.entry.opened = true ∨ ∃ role connId hostToken, x.post = .answer role (.ready connId hostToken)

/-- **The lobby**: every client is on its way, and every HELLO has come on a socket of its own. -/
structure InOrder (W : Lobby n) : Prop where
  wf : Relay.Wf W.relay
  course : ∀ i, Course W.roomNow (W.entrants i)
  handoff : ∀ r ∈ W.roomNow, r.handoffDeadline = none
  hosted : ∀ r ∈ W.roomNow, ∃ i, (W.entrants i).socket = some r.host ∧ (W.entrants i).letIn
  apart : ∀ r ∈ W.roomNow, ∀ connId socket, r.peers.get connId = some socket → socket ≠ r.host
  greeted : ∀ i socket, (W.entrants i).socket = some socket → socket ∈ W.relay.greeted
  distinct : ∀ i j socket, (W.entrants i).socket = some socket → (W.entrants j).socket = some socket →
    i = j

theorem inOrder_start {S : Relay.ServerState} (hwf : Relay.Wf S)
    (hroom : S.relay.rooms.get fixedRoomIdHex = none) : InOrder (Lobby.start S : Lobby n) := by
  have hnone : ∀ r ∈ (Lobby.start S : Lobby n).roomNow, False := by
    intro r hr
    rw [Lobby.roomNow, show (Lobby.start S : Lobby n).relay = S from rfl, hroom] at hr
    cases hr
  refine ⟨hwf, fun i => .idle rfl rfl rfl rfl rfl rfl, fun r hr => (hnone r hr).elim,
    fun r hr => (hnone r hr).elim, fun r hr => (hnone r hr).elim, ?_, ?_⟩
  · intro i socket h
    cases h
  · intro i j socket h
    cases h

/-- A client goes on where it is. -/
theorem InOrder.move (h : InOrder W) (i : Fin n) {x' : Entrant}
    (hsocket : x'.socket = (W.entrants i).socket) (hcourse : Course W.roomNow x')
    (hin : (W.entrants i).letIn → x'.letIn) : InOrder (W.move i x') := by
  have hsockets : ∀ j, ((W.move i x').entrants j).socket = (W.entrants j).socket := by
    intro j
    by_cases hj : j = i
    · rw [hj]
      simpa [Lobby.move] using hsocket
    · simp [Lobby.move, Function.update_of_ne hj]
  refine ⟨h.wf, fun j => ?_, h.handoff, ?_, h.apart, ?_, ?_⟩
  · by_cases hj : j = i
    · rw [hj]
      simpa [Lobby.move, Lobby.roomNow] using hcourse
    · simpa [Lobby.move, Lobby.roomNow, Function.update_of_ne hj] using h.course j
  · intro r hr
    obtain ⟨j, hj, hletIn⟩ := h.hosted r hr
    refine ⟨j, (hsockets j).trans hj, ?_⟩
    by_cases hji : j = i
    · rw [hji] at hletIn ⊢
      simpa [Lobby.move] using hin hletIn
    · simpa [Lobby.move, Function.update_of_ne hji] using hletIn
  · intro j socket hj
    exact h.greeted j socket ((hsockets j).symm.trans hj)
  · intro j k socket hj hk
    exact h.distinct j k socket ((hsockets j).symm.trans hj) ((hsockets k).symm.trans hk)

theorem goOn_socket (result : RoomSession × List Effect) : (x.goOn result).socket = x.socket := by
  unfold Entrant.goOn
  split <;> rfl

theorem read_socket (hostPeerId : String) : (x.read hostPeerId).socket = x.socket := by
  unfold Entrant.read
  split
  · exact goOn_socket _
  · split
    · rfl
    · exact goOn_socket _
  · rfl

theorem inOrder_relay (h : InOrder W) {e : Relay.Event} (he : Lobby.Elsewhere W.relay.relay e) :
    InOrder { W with relay := (Relay.server L).next W.relay e } := by
  have hroom : ({ W with relay := (Relay.server L).next W.relay e } : Lobby n).roomNow = W.roomNow :=
    elsewhere_room h.wf he h.handoff
  refine ⟨Relay.wf_next h.wf e, ?_, ?_, ?_, ?_, ?_, h.distinct⟩
  · rw [hroom]
    exact h.course
  · rw [hroom]
    exact h.handoff
  · rw [hroom]
    exact h.hosted
  · rw [hroom]
    exact h.apart
  · intro i socket hi
    have hold := h.greeted i socket hi
    show socket ∈ ((Relay.server L).next W.relay e).greeted
    cases e with
    | hello => exact List.mem_cons_of_mem _ hold
    | _ => exact hold

section Hello

variable {i : Fin n} {role : Relay.Role} {socket : Relay.Socket} {now : ℕ} {token : String}
  {frame : Relay.Frame}

theorem get_none_of_not_greeted {S : Relay.ServerState} (hwf : Relay.Wf S)
    (hnew : socket ∉ S.greeted) : S.relay.attached.get socket = none := by
  cases hget : S.relay.attached.get socket with
  | none => rfl
  | some att => exact absurd (hwf.greeted socket att hget) hnew

/-- The relay behind the HELLO. -/
def Lobby.greets (L : Relay.RelayLimits) (W : Lobby n) (role : Relay.Role) (socket : Relay.Socket)
    (now : ℕ) (token : String) : Relay.State × List Relay.Effect :=
  Relay.onHello L now token socket (helloOf role) W.relay.relay

/-- The client with the answer on its way. -/
def Entrant.answered (x : Entrant) (role : Relay.Role) (socket : Relay.Socket) (frame : Relay.Frame) :
    Entrant :=
  { x with post := .answer role frame, socket := some socket }

theorem greet_eq (hreply : reply socket (W.greets L role socket now token) = some frame) :
    W.greet L i role socket now token =
      ({ W with relay := ⟨(W.greets L role socket now token).1, socket :: W.relay.greeted,
          W.relay.gone⟩ } : Lobby n).move i ((W.entrants i).answered role socket frame) := by
  have hsent : ∃ frames, Relay.sentTo socket (W.greets L role socket now token).2 = frame :: frames := by
    unfold reply at hreply
    cases hframes : Relay.sentTo socket (W.greets L role socket now token).2 with
    | nil =>
      rw [hframes] at hreply
      cases hreply
    | cons frame' frames =>
      rw [hframes] at hreply
      cases hreply
      exact ⟨frames, rfl⟩
  obtain ⟨frames, hframes⟩ := hsent
  have hframes' : Relay.sentTo socket (Relay.react L W.relay.relay
      (.hello socket (helloOf role) now token)).2 = frame :: frames := hframes
  simp only [Lobby.greet, Relay.server, Relay.handle, hframes']
  rfl

/-- Put together from what the HELLO does to the room, and what is answered. -/
theorem InOrder.greet (h : InOrder W) (hnew : socket ∉ W.relay.greeted)
    (hreply : reply socket (W.greets L role socket now token) = some frame)
    (room' : Option Relay.Room)
    (hroom : (W.greets L role socket now token).1.rooms.get fixedRoomIdHex = room')
    (hstays : Stays W.roomNow room')
    (hcourse : Course room' ((W.entrants i).answered role socket frame))
    (hhandoff : ∀ r ∈ room', r.handoffDeadline = none)
    (hhosted : ∀ r ∈ room', (r.host = socket ∧ ∃ connId hostToken, frame = .ready connId hostToken) ∨
      ∃ j, j ≠ i ∧ (W.entrants j).socket = some r.host ∧ (W.entrants j).letIn)
    (hapart : ∀ r ∈ room', ∀ connId peer, r.peers.get connId = some peer → peer ≠ r.host) :
    InOrder (W.greet L i role socket now token) ∧ ∃ frame,
      (W.greet L i role socket now token).entrants i =
        (W.entrants i).answered role socket frame := by
  have hwf : Relay.Wf (⟨(W.greets L role socket now token).1, socket :: W.relay.greeted,
      W.relay.gone⟩ : Relay.ServerState) :=
    Relay.wf_next h.wf (.hello socket (helloOf role) now token)
  rw [greet_eq hreply]
  have hself : ∀ {W' : Lobby n} {y : Entrant}, (W'.move i y).entrants i = y := by
    intro W' y
    simp [Lobby.move]
  have hother : ∀ {W' : Lobby n} {y : Entrant} {j : Fin n}, j ≠ i →
      (W'.move i y).entrants j = W'.entrants j := by
    intro W' y j hj
    simp [Lobby.move, Function.update_of_ne hj]
  have hnow : (({ W with relay := ⟨(W.greets L role socket now token).1, socket :: W.relay.greeted,
      W.relay.gone⟩ } : Lobby n).move i ((W.entrants i).answered role socket frame)).roomNow = room' :=
    hroom
  refine ⟨?_, frame, hself⟩
  refine ⟨hwf, fun j => ?_, ?_, ?_, ?_, ?_, ?_⟩
  · rw [hnow]
    by_cases hj : j = i
    · rw [hj, hself]
      exact hcourse
    · rw [hother hj]
      exact hstays.course (h.course j)
  · rw [hnow]
    exact hhandoff
  · rw [hnow]
    intro r hr
    obtain ⟨hhost, connId, hostToken, hframe⟩ | ⟨j, hj, hsocket, hletIn⟩ := hhosted r hr
    · refine ⟨i, ?_, ?_⟩
      · rw [hself, hhost]
        rfl
      · rw [hself, hframe]
        exact .inr ⟨role, connId, hostToken, rfl⟩
    · refine ⟨j, ?_, ?_⟩
      · rw [hother hj]
        exact hsocket
      · rw [hother hj]
        exact hletIn
  · rw [hnow]
    exact hapart
  · intro j socket' hj
    by_cases hji : j = i
    · rw [hji, hself] at hj
      cases hj
      exact List.mem_cons_self
    · rw [hother hji] at hj
      exact List.mem_cons_of_mem _ (h.greeted j socket' hj)
  · intro j k socket' hj hk
    by_cases hji : j = i
    · by_cases hki : k = i
      · rw [hji, hki]
      · rw [hji, hself] at hj
        rw [hother hki] at hk
        cases hj
        exact absurd (h.greeted k _ hk) hnew
    · by_cases hki : k = i
      · rw [hki, hself] at hk
        rw [hother hji] at hj
        cases hk
        exact absurd (h.greeted j _ hj) hnew
      · rw [hother hji] at hj
        rw [hother hki] at hk
        exact h.distinct j k socket' hj hk

/-- A client that asks has not been let in. -/
theorem hosted_by_other (h : InOrder W) {a : ℕ} {asHost : Bool} (hasks : Asks (W.entrants i) a asHost)
    (hpost : (W.entrants i).post = .hello role) : ∀ r ∈ W.roomNow,
      ∃ j, j ≠ i ∧ (W.entrants j).socket = some r.host ∧ (W.entrants j).letIn := by
  intro r hr
  obtain ⟨j, hsocket, hletIn⟩ := h.hosted r hr
  refine ⟨j, fun hji => ?_, hsocket, hletIn⟩
  rw [hji] at hletIn
  obtain hopened | ⟨_, _, _, hready⟩ := hletIn
  · obtain ⟨opts, hentry⟩ := hasks.entry
    rw [hentry] at hopened
    cases hopened
  · rw [hpost] at hready
    cases hready

theorem Asks.answered {a : ℕ} {asHost : Bool} (h : Asks x a asHost) :
    Asks (x.answered role socket frame) a asHost :=
  ⟨h.entry, h.attempts, h.leaving, h.hostLink, h.peerLink⟩

theorem inOrder_greet_peer (h : InOrder W) (hnew : socket ∉ W.relay.greeted) {a : ℕ}
    (hasks : Asks (W.entrants i) a false) (hpost : (W.entrants i).post = .hello .peer)
    (hwhy : a = 1 ∨ a = 3 ∧ W.roomNow ≠ none)
    (hsize : ∀ r ∈ W.roomNow, r.peers.size < L.maxPeersPerRoom)
    (hallow : (Relay.allow L now socket.ip .joins W.relay.relay).2 = true) :
    InOrder (W.greet L i .peer socket now token) ∧ ∃ frame,
      (W.greet L i .peer socket now token).entrants i =
        (W.entrants i).answered .peer socket frame := by
  have hfresh := get_none_of_not_greeted h.wf hnew
  have hother := hosted_by_other h hasks hpost
  cases hroom : W.roomNow with
  | none =>
    obtain ⟨hrooms, hreply⟩ := join_none L now token hfresh hroom
    have ha : a = 1 := by
      obtain ha | ⟨-, hsome⟩ := hwhy
      · exact ha
      · exact absurd hroom hsome
    refine h.greet hnew hreply none (by rw [Lobby.greets, hrooms]; exact hroom) ?_ ?_
      (by simp) (by simp) (by simp)
    · rw [hroom]
      exact Stays.refl
    · exact .refused a false .noSuchRoom hasks.answered rfl (.inl ⟨ha, rfl, rfl⟩)
  | some r =>
    obtain ⟨hrooms, hreply⟩ :=
      join_some L now token hfresh hroom (hsize r hroom) hallow
    have hfree : ∀ connId peer, r.peers.get connId = some peer → connId ≠ r.nextConnId := by
      intro connId peer hpeer
      exact Nat.ne_of_lt (h.wf.below _ r connId peer hroom hpeer)
    refine h.greet hnew hreply (some { r with
      peers := r.peers.set r.nextConnId socket, nextConnId := r.nextConnId + 1 })
      (by rw [Lobby.greets, hrooms, InsertionMap.get_set_self]) ?_ ?_ ?_ ?_ ?_
    · rw [hroom]
      intro r' hr'
      cases hr'
      refine ⟨_, rfl, rfl, fun connId peer hpeer => ?_⟩
      rw [InsertionMap.get_set_ne _ _ (hfree connId peer hpeer)]
      exact hpeer
    · refine .admitted a false (some r.nextConnId) none hasks.answered rfl ?_ ?_
      · obtain ha | ⟨ha, -⟩ := hwhy <;> simp [ha, maxEnterAttempts]
      · exact ⟨_, rfl, r.nextConnId, socket, rfl, InsertionMap.get_set_self _ _ _⟩
    · intro r' hr'
      cases hr'
      exact h.handoff r hroom
    · intro r' hr'
      cases hr'
      exact .inr (hother r hroom)
    · intro r' hr' connId peer hpeer
      cases hr'
      rw [InsertionMap.get_set] at hpeer
      split at hpeer
      · cases hpeer
        -- the host has come on a socket of its own
        obtain ⟨j, -, hj, -⟩ := hother r hroom
        intro heq
        exact hnew (by rw [heq]; exact h.greeted j _ hj)
      · exact h.apart r hroom connId peer hpeer

theorem inOrder_greet_host (h : InOrder W) (hnew : socket ∉ W.relay.greeted)
    (hasks : Asks (W.entrants i) 2 true) (hpost : (W.entrants i).post = .hello .host)
    (hsize : W.relay.relay.rooms.size < L.maxRooms)
    (hallow : (Relay.allow L now socket.ip .creates W.relay.relay).2 = true) :
    InOrder (W.greet L i .host socket now token) ∧ ∃ frame,
      (W.greet L i .host socket now token).entrants i =
        (W.entrants i).answered .host socket frame := by
  have hfresh := get_none_of_not_greeted h.wf hnew
  cases hroom : W.roomNow with
  | none =>
    obtain ⟨hrooms, hreply⟩ :=
      host_none L now token hfresh hroom hsize hallow
    refine h.greet hnew hreply
      (some ⟨fixedRoomIdHex, token, socket, .empty, 1, none⟩)
      (by rw [Lobby.greets, hrooms, InsertionMap.get_set_self]) ?_ ?_ ?_ ?_ ?_
    · rw [hroom]
      intro r hr
      cases hr
    · exact .admitted 2 true none (some token) hasks.answered rfl (by decide) ⟨_, rfl, rfl⟩
    · intro r hr
      cases hr
      rfl
    · intro r hr
      cases hr
      exact .inl ⟨rfl, none, some token, rfl⟩
    · intro r hr connId peer hpeer
      cases hr
      cases hpeer
  | some r =>
    obtain ⟨hrooms, hreply⟩ := host_some L now token hfresh hroom
      (h.handoff r hroom) hsize hallow
    have hsame : (W.greets L .host socket now token).1.rooms.get fixedRoomIdHex = W.roomNow := by
      rw [Lobby.greets, hrooms]
      rfl
    refine h.greet hnew hreply _ hsame Stays.refl ?_ h.handoff
      (fun r hr => .inr (hosted_by_other h hasks hpost r hr)) h.apart
    exact .refused 2 true .roomExists hasks.answered rfl
      (.inr ⟨rfl, rfl, rfl, by rw [hroom]; simp⟩)

/-- **The relay takes a HELLO**, and answers it. -/
theorem inOrder_hello (h : InOrder W) (hpost : (W.entrants i).post = .hello role)
    (hnew : socket ∉ W.relay.greeted) (hlimits : WithinLimits L W (.hello i socket now token)) :
    InOrder (W.greet L i role socket now token) ∧ ∃ frame,
      (W.greet L i role socket now token).entrants i =
        (W.entrants i).answered role socket frame := by
  have hcourse := h.course i
  cases hcourse with
  | idle entry post | past asHost entry post | refused a asHost reason asks post
  | admitted a asHost connId hostToken asks post =>
    rw [post] at hpost
    cases hpost
  | asks a asHost asks post why =>
    rw [post] at hpost
    cases hpost
    simp only [WithinLimits, post] at hlimits
    obtain ⟨rfl, rfl⟩ | ⟨rfl, rfl⟩ | ⟨rfl, rfl, hroom⟩ := why
    · exact inOrder_greet_peer h hnew asks post (.inl rfl) hlimits.1 hlimits.2
    · exact inOrder_greet_host h hnew asks post hlimits.1 hlimits.2
    · exact inOrder_greet_peer h hnew asks post (.inr ⟨rfl, hroom⟩) hlimits.1 hlimits.2

end Hello

/-! ### No client waits forever -/

/-- Does the event take the client further on its way? -/
def LobbyEvent.takes (i : Fin n) : LobbyEvent n → Bool
  | .enter j _ | .hello j .. | .answer j _ => i = j
  | _ => false

/-- How many such events are left at most. -/
def Entrant.toGo (x : Entrant) : ℕ :=
  match x.post with
  | .idle => if x.session.entry.isIdle then 7 else 0
  | .hello _ => 2 * (maxEnterAttempts - x.attempts) + 2
  | .answer .. => 2 * (maxEnterAttempts - x.attempts) + 1

theorem Asks.isIdle {a : ℕ} {asHost : Bool} (h : Asks x a asHost) :
    x.session.entry.isIdle = false := by
  obtain ⟨opts, hentry⟩ := h.entry
  rw [hentry]
  rfl

theorem Asks.opened {a : ℕ} {asHost : Bool} (h : Asks x a asHost) :
    x.session.entry.opened = false := by
  obtain ⟨opts, hentry⟩ := h.entry
  rw [hentry]
  rfl

theorem toGo_hello {role : Relay.Role} (h : x.post = .hello role) :
    x.toGo = 2 * (maxEnterAttempts - x.attempts) + 2 := by
  simp [Entrant.toGo, h]

theorem toGo_enter (hcourse : Course room x) (opts : EnterOptions)
    (henabled : x.session.enabled (.enter opts)) :
    (x.goOn (x.session.step (.enter opts))).toGo < x.toGo ∧ ¬ x.letIn := by
  have hidle := henabled.2
  cases hcourse with
  | idle entry post attempts =>
    rw [goOn_opens .peer rfl]
    refine ⟨by simp [Entrant.toGo, entry, post, attempts, EntryFlow.isIdle, maxEnterAttempts], ?_⟩
    simp [Entrant.letIn, entry, post, EntryFlow.opened]
  | asks a asHost asks | refused a asHost reason asks | admitted a asHost connId hostToken asks =>
    rw [asks.isIdle] at hidle
    cases hidle
  | past asHost entry =>
    rw [isIdle_of_opened entry] at hidle
    cases hidle

theorem toGo_read (hcourse : Course room x) (hostPeerId : String) {role : Relay.Role}
    {frame : Relay.Frame} (hpost : x.post = .answer role frame) :
    (x.read hostPeerId).toGo < x.toGo ∧ (x.letIn → (x.read hostPeerId).letIn) := by
  cases hcourse with
  | idle entry post | past asHost entry post | asks a asHost asks post =>
    rw [post] at hpost
    cases hpost
  | refused a asHost reason asks post why =>
    have hout : ¬ x.letIn := by simp [Entrant.letIn, asks.opened, post]
    refine ⟨?_, fun h => absurd h hout⟩
    have hold : x.toGo = 2 * (maxEnterAttempts - a) + 1 := by
      simp [Entrant.toGo, post, asks.attempts]
    simp only [Entrant.read, post]
    obtain ⟨rfl, rfl, rfl⟩ | ⟨rfl, rfl, rfl, -⟩ := why
    · obtain ⟨hagain, hnext⟩ := asks_again asks (by decide) "no_such_room" rfl
        "relay rejected: no_such_room"
      have hleft := toGo_hello hnext
      rw [hagain.attempts] at hleft
      exact lt_of_eq_of_lt hleft (by rw [hold]; decide)
    · obtain ⟨hagain, hnext⟩ := asks_again asks (by decide) "room_exists" rfl
        "relay rejected: room_exists"
      have hleft := toGo_hello hnext
      rw [hagain.attempts] at hleft
      exact lt_of_eq_of_lt hleft (by rw [hold]; decide)
  | admitted a asHost connId hostToken asks post few seat =>
    obtain ⟨hopens, hentry, -, -⟩ := past_of_admitted asks hostPeerId
    simp only [Entrant.read, post]
    rw [goOn_opens_nothing hopens]
    refine ⟨?_, fun _ => .inl hentry⟩
    simp [Entrant.toGo, post, isIdle_of_opened hentry]

theorem Inside.letIn {s' : RoomSession} (h : Inside x.session s') (hin : x.letIn) :
    Entrant.letIn { x with session := s' } := by
  obtain hopened | hanswered := hin
  · obtain hsame | ⟨-, hopened'⟩ := h.entry
    · exact .inl (by rw [← hopened, ← hsame])
    · exact .inl hopened'
  · exact .inr hanswered

theorem Inside.toGo {s' : RoomSession} (h : Inside x.session s') :
    Entrant.toGo { x with session := s' } = x.toGo := by
  have hidle : s'.entry.isIdle = x.session.entry.isIdle := by
    obtain hsame | ⟨hopened, hopened'⟩ := h.entry
    · rw [hsame]
    · rw [isIdle_of_opened hopened, isIdle_of_opened hopened']
  unfold Entrant.toGo
  rw [hidle]

theorem Lobby.move_self (i : Fin n) (x' : Entrant) : (W.move i x').entrants i = x' := by
  simp [Lobby.move]

theorem Lobby.move_other {i j : Fin n} (h : j ≠ i) (x' : Entrant) :
    (W.move i x').entrants j = W.entrants j := by
  simp [Lobby.move, Function.update_of_ne h]

theorem Lobby.greet_other {i j : Fin n} (h : j ≠ i) (role : Relay.Role) (socket : Relay.Socket)
    (now : ℕ) (token : String) : (W.greet L i role socket now token).entrants j = W.entrants j := by
  simp [Lobby.greet, Lobby.move, Function.update_of_ne h]

/-- An event of one client leaves the others where they are. -/
theorem toGo_others {W' : Lobby n} {e : LobbyEvent n} {i : Fin n}
    (hself : (if e.takes i then 1 else 0) + (W'.entrants i).toGo ≤ (W.entrants i).toGo)
    (hothers : ∀ j, j ≠ i → e.takes j = false ∧ W'.entrants j = W.entrants j) (j : Fin n) :
    (if e.takes j then 1 else 0) + (W'.entrants j).toGo ≤ (W.entrants j).toGo := by
  by_cases hj : j = i
  · rw [hj]
    exact hself
  · obtain ⟨htakes, hsame⟩ := hothers j hj
    simp [htakes, hsame]

/-- **One step**: the lobby stays in order, and whoever goes on has less to go. -/
theorem inOrder_next (h : InOrder W) {e : LobbyEvent n} (henabled : (lobby L n).enabled W e)
    (hlimits : WithinLimits L W e) :
    InOrder ((lobby L n).next W e) ∧ ∀ j, (if e.takes j then 1 else 0) +
      (((lobby L n).next W e).entrants j).toGo ≤ (W.entrants j).toGo := by
  cases e with
  | enter i opts =>
    obtain ⟨hless, hout⟩ := toGo_enter (h.course i) opts henabled
    refine ⟨h.move i (goOn_socket _) (course_enter (h.course i) opts henabled)
      fun hin => absurd hin hout, toGo_others (i := i) ?_ fun j hj => ⟨?_, W.move_other hj _⟩⟩
    · rw [show ((lobby L n).next W (.enter i opts)).entrants i = _ from W.move_self i _]
      simp only [LobbyEvent.takes, decide_true, if_true]
      omega
    · simp [LobbyEvent.takes, hj]
  | hello i socket now token =>
    obtain ⟨⟨role, hpost⟩, hnew, -⟩ := henabled
    obtain ⟨hinOrder, frame, hself⟩ := inOrder_hello h hpost hnew hlimits
    have hnext : (lobby L n).next W (.hello i socket now token) =
        W.greet L i role socket now token := by
      show W.step L (.hello i socket now token) = _
      simp only [Lobby.step, hpost]
    rw [hnext]
    refine ⟨hinOrder, toGo_others (i := i) ?_ fun j hj => ⟨?_, Lobby.greet_other hj ..⟩⟩
    · rw [hself, toGo_hello hpost]
      simp only [LobbyEvent.takes, decide_true, if_true, Entrant.toGo, Entrant.answered]
      omega
    · simp [LobbyEvent.takes, hj]
  | answer i hostPeerId =>
    obtain ⟨role, frame, hpost⟩ := henabled
    obtain ⟨hless, hin⟩ := toGo_read (h.course i) hostPeerId hpost
    refine ⟨h.move i (read_socket _) (course_read (h.course i) hostPeerId) hin,
      toGo_others (i := i) ?_ fun j hj => ⟨?_, W.move_other hj _⟩⟩
    · rw [show ((lobby L n).next W (.answer i hostPeerId)).entrants i = _ from W.move_self i _]
      simp only [LobbyEvent.takes, decide_true, if_true]
      omega
    · simp [LobbyEvent.takes, hj]
  | session i e =>
    have hinside := inside_step henabled.2
    refine ⟨h.move i rfl (hinside.course (h.course i)) hinside.letIn,
      toGo_others (i := i) ?_ fun j hj => ⟨rfl, W.move_other hj _⟩⟩
    rw [show ((lobby L n).next W (.session i e)).entrants i = _ from W.move_self i _]
    simp [LobbyEvent.takes, hinside.toGo]
  | relay e =>
    exact ⟨inOrder_relay h henabled.2, fun j => by simp [LobbyEvent.takes, Machine.next, lobby, Lobby.step]⟩

/-- **A run**: a client takes no more steps than it has to go. -/
theorem inOrder_exec {es : List (LobbyEvent n)} : ∀ {W : Lobby n}, InOrder W →
    (lobby L n).Valid W es → (lobby L n).Along (WithinLimits L) W es →
    InOrder ((lobby L n).exec W es) ∧ ∀ i, es.countP (LobbyEvent.takes i) +
      (((lobby L n).exec W es).entrants i).toGo ≤ (W.entrants i).toGo := by
  induction es with
  | nil => exact fun h _ _ => ⟨h, fun i => by simp⟩
  | cons e es ih =>
    intro W h hvalid hlimits
    obtain ⟨hnext, hless⟩ := inOrder_next h hvalid.1 hlimits.1
    obtain ⟨hend, hfew⟩ := ih hnext hvalid.2 hlimits.2
    refine ⟨hend, fun i => ?_⟩
    have hone := hless i
    have hrest := hfew i
    simp only [Machine.exec_cons, List.countP_cons]
    omega

instance : Infinite Relay.Socket :=
  Infinite.of_injective (fun id => (⟨id, ""⟩ : Relay.Socket)) fun _ _ heq =>
    congrArg Relay.Socket.id heq

/-- There is always a socket that has never been used. -/
theorem exists_new_socket (W : Lobby n) :
    ∃ socket, socket ∉ W.relay.greeted ∧ socket ∉ W.relay.gone := by
  obtain ⟨socket, hnew⟩ :=
    Infinite.exists_notMem_finset (W.relay.greeted ++ W.relay.gone).toFinset
  exact ⟨socket, by simpa using hnew⟩

/-- **Whoever has set out and is not past the relay can go on.** -/
theorem can_go_on (h : InOrder W) {i : Fin n} (hout : (W.entrants i).session.entry.isIdle = false)
    (hnot : (W.entrants i).session.entry.opened = false) :
    ∃ e, LobbyEvent.takes i e = true ∧ (lobby L n).enabled W e := by
  have hcourse := h.course i
  cases hcourse with
  | idle entry =>
    rw [entry] at hout
    cases hout
  | asks a asHost asks post why =>
    obtain ⟨socket, hnew, hopen⟩ := exists_new_socket W
    exact ⟨.hello i socket 0 "", by simp [LobbyEvent.takes], ⟨_, post⟩, hnew, hopen⟩
  | refused a asHost reason asks post | admitted a asHost connId hostToken asks post =>
    exact ⟨.answer i "", by simp [LobbyEvent.takes], _, _, post⟩
  | past asHost entry =>
    rw [entry] at hnot
    cases hnot

theorem Course.attempts_le (h : Course room x) : x.attempts ≤ maxEnterAttempts := by
  cases h with
  | idle entry post attempts => simp [attempts]
  | asks a asHost asks post why =>
    rw [asks.attempts]
    obtain ⟨rfl, -⟩ | ⟨rfl, -⟩ | ⟨rfl, -⟩ := why <;> decide
  | refused a asHost reason asks post why =>
    rw [asks.attempts]
    obtain ⟨rfl, -⟩ | ⟨rfl, -⟩ := why <;> decide
  | admitted a asHost connId hostToken asks post few =>
    rw [asks.attempts]
    exact few
  | past asHost entry post few => exact few

/-- Client `host` is the host of the room, and everybody else a registered peer of it. -/
structure Elected (W : Lobby n) (r : Relay.Room) (host : Fin n) : Prop where
  socket : ∀ i, (W.entrants i).socket = some r.host ↔ i = host
  hostLink : ∀ i, (W.entrants i).session.hostLink = decide (i = host)
  peerLink : ∀ i, (W.entrants i).session.peerLink = decide (i ≠ host)
  registered : ∀ i, i ≠ host → ∃ connId socket,
    (W.entrants i).socket = some socket ∧ r.peers.get connId = some socket

theorem InOrder.past (h : InOrder W) {i : Fin n}
    (hopened : (W.entrants i).session.entry.opened = true) :
    ∃ asHost, (W.entrants i).session.hostLink = asHost ∧
      (W.entrants i).session.peerLink = !asHost ∧ Seat W.roomNow (W.entrants i) asHost := by
  have hcourse := h.course i
  cases hcourse with
  | idle entry =>
    rw [entry] at hopened
    cases hopened
  | asks a asHost asks | refused a asHost reason asks | admitted a asHost connId hostToken asks =>
    rw [asks.opened] at hopened
    cases hopened
  | past asHost entry post few hostLink peerLink seat => exact ⟨asHost, hostLink, peerLink, seat⟩

/-- **When all are past the relay**, one of them is the host. -/
theorem InOrder.elects (h : InOrder W) (hn : 0 < n)
    (hpast : ∀ i, (W.entrants i).session.entry.opened = true) :
    ∃ r ∈ W.roomNow, ∃ host, Elected W r host := by
  have hsome : ∃ r, r ∈ W.roomNow := by
    obtain ⟨asHost, -, -, hseat⟩ := h.past (hpast ⟨0, hn⟩)
    cases asHost with
    | true => exact ⟨_, hseat.choose_spec.1⟩
    | false => exact ⟨_, hseat.choose_spec.1⟩
  obtain ⟨r, hr⟩ := hsome
  obtain ⟨host, hhost, -⟩ := h.hosted r hr
  have hsocket : ∀ i, (W.entrants i).socket = some r.host ↔ i = host := by
    intro i
    constructor
    · intro hi
      exact h.distinct i host _ hi hhost
    · intro hi
      rw [hi]
      exact hhost
  -- a client is behind a host link exactly when its socket is that of the host
  have hlinks : ∀ i, (W.entrants i).session.hostLink = decide (i = host) ∧
      (W.entrants i).session.peerLink = decide (i ≠ host) ∧
      (i ≠ host → Seat W.roomNow (W.entrants i) false) := by
    intro i
    obtain ⟨asHost, hhostLink, hpeerLink, hseat⟩ := h.past (hpast i)
    cases asHost with
    | true =>
      obtain ⟨r', hr', hi⟩ := hseat
      cases Option.mem_unique hr hr'
      have heq := (hsocket i).mp hi
      rw [hhostLink, hpeerLink]
      exact ⟨(decide_eq_true heq).symm, (decide_eq_false (not_not.mpr heq)).symm,
        fun hne => absurd heq hne⟩
    | false =>
      obtain ⟨r', hr', connId, socket, hi, hpeer⟩ := hseat
      cases Option.mem_unique hr hr'
      have hne : i ≠ host := by
        intro heq
        have hsame := (hsocket i).mpr heq
        rw [hi] at hsame
        exact h.apart r hr connId socket hpeer (Option.some.inj hsame)
      exact ⟨by simp [hhostLink, hne], by simp [hpeerLink, hne],
        fun _ => ⟨r, hr, connId, socket, hi, hpeer⟩⟩
  refine ⟨r, hr, host, hsocket, fun i => (hlinks i).1, fun i => (hlinks i).2.1, fun i hi => ?_⟩
  obtain ⟨r', hr', connId, socket, hsock, hpeer⟩ := (hlinks i).2.2 hi
  cases Option.mem_unique hr hr'
  exact ⟨connId, socket, hsock, hpeer⟩

/-- **Concurrent entry elects one host.**  Whatever the order in which the HELLOs of `n` clients reach
a relay without the room, and whatever happens between, no client tries to enter more than
`maxEnterAttempts` times, none takes more than seven steps, and none is stuck before it is past the
relay; once all are, one of them is the host and every other one a peer of the same room. -/
theorem enter_elects_one_host {pre : List Relay.Event}
    (hroom : ((Relay.server L).exec Relay.init pre).relay.rooms.get fixedRoomIdHex = none)
    {es : List (LobbyEvent n)}
    (hvalid : (lobby L n).Valid (Lobby.start ((Relay.server L).exec Relay.init pre)) es)
    (hlimits : (lobby L n).Along (WithinLimits L)
      (Lobby.start ((Relay.server L).exec Relay.init pre)) es) :
    let W := (lobby L n).exec (Lobby.start ((Relay.server L).exec Relay.init pre)) es
    (∀ i, (W.entrants i).attempts ≤ maxEnterAttempts ∧ es.countP (LobbyEvent.takes i) ≤ 7) ∧
      (∀ i, (W.entrants i).session.entry.isIdle = false →
        (W.entrants i).session.entry.opened = true ∨
          ∃ e, LobbyEvent.takes i e = true ∧ (lobby L n).enabled W e) ∧
      (0 < n → (∀ i, (W.entrants i).session.entry.opened = true) →
        ∃ r ∈ W.roomNow, ∃ host, Elected W r host) := by
  intro W
  have hstart : InOrder (Lobby.start ((Relay.server L).exec Relay.init pre) : Lobby n) :=
    inOrder_start (Relay.wf_exec pre Relay.wf_init) hroom
  obtain ⟨hend, hfew⟩ := inOrder_exec hstart hvalid hlimits
  refine ⟨fun i => ⟨(hend.course i).attempts_le, ?_⟩, fun i hout => ?_, hend.elects⟩
  · exact Nat.le_trans (Nat.le_add_right ..) (hfew i)
  · cases hopened : (W.entrants i).session.entry.opened with
    | true => exact .inl rfl
    | false => exact .inr (can_go_on hend hout hopened)

section Decisions

instance (post : Post) : Decidable (∃ role, post = .hello role) :=
  match post with
  | .hello role => isTrue ⟨role, rfl⟩
  | .idle => isFalse fun ⟨_, h⟩ => nomatch h
  | .answer .. => isFalse fun ⟨_, h⟩ => nomatch h

instance (post : Post) : Decidable (∃ role frame, post = .answer role frame) :=
  match post with
  | .answer role frame => isTrue ⟨role, frame, rfl⟩
  | .idle => isFalse fun ⟨_, _, h⟩ => nomatch h
  | .hello _ => isFalse fun ⟨_, _, h⟩ => nomatch h

instance (R : Relay.State) (e : Relay.Event) : Decidable (Lobby.Elsewhere R e) := by
  apply e.casesOn (motive := fun e => Decidable (Lobby.Elsewhere R e)) <;> intros <;>
    unfold Lobby.Elsewhere <;> infer_instance

instance (L : Relay.RelayLimits) (W : Lobby n) (e : LobbyEvent n) :
    Decidable ((lobby L n).enabled W e) := by
  show Decidable (Lobby.enabled W e)
  cases e <;> unfold Lobby.enabled <;> infer_instance

instance (L : Relay.RelayLimits) (W : Lobby n) (e : LobbyEvent n) :
    Decidable (WithinLimits L W e) := by
  unfold WithinLimits
  split
  · split <;> infer_instance
  · infer_instance

end Decisions

/-- Both clients find no room, and both then try to host it; the second has to join after all. -/
def twoClients : List (LobbyEvent 2) :=
  let nickname := fun name : String => (⟨name, none, none, none⟩ : EnterOptions)
  [.enter 0 (nickname "Ana"), .enter 1 (nickname "Bia"),
    .hello 0 ⟨1, "10.0.0.1"⟩ 0 "", .hello 1 ⟨2, "10.0.0.2"⟩ 0 "", .answer 0 "", .answer 1 "",
    .hello 1 ⟨3, "10.0.0.2"⟩ 1 "t3", .hello 0 ⟨4, "10.0.0.1"⟩ 1 "t4", .answer 0 "", .answer 1 "h",
    .hello 0 ⟨5, "10.0.0.1"⟩ 2 "", .answer 0 ""]

theorem enter_elects_one_host_twoClients :
    ∃ r ∈ ((lobby Relay.defaultLimits 2).exec (Lobby.start Relay.init) twoClients).roomNow,
      ∃ host, Elected ((lobby Relay.defaultLimits 2).exec (Lobby.start Relay.init) twoClients) r host := by
  have hlobby := @enter_elects_one_host 2 Relay.defaultLimits [] rfl twoClients
    (by decide +kernel) (by decide +kernel)
  exact hlobby.2.2 (by decide) (by decide +kernel)

end ScreenSharing.App
