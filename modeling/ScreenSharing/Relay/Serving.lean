import ScreenSharing.Relay.Codec
import ScreenSharing.Relay.Representation
import ScreenSharing.Shared.Ipc

/-!
# The WebSocket server in front of the relay

`createRelayHttpServer` puts the relay behind an HTTP and WebSocket server.  `serving L rt` is that
server as a machine: its events are what the network and the timers deliver, its outputs what goes out
on the wire.  A connection keeps what the closure of its handler keeps (`greeted`, `alive`) and the
`readyState` of its WebSocket; messages may still come in while it is closing, and its last event is
`closed`.

The machine of `Relay.Runs` assumes a discipline: one HELLO for each socket, then messages, then one
close.  Here the discipline is what the handler does.  `calls` are the calls of the relay that an event
amounts to, and `Serves` relates the two machines: the relay is the same, and what has been written to
a connection is a prefix of what the relay has sent to its socket, all of it as long as the connection
is open.  `serves_next` keeps it over one event, and with `Machine.simulation` over every run.
-/

namespace ScreenSharing.Relay

open Lib

/-- The `readyState` of a WebSocket that is connected. -/
inductive ReadyState
  | opened
  | closing
  | closed
  deriving DecidableEq

/-- A WebSocket and what its handler remembers of it. -/
structure Connection where
  socket : Socket
  greeted : Bool
  alive : Bool
  readyState : ReadyState
  deriving DecidableEq

structure RelayHttpServer where
  relay : State
  connections : InsertionMap ℕ Connection
  listening : Bool

/-- What goes out: a frame, a close frame, a ping, the end of the TCP connection without a close frame,
and the answer to a plain HTTP request. -/
inductive Written
  | frame (id : ℕ) (frame : Frame)
  | close (id : ℕ) (code : ℕ) (reason : String)
  | ping (id : ℕ)
  | terminate (id : ℕ)
  | respond (status : ℕ) (rooms : Option ℕ)
  deriving DecidableEq

inductive WsEvent
  | connection (id : ℕ) (forwardedFor remoteAddress : Option String)
  | message (id : ℕ) (data : Bytes) (isBinary : Bool) (now : ℕ) (token : String)
  | pong (id : ℕ)
  /-- the connection's own idle timer -/
  | idle (id : ℕ)
  /-- the other side's close frame -/
  | closing (id : ℕ)
  | error (id : ℕ)
  | closed (id : ℕ)
  | sweep (now : ℕ)
  | request (url : String)
  /-- `close` of the server -/
  | shutdown
  deriving DecidableEq

/-! ### One WebSocket -/

/-- `ws.send`, which the handler calls only on an open WebSocket. -/
def Connection.send (id : ℕ) (frame : Frame) (c : Connection) : List Written :=
  if c.readyState = .opened then [.frame id frame] else []

/-- `ws.close`: only the first call sends a close frame. -/
def Connection.close (id code : ℕ) (reason : String) (c : Connection) :
    Connection × List Written :=
  if c.readyState = .opened then ({ c with readyState := .closing }, [.close id code reason])
  else (c, [])

/-- `ws.terminate`. -/
def Connection.terminate (id : ℕ) (c : Connection) : Connection × List Written :=
  if c.readyState = .closed then (c, [])
  else ({ c with readyState := .closing }, [.terminate id])

/-- The idle timer: the last ping has to have been answered. -/
def Connection.onIdle (id : ℕ) (c : Connection) : Connection × List Written :=
  if !c.alive then c.terminate id
  else ({ c with alive := false }, if c.readyState = .opened then [.ping id] else [])

/-- The close frame of the other side, which the WebSocket answers with its own. -/
def Connection.onClosing (c : Connection) : Connection :=
  if c.readyState = .opened then { c with readyState := .closing } else c

/-- `a || b` for strings. -/
def orElse (a : Option String) (b : String) : String :=
  match a with
  | some s => if s = "" then b else s
  | none => b

/-- The ip that the rate limits are keyed by. -/
def clientIp (forwardedFor remoteAddress : Option String) : String :=
  orElse (forwardedFor.map fun s => trim (String.ofList (s.toList.takeWhile (· ≠ ','))))
    (orElse remoteAddress "unknown")

/-! ### The handlers -/

/-- One call of the relay on the `Socket` of a connection. -/
def performOne (effect : Effect) (cs : InsertionMap ℕ Connection) :
    InsertionMap ℕ Connection × List Written :=
  match effect with
  | .send dest frame =>
    match cs.get dest.id with
    | some c => (cs, c.send dest.id frame)
    | none => (cs, [])
  | .close socket code reason =>
    match cs.get socket.id with
    | some c => (cs.set socket.id (c.close socket.id code reason).1, (c.close socket.id code reason).2)
    | none => (cs, [])

def perform : List Effect → InsertionMap ℕ Connection → InsertionMap ℕ Connection × List Written
  | [], cs => (cs, [])
  | effect :: effects, cs =>
    let (cs', out) := performOne effect cs
    let (cs'', out') := perform effects cs'
    (cs'', out ++ out')

/-- A call of the relay, with what it does to the connections. -/
def RelayHttpServer.call (S : RelayHttpServer) (result : State × List Effect) :
    RelayHttpServer × List Written :=
  let (connections, out) := perform result.2 S.connections
  ({ S with relay := result.1, connections := connections }, out)

/-- A step of one connection alone. -/
def RelayHttpServer.update (S : RelayHttpServer) (id : ℕ) (result : Connection × List Written) :
    RelayHttpServer × List Written :=
  ({ S with connections := S.connections.set id result.1 }, result.2)

/-- The `message` handler.  `decodeHello` does not throw (`Wire.decodeHello_total`). -/
def onWsMessage (L : RelayLimits) (rt : JsonRuntime) (id : ℕ) (data : Bytes) (isBinary : Bool)
    (now : ℕ) (token : String) (c : Connection) (S : RelayHttpServer) :
    RelayHttpServer × List Written :=
  if !isBinary then S.update id (c.close id 1003 "binary only")
  else if !c.greeted then
    match Wire.decodeHello rt data with
    | .ok (some hello) =>
      RelayHttpServer.call { S with connections := S.connections.set id { c with greeted := true } }
        (onHello L now token c.socket hello S.relay)
    | _ => S.update id (c.close id 1008 "bad hello")
  else S.call (onMessage now c.socket data S.relay)

/-- `for (const client of wss.clients) client.terminate()`. -/
def terminateAll : List ℕ → InsertionMap ℕ Connection → InsertionMap ℕ Connection × List Written
  | [], cs => (cs, [])
  | id :: ids, cs =>
    match cs.get id with
    | none => terminateAll ids cs
    | some c =>
      let (cs', out) := terminateAll ids (cs.set id (c.terminate id).1)
      (cs', (c.terminate id).2 ++ out)

/-- The handlers of the server. -/
def serve (L : RelayLimits) (rt : JsonRuntime) (S : RelayHttpServer) :
    WsEvent → RelayHttpServer × List Written
  | .connection id forwardedFor remoteAddress =>
    S.update id (⟨⟨id, clientIp forwardedFor remoteAddress⟩, false, true, .opened⟩, [])
  | .message id data isBinary now token =>
    match S.connections.get id with
    | some c => onWsMessage L rt id data isBinary now token c S
    | none => (S, [])
  | .pong id =>
    match S.connections.get id with
    | some c => S.update id ({ c with alive := true }, [])
    | none => (S, [])
  | .idle id =>
    match S.connections.get id with
    | some c => S.update id (c.onIdle id)
    | none => (S, [])
  | .closing id =>
    match S.connections.get id with
    | some c => S.update id (c.onClosing, [])
    | none => (S, [])
  | .error id =>
    match S.connections.get id with
    | some c => S.update id (c.terminate id)
    | none => (S, [])
  | .closed id =>
    match S.connections.get id with
    | some c =>
      RelayHttpServer.call
        { S with connections := S.connections.set id { c with readyState := .closed } }
        (onClose c.socket S.relay)
    | none => (S, [])
  | .sweep now => S.call (sweep L now S.relay)
  | .request url =>
    if url = "/healthz" ∨ url = "/" then (S, [.respond 200 (some S.relay.rooms.size)])
    else (S, [.respond 404 none])
  | .shutdown =>
    let (connections, out) := terminateAll S.connections.keys S.connections
    ({ S with connections := connections, listening := false }, out)

/-- Is the WebSocket still there? -/
def RelayHttpServer.Live (S : RelayHttpServer) (id : ℕ) : Prop :=
  ∃ c, S.connections.get id = some c ∧ c.readyState ≠ .closed

/-- What the network and the timers may deliver: a WebSocket is new once, and nothing comes from it
after it has closed; a server that is shut down accepts nothing new and sweeps no more. -/
def Deliverable (S : RelayHttpServer) : WsEvent → Prop
  | .connection id _ _ => S.listening = true ∧ S.connections.get id = none
  | .message id _ _ _ _ | .pong id | .idle id | .closing id | .error id | .closed id => S.Live id
  | .sweep _ | .request _ => S.listening = true
  | .shutdown => True

def serving (L : RelayLimits) (rt : JsonRuntime) : Machine RelayHttpServer WsEvent Written :=
  ⟨Deliverable, serve L rt⟩

/-- The server right after `createRelayHttpServer`. -/
def RelayHttpServer.start : RelayHttpServer := ⟨new, .empty, true⟩

/-- The calls of the relay's entry points that an event amounts to. -/
def calls (rt : JsonRuntime) (S : RelayHttpServer) : WsEvent → List Event
  | .message id data isBinary now token =>
    match S.connections.get id with
    | none => []
    | some c =>
      if !isBinary then []
      else if !c.greeted then
        match Wire.decodeHello rt data with
        | .ok (some hello) => [.hello c.socket hello now token]
        | _ => []
      else [.message c.socket data now]
  | .closed id =>
    match S.connections.get id with
    | some c => [.close c.socket]
    | none => []
  | .sweep now => [.sweep now]
  | _ => []

/-! ### What is said on one connection -/

/-- What the handler says on a connection of its own accord. -/
inductive Said
  | frame (frame : Frame)
  | close (code : ℕ) (reason : String)
  deriving DecidableEq

def saidOf (id : ℕ) : Written → Option Said
  | .frame id' frame => if id' = id then some (.frame frame) else none
  | .close id' code reason => if id' = id then some (.close code reason) else none
  | _ => none

/-- What of the output is said on connection `id`. -/
def said (id : ℕ) (out : List Written) : List Said := out.filterMap (saidOf id)

def addressedOf (id : ℕ) : Effect → Option Said
  | .send dest frame => if dest.id = id then some (.frame frame) else none
  | .close socket code reason => if socket.id = id then some (.close code reason) else none

/-- What of the relay's calls is for connection `id`. -/
def addressed (id : ℕ) (effects : List Effect) : List Said := effects.filterMap (addressedOf id)

def frameOf : Said → Option Frame
  | .frame frame => some frame
  | .close _ _ => none

def framesOf (xs : List Said) : List Frame := xs.filterMap frameOf

/-- The connection after a call of the relay. -/
def Connection.hear (x : Said) (c : Connection) : Connection :=
  match x with
  | .frame _ => c
  | .close _ _ => c.onClosing

def Connection.hears : List Said → Connection → Connection
  | [], c => c
  | x :: xs, c => (c.hear x).hears xs

/-- Of the relay's calls, those that come through. -/
def Connection.utters : List Said → Connection → List Said
  | [], _ => []
  | x :: xs, c => (if c.readyState = .opened then [x] else []) ++ (c.hear x).utters xs

@[simp] theorem said_nil (id : ℕ) : said id [] = [] := rfl

@[simp] theorem said_append (id : ℕ) (out out' : List Written) :
    said id (out ++ out') = said id out ++ said id out' := List.filterMap_append

@[simp] theorem framesOf_append (xs ys : List Said) :
    framesOf (xs ++ ys) = framesOf xs ++ framesOf ys := List.filterMap_append

theorem addressed_cons (id : ℕ) (effect : Effect) (effects : List Effect) :
    addressed id (effect :: effects) = (addressedOf id effect).toList ++ addressed id effects := by
  unfold addressed
  rw [List.filterMap_cons]
  cases addressedOf id effect <;> rfl

@[simp] theorem onClosing_socket (c : Connection) : c.onClosing.socket = c.socket := by
  unfold Connection.onClosing
  split <;> rfl

@[simp] theorem onClosing_greeted (c : Connection) : c.onClosing.greeted = c.greeted := by
  unfold Connection.onClosing
  split <;> rfl

theorem onClosing_not_opened (c : Connection) : c.onClosing.readyState ≠ .opened := by
  unfold Connection.onClosing
  split
  · exact fun h => by cases h
  · assumption

@[simp] theorem onClosing_closed (c : Connection) :
    c.onClosing.readyState = .closed ↔ c.readyState = .closed := by
  unfold Connection.onClosing
  split
  · next hopen => simp [hopen]
  · exact Iff.rfl

theorem close_fst (id code : ℕ) (reason : String) (c : Connection) :
    (c.close id code reason).1 = c.onClosing := by
  unfold Connection.close Connection.onClosing
  split <;> rfl

@[simp] theorem hear_socket (x : Said) (c : Connection) : (c.hear x).socket = c.socket := by
  cases x with
  | frame => rfl
  | close => exact onClosing_socket c

@[simp] theorem hear_greeted (x : Said) (c : Connection) : (c.hear x).greeted = c.greeted := by
  cases x with
  | frame => rfl
  | close => exact onClosing_greeted c

@[simp] theorem hear_closed (x : Said) (c : Connection) :
    (c.hear x).readyState = .closed ↔ c.readyState = .closed := by
  cases x with
  | frame => exact Iff.rfl
  | close => exact onClosing_closed c

@[simp] theorem hears_socket (xs : List Said) : ∀ c : Connection, (c.hears xs).socket = c.socket := by
  induction xs with
  | nil => exact fun _ => rfl
  | cons x xs ih => exact fun c => (ih _).trans (hear_socket x c)

@[simp] theorem hears_greeted (xs : List Said) :
    ∀ c : Connection, (c.hears xs).greeted = c.greeted := by
  induction xs with
  | nil => exact fun _ => rfl
  | cons x xs ih => exact fun c => (ih _).trans (hear_greeted x c)

@[simp] theorem hears_closed (xs : List Said) :
    ∀ c : Connection, (c.hears xs).readyState = .closed ↔ c.readyState = .closed := by
  induction xs with
  | nil => exact fun _ => Iff.rfl
  | cons x xs ih => exact fun c => (ih _).trans (hear_closed x c)

/-- A connection that is not open stays so, and nothing comes through. -/
theorem utters_of_not_opened (xs : List Said) : ∀ {c : Connection}, c.readyState ≠ .opened →
    c.utters xs = [] ∧ (c.hears xs).readyState ≠ .opened := by
  induction xs with
  | nil => exact fun hc => ⟨rfl, hc⟩
  | cons x xs ih =>
    intro c hc
    have hx : (c.hear x).readyState ≠ .opened := by
      cases x with
      | frame => exact hc
      | close => exact onClosing_not_opened c
    obtain ⟨hnil, hrest⟩ := ih hx
    refine ⟨?_, hrest⟩
    rw [Connection.utters, if_neg hc, hnil]
    rfl

/-- A connection that stays open lets everything through. -/
theorem utters_of_opened (xs : List Said) : ∀ {c : Connection},
    (c.hears xs).readyState = .opened → c.utters xs = xs := by
  induction xs with
  | nil => exact fun _ => rfl
  | cons x xs ih =>
    intro c hc
    have hopen : c.readyState = .opened := by
      by_contra hne
      exact (utters_of_not_opened (x :: xs) hne).2 hc
    rw [Connection.utters, if_pos hopen, ih hc]
    rfl

/-- What comes through is a prefix. -/
theorem utters_start (xs : List Said) : ∀ c : Connection, c.utters xs <+: xs := by
  induction xs with
  | nil => exact fun _ => List.prefix_refl _
  | cons x xs ih =>
    intro c
    by_cases hopen : c.readyState = .opened
    · rw [Connection.utters, if_pos hopen]
      exact (List.prefix_cons_inj x).mpr (ih _)
    · rw [(utters_of_not_opened (x :: xs) hopen).1]
      exact List.nil_prefix

theorem send_said (id id' : ℕ) (frame : Frame) (c : Connection) :
    said id (c.send id' frame) =
      if id' = id ∧ c.readyState = .opened then [.frame frame] else [] := by
  unfold Connection.send said
  by_cases hopen : c.readyState = .opened
  · by_cases hid : id' = id
    · simp [hopen, hid, saidOf]
    · simp [hopen, hid, saidOf]
  · simp [hopen]

theorem close_said (id id' code : ℕ) (reason : String) (c : Connection) :
    said id (c.close id' code reason).2 =
      if id' = id ∧ c.readyState = .opened then [.close code reason] else [] := by
  unfold Connection.close said
  by_cases hopen : c.readyState = .opened
  · by_cases hid : id' = id
    · simp [hopen, hid, saidOf]
    · simp [hopen, hid, saidOf]
  · simp [hopen]

theorem performOne_get (effect : Effect) (cs : InsertionMap ℕ Connection) (id : ℕ) :
    (performOne effect cs).1.get id =
      (cs.get id).map (Connection.hears (addressedOf id effect).toList) := by
  cases effect with
  | send dest frame =>
    have hkeep : (performOne (.send dest frame) cs).1 = cs := by
      unfold performOne
      dsimp only
      split <;> rfl
    rw [hkeep]
    unfold addressedOf
    dsimp only
    split <;> cases cs.get id <;> rfl
  | close socket code reason =>
    unfold performOne addressedOf
    dsimp only
    by_cases hid : socket.id = id
    · subst hid
      cases hget : cs.get socket.id with
      | none => simp [hget]
      | some c =>
        simp only [InsertionMap.get_set_self, close_fst, if_true, Option.toList_some, Option.map_some]
        rfl
    · cases hget : cs.get socket.id with
      | none =>
        simp only [if_neg hid]
        cases cs.get id <;> rfl
      | some c =>
        simp only [if_neg hid]
        rw [InsertionMap.get_set_ne _ _ (Ne.symm hid)]
        cases cs.get id <;> rfl

theorem performOne_said (effect : Effect) (cs : InsertionMap ℕ Connection) (id : ℕ) :
    said id (performOne effect cs).2 =
      ((cs.get id).map (Connection.utters (addressedOf id effect).toList)).getD [] := by
  cases effect with
  | send dest frame =>
    unfold performOne addressedOf
    dsimp only
    by_cases hid : dest.id = id
    · subst hid
      cases hget : cs.get dest.id with
      | none => simp
      | some c =>
        rw [if_pos rfl]
        simp [send_said, Connection.utters]
    · rw [if_neg hid]
      cases cs.get dest.id with
      | none => cases cs.get id <;> rfl
      | some c =>
        rw [send_said, if_neg fun h => hid h.1]
        cases cs.get id <;> rfl
  | close socket code reason =>
    unfold performOne addressedOf
    dsimp only
    by_cases hid : socket.id = id
    · subst hid
      cases hget : cs.get socket.id with
      | none => simp
      | some c =>
        rw [if_pos rfl]
        simp [close_said, Connection.utters]
    · rw [if_neg hid]
      cases cs.get socket.id with
      | none => cases cs.get id <;> rfl
      | some c =>
        rw [close_said, if_neg fun h => hid h.1]
        cases cs.get id <;> rfl

theorem hears_append (xs : List Said) : ∀ (ys : List Said) (c : Connection),
    c.hears (xs ++ ys) = (c.hears xs).hears ys := by
  induction xs with
  | nil => exact fun _ _ => rfl
  | cons x xs ih => exact fun ys c => ih ys (c.hear x)

theorem utters_append (xs : List Said) : ∀ (ys : List Said) (c : Connection),
    c.utters (xs ++ ys) = c.utters xs ++ (c.hears xs).utters ys := by
  induction xs with
  | nil => exact fun _ _ => rfl
  | cons x xs ih =>
    intro ys c
    rw [List.cons_append, Connection.utters, ih, ← List.append_assoc]
    rfl

/-- **Every connection hears what is addressed to it**, and of nothing else. -/
theorem perform_get (effects : List Effect) (id : ℕ) : ∀ cs : InsertionMap ℕ Connection,
    (perform effects cs).1.get id = (cs.get id).map (Connection.hears (addressed id effects)) := by
  induction effects with
  | nil =>
    intro cs
    show cs.get id = _
    cases cs.get id <;> rfl
  | cons effect effects ih =>
    intro cs
    show (perform effects (performOne effect cs).1).1.get id = _
    rw [ih, performOne_get, addressed_cons]
    cases cs.get id with
    | none => rfl
    | some c => exact congrArg some (hears_append _ _ c).symm

/-- On every connection goes out what is addressed to it, as long as it is open. -/
theorem perform_said (effects : List Effect) (id : ℕ) : ∀ cs : InsertionMap ℕ Connection,
    said id (perform effects cs).2 =
      ((cs.get id).map (Connection.utters (addressed id effects))).getD [] := by
  induction effects with
  | nil =>
    intro cs
    show [] = _
    cases cs.get id <;> rfl
  | cons effect effects ih =>
    intro cs
    show said id ((performOne effect cs).2 ++ (perform effects (performOne effect cs).1).2) = _
    rw [said_append, ih, performOne_said, performOne_get, addressed_cons]
    cases cs.get id with
    | none => rfl
    | some c => exact (utters_append _ _ c).symm

/-! ### The discipline of the handlers -/

/-- The two machines side by side: `S` has written `out`, the relay `R` has made the calls
`effects`. -/
structure Serves (S : RelayHttpServer) (out : List Written) (R : ServerState)
    (effects : List Effect) : Prop where
  kept : Kept R
  relay : R.relay = S.relay
  ident : ∀ id c, S.connections.get id = some c → c.socket.id = id
  greeted : ∀ socket, socket ∈ R.greeted ↔
    ∃ c, S.connections.get socket.id = some c ∧ c.socket = socket ∧ c.greeted = true
  gone : ∀ socket, socket ∈ R.gone ↔
    ∃ c, S.connections.get socket.id = some c ∧ c.socket = socket ∧ c.readyState = .closed
  heard : ∀ dest frame, Effect.send dest frame ∈ effects → dest ∈ R.greeted
  unsaid : ∀ id, S.connections.get id = none → said id out = []
  said : ∀ id c, S.connections.get id = some c →
    framesOf (said id out) <+: sentTo c.socket effects ∧
      (c.readyState = .opened → framesOf (said id out) = sentTo c.socket effects)

variable {L : RelayLimits} {rt : JsonRuntime} {S : RelayHttpServer} {out : List Written}
  {R : ServerState} {effects : List Effect}

theorem serves_start : Serves .start [] init [] where
  kept := kept_init
  relay := rfl
  ident id c h := by cases h
  greeted socket := by simp [init, RelayHttpServer.start]
  gone socket := by simp [init, RelayHttpServer.start]
  heard dest frame h := by cases h
  unsaid id h := rfl
  said id c h := by cases h

/-- The socket of a connection is known by the connection's number. -/
theorem Serves.greeted_iff (h : Serves S out R effects) {id : ℕ} {c : Connection}
    (hc : S.connections.get id = some c) : c.socket ∈ R.greeted ↔ c.greeted = true := by
  rw [h.greeted, h.ident id c hc]
  constructor
  · rintro ⟨c', hc', -, hgreeted⟩
    cases hc.symm.trans hc'
    exact hgreeted
  · exact fun hgreeted => ⟨c, hc, rfl, hgreeted⟩

theorem Serves.gone_iff (h : Serves S out R effects) {id : ℕ} {c : Connection}
    (hc : S.connections.get id = some c) : c.socket ∈ R.gone ↔ c.readyState = .closed := by
  rw [h.gone, h.ident id c hc]
  constructor
  · rintro ⟨c', hc', -, hclosed⟩
    cases hc.symm.trans hc'
    exact hclosed
  · exact fun hclosed => ⟨c, hc, rfl, hclosed⟩

/-- What a step of the server may do to a connection: it does not open it again. -/
structure Follows (c c' : Connection) : Prop where
  socket : c'.socket = c.socket
  opened : c'.readyState = .opened → c.readyState = .opened

/-- A step that the relay does not hear of. -/
structure Unheard (c c' : Connection) : Prop extends Follows c c' where
  greeted : c'.greeted = c.greeted
  closed : c'.readyState = .closed ↔ c.readyState = .closed

theorem Unheard.refl (c : Connection) : Unheard c c := ⟨⟨rfl, id⟩, rfl, Iff.rfl⟩

theorem unheard_close (id code : ℕ) (reason : String) (c : Connection) :
    Unheard c (c.close id code reason).1 := by
  rw [close_fst]
  exact ⟨⟨onClosing_socket c, fun h => absurd h (onClosing_not_opened c)⟩, onClosing_greeted c,
    onClosing_closed c⟩

theorem unheard_terminate (id : ℕ) (c : Connection) : Unheard c (c.terminate id).1 := by
  unfold Connection.terminate
  split
  · exact .refl c
  · next hlive => exact ⟨⟨rfl, fun h => by cases h⟩, rfl, by simp [hlive]⟩

theorem unheard_onIdle (id : ℕ) (c : Connection) : Unheard c (c.onIdle id).1 := by
  unfold Connection.onIdle
  split
  · exact unheard_terminate id c
  · exact ⟨⟨rfl, fun h => h⟩, rfl, Iff.rfl⟩

theorem unheard_onClosing (c : Connection) : Unheard c c.onClosing :=
  ⟨⟨onClosing_socket c, fun h => absurd h (onClosing_not_opened c)⟩, onClosing_greeted c,
    onClosing_closed c⟩

/-- The end of a TCP connection and a ping say nothing. -/
theorem said_terminate (id id' : ℕ) (c : Connection) : said id (c.terminate id').2 = [] := by
  unfold Connection.terminate
  split <;> rfl

theorem said_onIdle (id id' : ℕ) (c : Connection) : said id (c.onIdle id').2 = [] := by
  unfold Connection.onIdle
  split
  · exact said_terminate id id' c
  · dsimp only
    split <;> rfl

/-- **A step without a call of the relay** keeps the two machines side by side. -/
theorem serves_unheard (h : Serves S out R effects) {S' : RelayHttpServer} {out' : List Written}
    (hrelay : S'.relay = S.relay)
    (hrel : ∀ id, Option.Rel Unheard (S.connections.get id) (S'.connections.get id))
    (hframes : ∀ id, framesOf (said id out') = [])
    (hnone : ∀ id, S.connections.get id = none → said id out' = []) :
    Serves S' (out ++ out') R effects := by
  have hback : ∀ {id c'}, S'.connections.get id = some c' →
      ∃ c, S.connections.get id = some c ∧ Unheard c c' := by
    intro id c' hc'
    have hid := hrel id
    rw [hc'] at hid
    generalize S.connections.get id = o at hid
    cases hid with
    | some hun => exact ⟨_, rfl, hun⟩
  have hforth : ∀ {id c}, S.connections.get id = some c →
      ∃ c', S'.connections.get id = some c' ∧ Unheard c c' := by
    intro id c hc
    have hid := hrel id
    rw [hc] at hid
    generalize S'.connections.get id = o at hid
    cases hid with
    | some hun => exact ⟨_, rfl, hun⟩
  refine ⟨h.kept, h.relay.trans hrelay.symm, fun id c' hc' => ?_, fun socket => ?_,
    fun socket => ?_, h.heard, fun id hid => ?_, fun id c' hc' => ?_⟩
  · obtain ⟨c, hc, hun⟩ := hback hc'
    rw [hun.socket]
    exact h.ident id c hc
  · rw [h.greeted]
    constructor
    · rintro ⟨c, hc, hsocket, hgreeted⟩
      obtain ⟨c', hc', hun⟩ := hforth hc
      exact ⟨c', hc', hun.socket.trans hsocket, hun.greeted.trans hgreeted⟩
    · rintro ⟨c', hc', hsocket, hgreeted⟩
      obtain ⟨c, hc, hun⟩ := hback hc'
      exact ⟨c, hc, hun.socket.symm.trans hsocket, hun.greeted.symm.trans hgreeted⟩
  · rw [h.gone]
    constructor
    · rintro ⟨c, hc, hsocket, hclosed⟩
      obtain ⟨c', hc', hun⟩ := hforth hc
      exact ⟨c', hc', hun.socket.trans hsocket, hun.closed.mpr hclosed⟩
    · rintro ⟨c', hc', hsocket, hclosed⟩
      obtain ⟨c, hc, hun⟩ := hback hc'
      exact ⟨c, hc, hun.socket.symm.trans hsocket, hun.closed.mp hclosed⟩
  · have hold : S.connections.get id = none := by
      cases hc : S.connections.get id with
      | none => rfl
      | some c =>
        obtain ⟨c', hc', -⟩ := hforth hc
        rw [hid] at hc'
        cases hc'
    rw [said_append, h.unsaid id hold, hnone id hold]
    rfl
  · obtain ⟨c, hc, hun⟩ := hback hc'
    rw [said_append, framesOf_append, hframes, List.append_nil, hun.socket]
    exact ⟨(h.said id c hc).1, fun hopen => (h.said id c hc).2 (hun.opened hopen)⟩

/-- The same for a step of one connection. -/
theorem serves_update (h : Serves S out R effects) {id : ℕ} {c : Connection}
    (hc : S.connections.get id = some c) {result : Connection × List Written}
    (hun : Unheard c result.1) (hframes : ∀ id', framesOf (said id' result.2) = [])
    (hother : ∀ id', id' ≠ id → said id' result.2 = []) :
    Serves (S.update id result).1 (out ++ (S.update id result).2) R effects := by
  refine serves_unheard h rfl (fun id' => ?_) hframes fun id' hid' => ?_
  · show Option.Rel Unheard _ ((S.connections.set id result.1).get id')
    rw [InsertionMap.get_set]
    split
    · next hid =>
      rw [hid, hc]
      exact .some hun
    · cases S.connections.get id' with
      | none => exact .none
      | some c' => exact .some (.refl c')
  · refine hother id' ?_
    rintro rfl
    rw [hc] at hid'
    cases hid'

/-- The frames among what is addressed to a connection are those the relay sends to its socket. -/
theorem framesOf_addressed {id : ℕ} {socket : Socket} (hsocket : socket.id = id)
    (calls : List Effect) (hdest : ∀ dest frame, Effect.send dest frame ∈ calls → dest.id = id →
      dest = socket) : framesOf (addressed id calls) = sentTo socket calls := by
  induction calls with
  | nil => rfl
  | cons effect calls ih =>
    have hrest := ih fun dest frame hmem => hdest dest frame (List.mem_cons_of_mem _ hmem)
    rw [addressed_cons, framesOf_append, hrest]
    cases effect with
    | send dest frame =>
      rw [sentTo_cons_send]
      unfold addressedOf
      dsimp only
      by_cases hid : dest.id = id
      · rw [if_pos hid, if_pos (hdest dest frame List.mem_cons_self hid)]
        rfl
      · have hne : dest ≠ socket := fun heq => hid ((congrArg Socket.id heq).trans hsocket)
        rw [if_neg hid, if_neg hne]
        rfl
    | close socket' code reason =>
      unfold addressedOf sentTo
      dsimp only
      split <;> rfl

/-- **A step with a call of the relay.**  `cs` are the connections as the handler leaves them before
the call. -/
theorem serves_call (h : Serves S out R effects) (cs : InsertionMap ℕ Connection) {e : Event}
    (henabled : Enabled R e)
    (hrel : ∀ id, Option.Rel Follows (S.connections.get id) (cs.get id))
    (hgreeted : ∀ socket, socket ∈ ((server L).next R e).greeted ↔
      ∃ c, cs.get socket.id = some c ∧ c.socket = socket ∧ c.greeted = true)
    (hgone : ∀ socket, socket ∈ ((server L).next R e).gone ↔
      ∃ c, cs.get socket.id = some c ∧ c.socket = socket ∧ c.readyState = .closed)
    {S' : RelayHttpServer} {out' : List Written}
    (hstep : RelayHttpServer.call { S with connections := cs } (react L S.relay e) = (S', out')) :
    Serves S' (out ++ out') ((server L).next R e) (effects ++ (react L R.relay e).2) := by
  rw [h.relay]
  have hsent : ∀ dest frame, Effect.send dest frame ∈ (react L S.relay e).2 →
      dest ∈ ((server L).next R e).greeted := fun dest frame hmem =>
    greeted_of_sent h.kept.toSeated henabled (by rw [h.relay]; exact hmem)
  have hmono : ∀ socket, socket ∈ R.greeted → socket ∈ ((server L).next R e).greeted := by
    intro socket hmem
    cases e with
    | hello => exact List.mem_cons_of_mem _ hmem
    | _ => exact hmem
  cases hstep
  -- what a connection is after the call, and what it was before
  have hback : ∀ {id c'}, (perform (react L S.relay e).2 cs).1.get id = some c' →
      ∃ c₁ c, S.connections.get id = some c ∧ cs.get id = some c₁ ∧ Follows c c₁ ∧
        c' = c₁.hears (addressed id (react L S.relay e).2) := by
    intro id c' hc'
    rw [perform_get] at hc'
    obtain ⟨c₁, hc₁, heq⟩ := Option.map_eq_some_iff.mp hc'
    have hid := hrel id
    rw [hc₁] at hid
    generalize S.connections.get id = o at hid
    cases hid with
    | some hfollows => exact ⟨c₁, _, rfl, hc₁, hfollows, heq.symm⟩
  have hforth : ∀ {id c₁}, cs.get id = some c₁ → (perform (react L S.relay e).2 cs).1.get id =
      some (c₁.hears (addressed id (react L S.relay e).2)) := by
    intro id c₁ hc₁
    rw [perform_get, hc₁]
    rfl
  refine ⟨kept_next h.kept henabled, ?_, fun id c' hc' => ?_, fun socket => ?_, fun socket => ?_,
    fun dest frame hmem => ?_, fun id hid => ?_, fun id c' hc' => ?_⟩
  · rw [next_relay, h.relay]
  · obtain ⟨c₁, c, hc, -, hfollows, rfl⟩ := hback hc'
    rw [hears_socket, hfollows.socket]
    exact h.ident id c hc
  · rw [hgreeted]
    constructor
    · rintro ⟨c₁, hc₁, hsocket, hc₁greeted⟩
      exact ⟨_, hforth hc₁, by simpa using hsocket, by simpa using hc₁greeted⟩
    · rintro ⟨c', hc', hsocket, hc'greeted⟩
      obtain ⟨c₁, c, -, hc₁, -, rfl⟩ := hback hc'
      exact ⟨c₁, hc₁, by simpa using hsocket, by simpa using hc'greeted⟩
  · rw [hgone]
    constructor
    · rintro ⟨c₁, hc₁, hsocket, hc₁closed⟩
      exact ⟨_, hforth hc₁, by simpa using hsocket, by simpa using hc₁closed⟩
    · rintro ⟨c', hc', hsocket, hc'closed⟩
      obtain ⟨c₁, c, -, hc₁, -, rfl⟩ := hback hc'
      exact ⟨c₁, hc₁, by simpa using hsocket, by simpa using hc'closed⟩
  · rcases List.mem_append.mp hmem with hold | hnew
    · exact hmono dest (h.heard dest frame hold)
    · exact hsent dest frame hnew
  · have hnone : cs.get id = none := by
      cases hc₁ : cs.get id with
      | none => rfl
      | some c₁ =>
        rw [hforth hc₁] at hid
        cases hid
    have hold : S.connections.get id = none := by
      have hrelid := hrel id
      rw [hnone] at hrelid
      generalize S.connections.get id = o at hrelid
      cases hrelid
      rfl
    rw [said_append, h.unsaid id hold, perform_said, hnone]
    rfl
  · obtain ⟨c₁, c, hc, hc₁, hfollows, rfl⟩ := hback hc'
    have hsocket : c₁.socket = c.socket := hfollows.socket
    have hframes : framesOf (addressed id (react L S.relay e).2) =
        sentTo c.socket (react L S.relay e).2 := by
      refine framesOf_addressed (h.ident id c hc) _ fun dest frame hmem hdest => ?_
      obtain ⟨c₂, hc₂, hsame, -⟩ := (hgreeted dest).mp (hsent dest frame hmem)
      rw [hdest, hc₁] at hc₂
      cases hc₂
      exact hsame.symm.trans hsocket
    have hutters : said id (perform (react L S.relay e).2 cs).2 =
        c₁.utters (addressed id (react L S.relay e).2) := by
      rw [perform_said, hc₁]
      rfl
    rw [hears_socket, hsocket, said_append, framesOf_append, hutters, sentTo_append, ← hframes]
    by_cases hopen : c₁.readyState = .opened
    · rw [(h.said id c hc).2 (hfollows.opened hopen)]
      refine ⟨(List.prefix_append_right_inj _).mpr ?_, fun hopen' => ?_⟩
      · exact (utters_start _ c₁).filterMap _
      · rw [utters_of_opened _ hopen']
    · obtain ⟨hnil, hshut⟩ := utters_of_not_opened (addressed id (react L S.relay e).2) hopen
      rw [hnil]
      refine ⟨?_, fun hopen' => absurd hopen' hshut⟩
      simpa [framesOf] using (h.said id c hc).1.trans (List.prefix_append _ _)

/-- Another state for one connection. -/
theorem follows_set {id : ℕ} {c c' : Connection} {cs : InsertionMap ℕ Connection}
    (hc : cs.get id = some c) (hfollows : Follows c c') (id' : ℕ) :
    Option.Rel Follows (cs.get id') ((cs.set id c').get id') := by
  rw [InsertionMap.get_set]
  split
  · next hid =>
    rw [hid, hc]
    exact .some hfollows
  · cases cs.get id' with
    | none => exact .none
    | some c₂ => exact .some ⟨rfl, fun hopen => hopen⟩

/-- What holds of the sockets of all connections, when one connection is set. -/
theorem exists_set {P : Connection → Prop} {id : ℕ} {c : Connection} (c' : Connection)
    {cs : InsertionMap ℕ Connection} (hc : cs.get id = some c) (hident : c.socket.id = id)
    (hsocket : c'.socket = c.socket) (socket : Socket) :
    (∃ c₂, (cs.set id c').get socket.id = some c₂ ∧ c₂.socket = socket ∧ P c₂) ↔
      (socket = c.socket ∧ P c') ∨
        (socket ≠ c.socket ∧ ∃ c₂, cs.get socket.id = some c₂ ∧ c₂.socket = socket ∧ P c₂) := by
  by_cases heq : socket = c.socket
  · subst heq
    rw [hident, InsertionMap.get_set_self]
    simp [hsocket]
  · have hsame : ∀ c₂ : Connection, c₂.socket = socket → ((cs.set id c').get socket.id = some c₂ ↔
        cs.get socket.id = some c₂) := by
      intro c₂ hc₂
      rw [InsertionMap.get_set]
      split
      · next hid =>
        rw [hid, hc]
        constructor
        · rintro h
          cases h
          exact absurd (hc₂.symm.trans hsocket) heq
        · rintro h
          cases h
          exact absurd hc₂.symm heq
      · exact Iff.rfl
    simp only [heq, false_and, false_or, ne_eq, not_false_eq_true, true_and]
    constructor
    · rintro ⟨c₂, hget, hc₂, hP⟩
      exact ⟨c₂, (hsame c₂ hc₂).mp hget, hc₂, hP⟩
    · rintro ⟨c₂, hget, hc₂, hP⟩
      exact ⟨c₂, (hsame c₂ hc₂).mpr hget, hc₂, hP⟩

/-- A new connection. -/
theorem serves_connection (h : Serves S out R effects) {id : ℕ} (forwardedFor remoteAddress : Option String)
    (hnew : S.connections.get id = none) :
    Serves (serve L rt S (.connection id forwardedFor remoteAddress)).1
      (out ++ (serve L rt S (.connection id forwardedFor remoteAddress)).2) R effects := by
  have hget : ∀ id', (serve L rt S (.connection id forwardedFor remoteAddress)).1.connections.get id' =
      if id' = id then some ⟨⟨id, clientIp forwardedFor remoteAddress⟩, false, true, .opened⟩
      else S.connections.get id' := fun id' => InsertionMap.get_set ..
  -- nobody of this number is known to the relay
  have hunknown : ∀ {P : Connection → Prop} {socket : Socket},
      P ⟨⟨id, clientIp forwardedFor remoteAddress⟩, false, true, .opened⟩ = False →
      ((∃ c, S.connections.get socket.id = some c ∧ c.socket = socket ∧ P c) ↔
        ∃ c, (serve L rt S (.connection id forwardedFor remoteAddress)).1.connections.get socket.id =
          some c ∧ c.socket = socket ∧ P c) := by
    intro P socket hP
    rw [hget]
    by_cases hid : socket.id = id
    · rw [hid, hnew, if_pos rfl]
      constructor
      · rintro ⟨c, hc, -⟩
        cases hc
      · rintro ⟨c, hc, -, hPc⟩
        cases hc
        rw [hP] at hPc
        exact hPc.elim
    · rw [if_neg hid]
  have hout : (serve L rt S (.connection id forwardedFor remoteAddress)).2 = [] := rfl
  rw [hout, List.append_nil]
  refine ⟨h.kept, h.relay, fun id' c hc => ?_, fun socket => ?_, fun socket => ?_, h.heard,
    fun id' hid' => ?_, fun id' c hc => ?_⟩
  · rw [hget] at hc
    split at hc
    · next hid =>
      cases hc
      exact hid.symm
    · exact h.ident id' c hc
  · rw [h.greeted]
    exact hunknown (by simp)
  · rw [h.gone]
    exact hunknown (by simp)
  · rw [hget] at hid'
    split at hid'
    · cases hid'
    · exact h.unsaid id' hid'
  · rw [hget] at hc
    split at hc
    · next hid =>
      cases hc
      have hsilent : sentTo ⟨id, clientIp forwardedFor remoteAddress⟩ effects = [] := by
        rw [List.eq_nil_iff_forall_not_mem]
        intro frame hmem
        obtain ⟨c, hc, -⟩ := (h.greeted _).mp (h.heard _ frame (mem_sentTo.mp hmem))
        rw [hnew] at hc
        cases hc
      rw [hid, h.unsaid id hnew, hsilent]
      exact ⟨List.nil_prefix, fun _ => rfl⟩
    · exact h.said id' c hc

/-- The end of all TCP connections. -/
theorem terminateAll_get (ids : List ℕ) (id : ℕ) : ∀ cs : InsertionMap ℕ Connection,
    Option.Rel Unheard (cs.get id) ((terminateAll ids cs).1.get id) ∧
      said id (terminateAll ids cs).2 = [] := by
  induction ids with
  | nil =>
    intro cs
    refine ⟨?_, rfl⟩
    show Option.Rel Unheard (cs.get id) (cs.get id)
    cases cs.get id with
    | none => exact .none
    | some c => exact .some (.refl c)
  | cons id₀ ids ih =>
    intro cs
    rw [terminateAll]
    cases hc : cs.get id₀ with
    | none => exact ih cs
    | some c₀ =>
      obtain ⟨hrel, hsaid⟩ := ih (cs.set id₀ (c₀.terminate id₀).1)
      refine ⟨?_, ?_⟩
      · rw [InsertionMap.get_set] at hrel
        dsimp only
        split at hrel
        · next hid =>
          subst hid
          rw [hc]
          generalize (terminateAll ids _).1.get id = o at hrel ⊢
          cases hrel with
          | some hun =>
            have hfirst := unheard_terminate id c₀
            exact .some ⟨⟨hun.socket.trans hfirst.socket, fun hopen => hfirst.opened (hun.opened hopen)⟩,
              hun.greeted.trans hfirst.greeted, hun.closed.trans hfirst.closed⟩
        · exact hrel
      · show said id ((c₀.terminate id₀).2 ++ _) = []
        rw [said_append, said_terminate, hsaid]
        rfl

theorem serves_shutdown (h : Serves S out R effects) :
    Serves (serve L rt S .shutdown).1 (out ++ (serve L rt S .shutdown).2) R effects := by
  have hall := fun id => terminateAll_get S.connections.keys id S.connections
  refine serves_unheard h rfl (fun id => (hall id).1) (fun id => ?_) fun id _ => (hall id).2
  show framesOf (said id (terminateAll _ _).2) = []
  rw [(hall id).2]
  rfl

/-- The run of the relay that one of its calls is. -/
theorem run_one (R : ServerState) (e : Event) : (server L).exec R [e] = (server L).next R e ∧
    (server L).trace R [e] = (react L R.relay e).2 :=
  ⟨rfl, by simp [Machine.trace]⟩

/-- A step of the server goes on side by side with the calls `es` of the relay. -/
def GoesOn (L : RelayLimits) (rt : JsonRuntime) (S : RelayHttpServer) (out : List Written)
    (R : ServerState) (effects : List Effect) (e : WsEvent) (es : List Event) : Prop :=
  (server L).Along Enabled R es ∧
    Serves (serve L rt S e).1 (out ++ (serve L rt S e).2) ((server L).exec R es)
      (effects ++ (server L).trace R es)

theorem goesOn_silent {e : WsEvent}
    (h : Serves (serve L rt S e).1 (out ++ (serve L rt S e).2) R effects) :
    GoesOn L rt S out R effects e [] :=
  ⟨trivial, by simpa [Machine.trace] using h⟩

theorem goesOn_call {e : WsEvent} {call : Event} (henabled : Enabled R call)
    (h : Serves (serve L rt S e).1 (out ++ (serve L rt S e).2) ((server L).next R call)
      (effects ++ (react L R.relay call).2)) :
    GoesOn L rt S out R effects e [call] := by
  unfold GoesOn
  rw [(run_one R call).1, (run_one R call).2]
  exact ⟨⟨henabled, trivial⟩, h⟩

theorem goesOn_message (h : Serves S out R effects) {id : ℕ} (data : Bytes) (isBinary : Bool)
    (now : ℕ) (token : String) (hlive : S.Live id) :
    GoesOn L rt S out R effects (.message id data isBinary now token)
      (calls rt S (.message id data isBinary now token)) := by
  obtain ⟨c, hc, hnotclosed⟩ := hlive
  have hident := h.ident id c hc
  have hserve : serve L rt S (.message id data isBinary now token) =
      onWsMessage L rt id data isBinary now token c S := by simp only [serve, hc]
  have hclose : ∀ code reason, serve L rt S (.message id data isBinary now token) =
      S.update id (c.close id code reason) →
      GoesOn L rt S out R effects (.message id data isBinary now token) [] := by
    intro code reason heq
    refine goesOn_silent ?_
    rw [heq]
    refine serves_update h hc (unheard_close ..) (fun id' => ?_) fun id' hid' => ?_
    · rw [close_said]
      split <;> rfl
    · rw [close_said, if_neg fun hboth => hid' hboth.1.symm]
  simp only [calls, hc]
  by_cases hbinary : isBinary = true
  · by_cases hgreeted : c.greeted = true
    · -- a frame for the relay
      simp only [hbinary, hgreeted, Bool.not_true, Bool.false_eq_true, if_false]
      have henabled : Enabled R (.message c.socket data now) :=
        ⟨(h.greeted_iff hc).mpr hgreeted, fun hgone => hnotclosed ((h.gone_iff hc).mp hgone)⟩
      refine goesOn_call henabled (serves_call h S.connections henabled (fun id' => ?_)
        h.greeted h.gone ?_)
      · cases S.connections.get id' with
        | none => exact .none
        | some c' => exact .some ⟨rfl, fun hopen => hopen⟩
      · rw [← hbinary, hserve]
        unfold onWsMessage
        simp only [hbinary, hgreeted, Bool.not_true, Bool.false_eq_true, if_false]
        rfl
    · simp only [hbinary, hgreeted, Bool.not_true, Bool.not_false, Bool.false_eq_true, if_false,
        if_true]
      have hunfold : onWsMessage L rt id data true now token c S =
          match Wire.decodeHello rt data with
          | .ok (some hello) =>
            RelayHttpServer.call
              { S with connections := S.connections.set id { c with greeted := true } }
              (onHello L now token c.socket hello S.relay)
          | _ => S.update id (c.close id 1008 "bad hello") := by
        unfold onWsMessage
        simp only [hgreeted, Bool.not_true, Bool.not_false, Bool.false_eq_true, if_false, if_true]
      obtain ⟨r, hr⟩ := Wire.decodeHello_total rt data
      rw [hr] at hunfold ⊢
      cases r with
      | none =>
        rw [← hbinary]
        exact hclose 1008 "bad hello" (by rw [hserve, hbinary]; exact hunfold)
      | some hello =>
        -- the HELLO
        dsimp only at hunfold ⊢
        have hfresh : c.socket ∉ R.greeted := fun hmem => hgreeted ((h.greeted_iff hc).mp hmem)
        have henabled : Enabled R (.hello c.socket hello now token) :=
          ⟨hfresh, fun hgone => hnotclosed ((h.gone_iff hc).mp hgone)⟩
        refine goesOn_call henabled (serves_call h
          (S.connections.set id { c with greeted := true }) henabled
          (follows_set hc ⟨rfl, fun hopen => hopen⟩) (fun socket => ?_) (fun socket => ?_) ?_)
        · show socket ∈ c.socket :: R.greeted ↔ _
          rw [exists_set (P := fun c => c.greeted = true) { c with greeted := true } hc hident rfl, List.mem_cons, h.greeted]
          by_cases heq : socket = c.socket <;> simp [heq]
        · show socket ∈ R.gone ↔ _
          rw [exists_set (P := fun c => c.readyState = .closed) { c with greeted := true } hc hident rfl, h.gone]
          by_cases heq : socket = c.socket
          · have hsame : (∃ c₂, S.connections.get socket.id = some c₂ ∧ c₂.socket = socket ∧
                c₂.readyState = .closed) ↔ c.readyState = .closed := by
              rw [← h.gone, heq]
              exact h.gone_iff hc
            rw [hsame]
            simp [heq]
          · simp [heq]
        · rw [← hbinary, hserve, hbinary]
          exact hunfold.symm
  · rw [Bool.not_eq_true] at hbinary
    simp only [hbinary, Bool.not_false, if_true]
    rw [← hbinary]
    refine hclose 1003 "binary only" ?_
    rw [hserve]
    unfold onWsMessage
    simp only [hbinary, Bool.not_false, if_true]

theorem goesOn_closed (h : Serves S out R effects) {id : ℕ} (hlive : S.Live id) :
    GoesOn L rt S out R effects (.closed id) (calls rt S (.closed id)) := by
  obtain ⟨c, hc, hnotclosed⟩ := hlive
  have hident := h.ident id c hc
  have hcalls : calls rt S (.closed id) = [.close c.socket] := by simp only [calls, hc]
  have henabled : Enabled R (.close c.socket) := fun hgone =>
    hnotclosed ((h.gone_iff hc).mp hgone)
  rw [hcalls]
  refine goesOn_call henabled (serves_call h
    (S.connections.set id { c with readyState := .closed }) henabled
    (follows_set hc ⟨rfl, fun hopen => by cases hopen⟩) (fun socket => ?_) (fun socket => ?_) ?_)
  · show socket ∈ R.greeted ↔ _
    rw [exists_set (P := fun c => c.greeted = true) { c with readyState := .closed } hc hident rfl, h.greeted]
    by_cases heq : socket = c.socket
    · have hsame : (∃ c₂, S.connections.get socket.id = some c₂ ∧ c₂.socket = socket ∧
          c₂.greeted = true) ↔ c.greeted = true := by
        rw [← h.greeted, heq]
        exact h.greeted_iff hc
      rw [hsame]
      simp [heq]
    · simp [heq]
  · show socket ∈ c.socket :: R.gone ↔ _
    rw [exists_set (P := fun c => c.readyState = .closed) { c with readyState := .closed } hc hident rfl, List.mem_cons, h.gone]
    by_cases heq : socket = c.socket <;> simp [heq]
  · simp only [serve, hc]
    rfl

/-- **One event of the server** keeps the two machines side by side. -/
theorem serves_next (h : Serves S out R effects) {e : WsEvent} (hdeliverable : Deliverable S e) :
    GoesOn L rt S out R effects e (calls rt S e) := by
  have hone : ∀ {id} {f : Connection → Connection × List Written}, S.Live id →
      (∀ c, Unheard c (f c).1) → (∀ id' c, said id' (f c).2 = []) →
      (∀ c, S.connections.get id = some c → serve L rt S e = S.update id (f c)) →
      GoesOn L rt S out R effects e [] := by
    intro id f hlive hun hsaid hserve
    obtain ⟨c, hc, -⟩ := hlive
    refine goesOn_silent ?_
    rw [hserve c hc]
    refine serves_update h hc (hun c) (fun id' => ?_) fun id' _ => hsaid id' c
    rw [hsaid]
    rfl
  cases e with
  | connection id forwardedFor remoteAddress =>
    exact goesOn_silent (serves_connection h forwardedFor remoteAddress hdeliverable.2)
  | message id data isBinary now token => exact goesOn_message h data isBinary now token hdeliverable
  | pong id =>
    exact hone (f := fun c => ({ c with alive := true }, [])) hdeliverable
      (fun c => ⟨⟨rfl, fun hopen => hopen⟩, rfl, Iff.rfl⟩) (fun _ _ => rfl)
      fun c hc => by simp only [serve, hc]
  | idle id =>
    exact hone (f := Connection.onIdle id) hdeliverable (unheard_onIdle id)
      (fun id' c => said_onIdle id' id c) fun c hc => by simp only [serve, hc]
  | closing id =>
    exact hone (f := fun c => (c.onClosing, [])) hdeliverable unheard_onClosing (fun _ _ => rfl)
      fun c hc => by simp only [serve, hc]
  | error id =>
    exact hone (f := Connection.terminate id) hdeliverable (unheard_terminate id)
      (fun id' c => said_terminate id' id c) fun c hc => by simp only [serve, hc]
  | closed id => exact goesOn_closed h hdeliverable
  | sweep now =>
    have henabled : Enabled R (.sweep now) := trivial
    refine goesOn_call henabled (serves_call h S.connections henabled (fun id' => ?_) h.greeted
      h.gone rfl)
    cases S.connections.get id' with
    | none => exact .none
    | some c' => exact .some ⟨rfl, fun hopen => hopen⟩
  | request url =>
    refine goesOn_silent ?_
    simp only [serve]
    split <;> exact serves_unheard h rfl
      (fun id => by cases S.connections.get id with
        | none => exact .none
        | some c => exact .some (.refl c)) (fun _ => rfl) fun _ _ => rfl
  | shutdown => exact goesOn_silent (serves_shutdown h)

/-! ### Runs -/

instance (S : RelayHttpServer) (id : ℕ) : Decidable (S.Live id) :=
  decidable_of_iff ((S.connections.get id).any fun c => decide (c.readyState ≠ .closed)) (by
    unfold RelayHttpServer.Live
    simp [Option.any_eq_true])

instance (S : RelayHttpServer) (e : WsEvent) : Decidable (Deliverable S e) := by
  cases e <;> unfold Deliverable <;> infer_instance

instance (L : RelayLimits) (rt : JsonRuntime) (S : RelayHttpServer) (e : WsEvent) :
    Decidable ((serving L rt).enabled S e) :=
  inferInstanceAs (Decidable (Deliverable S e))

/-- The calls of the relay in a run of the server. -/
def relayRun (L : RelayLimits) (rt : JsonRuntime) (es : List WsEvent) : List Event :=
  (serving L rt).induced (calls rt) .start es

/-- A run of the server, side by side with the run of the relay. -/
theorem serves_exec (L : RelayLimits) (rt : JsonRuntime) {es : List WsEvent}
    (hvalid : (serving L rt).Valid .start es) :
    (server L).Valid init (relayRun L rt es) ∧
      Serves ((serving L rt).exec .start es) ((serving L rt).trace .start es)
        ((server L).exec init (relayRun L rt es)) ((server L).trace init (relayRun L rt es)) :=
  Machine.simulation (M := serving L rt) (N := server L) (G := Deliverable) (H := Enabled)
    (R := Serves) (fun _ _ _ _ _ h hdeliverable => serves_next h hdeliverable) hvalid serves_start

/-- **The server is the relay under its discipline.**  The calls that the WebSocket server makes in any
run are a run of the relay, with the same registry at the end; and the frames written to a connection
are the first of those that the relay has sent to its socket, all of them while it is open. -/
theorem serving_refines (L : RelayLimits) (rt : JsonRuntime) (es : List WsEvent)
    (hvalid : (serving L rt).Valid .start es) :
    (server L).Valid init (relayRun L rt es) ∧
      ((server L).exec init (relayRun L rt es)).relay = ((serving L rt).exec .start es).relay ∧
      ∀ id c, ((serving L rt).exec .start es).connections.get id = some c →
        framesOf (said id ((serving L rt).trace .start es)) <+:
            sentTo c.socket ((server L).trace init (relayRun L rt es)) ∧
          (c.readyState = .opened → framesOf (said id ((serving L rt).trace .start es)) =
            sentTo c.socket ((server L).trace init (relayRun L rt es))) := by
  obtain ⟨hrun, hserves⟩ := serves_exec L rt hvalid
  exact ⟨hrun, hserves.relay, hserves.said⟩

/-- The HELLO of a client as JSON, and its text. -/
def helloObject (role : String) : Json :=
  .obj [("role", .str role), ("roomId", .str "65727231"), ("app", .str "1.0.0"),
    ("proto", .num (.finite 1))]

def helloText (role : String) : Bytes :=
  ("\x7b\"role\":\"" ++ role ++
    "\",\"roomId\":\"65727231\",\"app\":\"1.0.0\",\"proto\":1\x7d").toList.map
    fun c => UInt8.ofNat c.toNat

/-- A runtime that knows how to read the two of them. -/
def helloRuntime : JsonRuntime where
  stringify _ := []
  parse text :=
    if text = helloText "host" then .ok (helloObject "host")
    else if text = helloText "peer" then .ok (helloObject "peer")
    else .error .syntaxError
  display _ := .error .typeError
  parse_nil := by rw [if_neg (by decide +kernel), if_neg (by decide +kernel)]

/-- A host behind a proxy and a peer.  The peer does not answer the ping and is cut off; then the host
leaves. -/
def servedRun : List WsEvent :=
  [.connection 1 (some " 10.0.0.1 , 10.0.0.9") none, .message 1 (T.hello :: helloText "host") true 0 "a",
    .connection 2 none (some "10.0.0.2"), .message 2 (T.hello :: helloText "peer") true 1 "",
    .idle 2, .idle 2, .closed 2, .closing 1, .closed 1, .sweep 9000]

theorem serving_refines_servedRun :
    (server defaultLimits).Valid init (relayRun defaultLimits helloRuntime servedRun) ∧
      ((server defaultLimits).exec init (relayRun defaultLimits helloRuntime servedRun)).relay =
        ((serving defaultLimits helloRuntime).exec .start servedRun).relay := by
  have hrefines := serving_refines defaultLimits helloRuntime servedRun (by decide +kernel)
  exact ⟨hrefines.1, hrefines.2.1⟩

end ScreenSharing.Relay
