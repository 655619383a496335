import ScreenSharing.Net.Connection

/-!
# A coroutine and its connection

`Process` is the event loop of one side as far as one connection is concerned: the connection, the
asynchronous function that uses it, which stands at `pc`, and the microtasks in their queue.  A
microtask resumes the function after the promise it awaits is settled, or is a `#flush`, which every
new handshake or message listener queues.

A `Program` says which listeners are installed while the function stands at `pc`, and what they do.
-/

namespace ScreenSharing.Handshake

open Lib Crypto Net

/-- The data of a transport frame, and whether it is binary. -/
abbrev Frame := Bytes × Bool

inductive Reason
  | roomIdMismatch
  | versionMismatch
  | badPassword
  | badMessage
  | timeout
  | closed
  deriving DecidableEq

/-- What the asynchronous functions throw. -/
inductive Failure
  /-- a `HandshakeError` -/
  | handshake (message : String) (reason : Reason)
  | cpace (e : CpaceError)
  | connection (e : ConnectionError)
  /-- of `hexToBytes` -/
  | hex
  deriving DecidableEq

inductive Task
  | flush
  | resume
  deriving DecidableEq

structure Process (Pc : Type*) where
  conn : Connection
  pc : Pc
  queue : List Task
  /-- are the microtasks of this turn being run? -/
  draining : Bool
  /-- the envelopes that were emitted -/
  heard : List Envelope
  /-- the envelopes that were sent -/
  said : List Envelope
  /-- what `#fail` was called with -/
  faults : List ConnectionError

structure Program (Pc : Type*) where
  /-- is there a listener? -/
  listens : Pc → EventName → Bool
  /-- the listener of an item, and whether it settles the promise that is awaited -/
  onItem : Pc → InboxItem → Pc × Bool
  /-- the listener of an error, which settles the promise -/
  onError : Pc → ConnectionError → Pc
  /-- the function has thrown -/
  thrown : Failure → Pc

namespace Process

variable {J Pc : Type*} (gcm : Gcm) (decipher : Decipher) (wire : Wire J) (prog : Program Pc)
  (p : Process Pc)

/-- Go on in a microtask, at `pc`. -/
def settle (pc : Pc) : Process Pc := { p with pc := pc, queue := p.queue ++ [.resume] }

/-- Install the listeners of `pc`, one of them for handshakes or messages. -/
def wait (pc : Pc) : Process Pc := { p with pc := pc, queue := p.queue ++ [.flush] }

def throw (f : Failure) : Process Pc := p.settle (prog.thrown f)

def emit (item : InboxItem) : Process Pc :=
  let heard := match item with
    | .handshake _ => p.heard
    | .message env => p.heard ++ [env]
  match prog.onItem p.pc item with
  | (pc, true) => { p.settle pc with heard := heard }
  | (pc, false) => { p with pc := pc, heard := heard }

/-- `#deliver`. -/
def deliver (item : InboxItem) : Process Pc :=
  if prog.listens p.pc item.ev then p.emit prog item else { p with conn := p.conn.hold item }

/-- `#onMessage`, and what it throws. -/
def onMessage (frame : Frame) : Process Pc × Option ConnectionError :=
  match p.conn.receive decipher wire frame.1 frame.2 with
  | (conn, .error e) => ({ p with conn := conn }, some e)
  | (conn, .ok none) => ({ p with conn := conn }, none)
  | (conn, .ok (some item)) => ({ p with conn := conn }.deliver prog item, none)

/-- `#fail`.  Without a listener, emitting the error throws it, before the connection is closed. -/
def fail (e : ConnectionError) : Process Pc :=
  if p.conn.closed then p
  else if prog.listens p.pc .error then
    { p.settle (prog.onError p.pc e) with
      faults := p.faults ++ [e]
      conn := { p.conn with closed := true } }
  else { p with faults := p.faults ++ [e] }

/-- The callback of `transport.onMessage`. -/
def onFrame (frame : Frame) : Process Pc :=
  match p.onMessage decipher wire prog frame with
  | (p', none) => p'
  | (p', some e) => p'.fail prog e

/-- The loop of `upgrade` over the early frames. -/
def drain : List Bytes → Process Pc → Process Pc × Option ConnectionError
  | [], p => (p, none)
  | frame :: early, p =>
    match p.onMessage decipher wire prog (frame, true) with
    | (p', none) => drain early p'
    | (p', some e) => (p', some e)

/-- `upgrade`, and what it throws. -/
def upgrade (keys : TransportKeys) : Process Pc × Option ConnectionError :=
  match p.conn.upgrade keys with
  | (conn, .error e) => ({ p with conn := conn }, some e)
  | (conn, .ok early) => drain decipher wire prog early { p with conn := conn }

/-- The loop of `#flush`. -/
def flushItems : List InboxItem → Process Pc → Process Pc
  | [], p => p
  | item :: held, p => flushItems held (p.deliver prog item)

/-- `#flush`. -/
def flush : Process Pc :=
  flushItems prog p.conn.inbox { p with conn := { p.conn with inbox := [] } }

/-- `send`, and its frame. -/
def send (body : Body) : Process Pc × Except ConnectionError Bytes :=
  match p.conn.send gcm wire body with
  | (conn, .error e) => ({ p with conn := conn }, .error e)
  | (conn, .ok frame) =>
    ({ p with conn := conn, said := p.said ++ [p.conn.envelope body] }, .ok frame)

/-- `sendHandshake`, and go on as `next`. -/
def tell (msg : HandshakeMessage) (next : Process Pc) : Process Pc × List Frame :=
  match p.conn.sendHandshake wire msg with
  | .error e => (p.throw prog (.connection e), [])
  | .ok text => (next, [(text, false)])

/-- Run the microtask at the head of the queue; `resume` is the next segment of the function. -/
def runTask (resume : Process Pc → Process Pc × List Frame) : Process Pc × List Frame :=
  match p.queue with
  | [] => (p, [])
  | task :: queue =>
    let p₀ := { p with queue := queue }
    let result := match task with
      | .flush => (p₀.flush prog, [])
      | .resume => resume p₀
    -- the turn is over when the queue is empty
    ({ result.1 with draining := !result.1.queue.isEmpty }, result.2)

end Process

end ScreenSharing.Handshake
