import ScreenSharing.Lib.InsertionMap
import ScreenSharing.Relay.Wire

/-!
# The host's link to the relay

`RelayHostLink` turns the frames of one WebSocket into one virtual transport for each remote peer.
The transports are numbered in the order in which the link makes them; `made` lists their connIds.
A PEER_UP that arrives before `onConnection` is called is buffered, in that order
(`pendingPeers_onFrame`).
-/

namespace ScreenSharing.Net

open Lib Relay

/-- What became of the HELLO. -/
inductive Opening
  | waiting
  | ready (hostToken : String)
  | rejected (reason : RejectReason)
  deriving DecidableEq

def Opening.isReady : Opening → Bool
  | .ready _ => true
  | _ => false

/-- The fields of the `RelayHostLink` class. -/
structure HostLink where
  opening : Opening
  /-- the connIds of the virtual transports made so far -/
  made : List ℕ
  /-- `#peers`: the number of the transport of a connId -/
  peers : InsertionMap ℕ ℕ
  pendingPeers : List ℕ
  /-- has `onConnection` been called? -/
  listening : Bool

/-- A callback of the link, or of one of its transports. -/
inductive Callback
  | connection (transport : ℕ)
  | message (transport : ℕ) (isBinary : Bool) (payload : Relay.Bytes)
  | dropped (transport : ℕ)

namespace HostLink

def new : HostLink := ⟨.waiting, [], .empty, [], false⟩

variable (link : HostLink)

/-- Settle the promise of `open`, if it still waits. -/
def answer (opening : Opening) : HostLink :=
  match link.opening with
  | .waiting => { link with opening := opening }
  | _ => link

/-- The PEER_UP branch of the message handler. -/
def peerUp (connId : ℕ) : HostLink × List Callback :=
  let vt := link.made.length
  let link' := { link with made := link.made ++ [connId], peers := link.peers.set connId vt }
  if link.listening then (link', [.connection vt])
  else ({ link' with pendingPeers := link.pendingPeers ++ [vt] }, [])

/-- The message handler. -/
def onFrame : Frame → HostLink × List Callback
  | .ready _ hostToken => (link.answer (.ready (hostToken.getD "")), [])
  | .reject reason => (link.answer (.rejected reason), [])
  | .peerUp connId => link.peerUp connId
  | .peerDown connId =>
    ({ link with peers := link.peers.delete connId },
      match link.peers.get connId with
      | none => []
      | some vt => [.dropped vt])
  | .dataToHost connId isBinary payload =>
    (link,
      match link.peers.get connId with
      | none => []
      | some vt => [.message vt isBinary payload])
  | _ => (link, [])

/-- `onConnection`: the buffered transports are handed on at once. -/
def onConnection : HostLink × List Callback :=
  ({ link with listening := true, pendingPeers := [] }, link.pendingPeers.map .connection)

/-- `_kick`. -/
def kick (vt : ℕ) : HostLink :=
  match link.made[vt]? with
  | none => link
  | some connId => { link with peers := link.peers.delete connId }

/-! ### What is made -/

/-- The connIds that a list of frames announces. -/
def announced (frames : List Frame) : List ℕ :=
  frames.filterMap fun frame =>
    match frame with
    | .peerUp connId => some connId
    | _ => none

variable {link}

theorem made_answer (opening : Opening) : (link.answer opening).made = link.made := by
  unfold answer
  split <;> rfl

theorem peers_answer (opening : Opening) : (link.answer opening).peers = link.peers := by
  unfold answer
  split <;> rfl

theorem pendingPeers_answer (opening : Opening) :
    (link.answer opening).pendingPeers = link.pendingPeers := by
  unfold answer
  split <;> rfl

/-- One transport is made for each PEER_UP. -/
theorem made_onFrame (link : HostLink) (frame : Frame) :
    (link.onFrame frame).1.made = link.made ++ announced [frame] := by
  cases frame with
  | ready connId hostToken => simp [onFrame, made_answer, announced]
  | reject reason => simp [onFrame, made_answer, announced]
  | peerUp connId =>
    simp only [onFrame, peerUp]
    split <;> rfl
  | _ => simp [onFrame, announced]

/-- **Until the link listens, every transport is buffered**, in the order in which they are made. -/
theorem pendingPeers_onFrame (hlistening : link.listening = false)
    (h : link.pendingPeers = List.range link.made.length) (frame : Frame) :
    (link.onFrame frame).1.pendingPeers = List.range (link.onFrame frame).1.made.length := by
  cases frame with
  | ready connId hostToken => simpa only [onFrame, made_answer, pendingPeers_answer] using h
  | reject reason => simpa only [onFrame, made_answer, pendingPeers_answer] using h
  | peerUp connId =>
    have hframe : link.onFrame (.peerUp connId) =
        ({ link with
            made := link.made ++ [connId], peers := link.peers.set connId link.made.length
            pendingPeers := link.pendingPeers ++ [link.made.length] }, []) := by
      simp [onFrame, peerUp, hlistening]
    rw [hframe, List.length_append, List.length_singleton, List.range_succ, ← h]
  | _ => exact h

theorem made_kick (link : HostLink) (vt : ℕ) : (link.kick vt).made = link.made := by
  unfold kick
  split <;> rfl

end HostLink

end ScreenSharing.Net
