import ScreenSharing.Relay.Wire

/-!
# A peer's link to the relay

`RelayPeerLink` is the transport of a peer: DATA frames both ways, and two signals of the relay.
HOST_GONE closes the transport.  HOST_CLAIMED calls the callback that `onHandoffReady` registered;
before there is one it is remembered, once.  READY and REJECT only settle the promise of `open`.
-/

namespace ScreenSharing.Net

open Relay

/-! ### The frames a peer sends -/

/-- `encodeDataP`. -/
def encodeDataP (isBinary : Bool) (payload : Bytes) : Bytes :=
  T.dataP :: (if isBinary then 1 else 0) :: payload

/-- **The relay reads what the peer wrote.** -/
theorem decode_encodeDataP (isBinary : Bool) (payload : Bytes) :
    decodeDataFromPeer (encodeDataP isBinary payload) = some ⟨isBinary, payload⟩ := by
  have hlong : ¬ ((encodeDataP isBinary payload).length < 2 ∨
      (encodeDataP isBinary payload).head? ≠ some T.dataP) := by
    simp [encodeDataP]
  unfold decodeDataFromPeer
  rw [if_neg hlong]
  cases isBinary <;> rfl

/-! ### The link -/

/-- The fields of the `RelayPeerLink` class. -/
structure PeerLink where
  closed : Bool
  /-- is there a callback? -/
  onHandoffReady : Bool
  handoffAlreadyClaimed : Bool
  deriving DecidableEq

inductive PeerCallback
  | message (isBinary : Bool) (payload : Bytes)
  | close (code : ℕ) (reason : String)
  | handoffReady

namespace PeerLink

def new : PeerLink := ⟨false, false, false⟩

variable (link : PeerLink)

/-- `#fail`. -/
def fail (code : ℕ) (reason : String) : PeerLink × List PeerCallback :=
  if link.closed then (link, []) else ({ link with closed := true }, [.close code reason])

/-- The message handler. -/
def onFrame : Frame → PeerLink × List PeerCallback
  | .dataToPeer isBinary payload | .dataToHost _ isBinary payload =>
    (link, [.message isBinary payload])
  | .hostGone => link.fail 1001 "host gone"
  | .hostClaimed =>
    if link.onHandoffReady then (link, [.handoffReady])
    else ({ link with handoffAlreadyClaimed := true }, [])
  | _ => (link, [])

/-- `onHandoffReady`: a claim that came before is reported at once. -/
def register : PeerLink × List PeerCallback :=
  if link.handoffAlreadyClaimed then
    ({ link with onHandoffReady := true, handoffAlreadyClaimed := false }, [.handoffReady])
  else ({ link with onHandoffReady := true }, [])

variable {link}

/-- A closed link stays closed. -/
theorem closed_onFrame (frame : Frame) (h : link.closed = true) :
    (link.onFrame frame).1.closed = true := by
  cases frame with
  | hostGone =>
    simp only [onFrame, fail, if_pos h]
    exact h
  | hostClaimed =>
    simp only [onFrame]
    split <;> exact h
  | _ => exact h

theorem closed_register : link.register.1.closed = link.closed := by
  unfold register
  split <;> rfl

end PeerLink

end ScreenSharing.Net
