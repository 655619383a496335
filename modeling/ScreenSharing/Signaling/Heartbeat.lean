import Mathlib.Data.Int.Notation
import Mathlib.Data.Nat.Notation

/-!
# Heartbeats

The liveness tracking of one connection.  The owner calls `tick` on an interval and forwards the
pongs; `maxMissed` ticks in a row with an unanswered ping declare the peer dead.  The nonce of a
ping is drawn at random, so it is an argument here.
-/

namespace ScreenSharing.Signaling

/-- The fields of the `Heartbeat` class. -/
structure Heartbeat where
  maxMissed : ℕ
  missed : ℕ
  outstanding : Option ℤ
  dead : Bool
  started : Bool
  deriving DecidableEq

/-- What a tick calls. -/
inductive Beat
  | idle
  | sendPing (nonce : ℤ)
  | onDead
  deriving DecidableEq

namespace Heartbeat

def new (maxMissed : ℕ) : Heartbeat := ⟨max 1 maxMissed, 0, none, false, false⟩

def tick (nonce : ℤ) (H : Heartbeat) : Heartbeat × Beat :=
  if H.dead || !H.started then (H, .idle)
  else
    match H.outstanding with
    | none => ({ H with outstanding := some nonce }, .sendPing nonce)
    | some _ =>
      let H' := { H with missed := H.missed + 1 }
      if H'.missed ≥ H'.maxMissed then ({ H' with dead := true }, .onDead)
      else ({ H' with outstanding := some nonce }, .sendPing nonce)

/-- `start` ticks at once. -/
def start (nonce : ℤ) (H : Heartbeat) : Heartbeat × Beat := { H with started := true }.tick nonce

def onPong (nonce : ℤ) (H : Heartbeat) : Heartbeat :=
  if H.dead then H
  else if some nonce = H.outstanding then { H with outstanding := none, missed := 0 }
  else H

def stop (H : Heartbeat) : Heartbeat := { H with started := false }

end Heartbeat

end ScreenSharing.Signaling
