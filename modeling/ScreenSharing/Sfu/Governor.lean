import Mathlib.Data.Rat.Floor
import ScreenSharing.Lib.InsertionMap
import ScreenSharing.Shared.Protocol

/-!
# The bandwidth and CPU governor

A control loop without I/O.  It keeps one quality level for each stream, takes in what viewers and
publishers report, and `evaluate` steps each stream down after one bad window and up after several
good ones.  Levels index `QUALITY_LADDER`, best first.

Loss, frame rate and CPU pressure are rationals here, and so are the factors of the ladder.
-/

namespace ScreenSharing.Sfu

open Lib

structure QualityLevel where
  label : String
  kbpsFactor : ℚ
  maxFps : ℕ
  scaleDownBy : ℚ

/-- `QUALITY_LADDER`, in descending quality. -/
def qualityLadder : List QualityLevel :=
  [⟨"1080p60", 1, 60, 1⟩, ⟨"1080p30", 1 / 2, 30, 1⟩, ⟨"720p30", 3 / 10, 30, 3 / 2⟩,
    ⟨"720p15", 1 / 5, 15, 3 / 2⟩, ⟨"480p15", 3 / 25, 15, 5 / 2⟩]

structure SubscriberSample where
  streamId : String
  subscriberPeerId : String
  fractionLost : ℚ
  rttMs : ℚ
  fps : ℚ

structure PublisherSample where
  streamId : String
  cpuPressure : ℚ
  fps : ℚ

structure GovernorDirective where
  ownerPeerId : String
  streamId : String
  maxKbps : ℤ
  maxFps : ℕ
  scaleDownBy : ℚ
  reason : DirectiveReason

namespace Governor

/-- What the governor knows about one stream. -/
structure StreamState where
  ownerPeerId : String
  level : ℕ
  paused : Bool
  healthyStreak : ℕ
  lastReason : DirectiveReason
  subs : InsertionMap String SubscriberSample
  pub : Option PublisherSample

end Governor

/-- The fields of the `Governor` class. -/
structure Governor where
  baseKbps : ℚ
  lossThreshold : ℚ
  recoveryWindows : ℕ
  streams : InsertionMap String Governor.StreamState

namespace Governor

/-- `new Governor({ baseKbps })`, with the default threshold and number of windows. -/
def new (baseKbps : ℚ) : Governor := ⟨baseKbps, 1 / 20, 4, .empty⟩

def register (streamId ownerPeerId : String) (G : Governor) : Governor :=
  if G.streams.has streamId then G
  else
    { G with
      streams := G.streams.set streamId ⟨ownerPeerId, 0, false, 0, .restored, .empty, none⟩ }

def forget (streamId : String) (G : Governor) : Governor :=
  { G with streams := G.streams.delete streamId }

/-- Change what is known about a stream, if it is registered. -/
def modify (streamId : String) (f : StreamState → StreamState) (G : Governor) : Governor :=
  match G.streams.get streamId with
  | none => G
  | some s => { G with streams := G.streams.set streamId (f s) }

def setPaused (streamId : String) (paused : Bool) (G : Governor) : Governor :=
  G.modify streamId fun s => { s with paused := paused }

def ingestSubscriber (sample : SubscriberSample) (G : Governor) : Governor :=
  G.modify sample.streamId fun s =>
    { s with subs := s.subs.set sample.subscriberPeerId sample }

def ingestPublisher (sample : PublisherSample) (G : Governor) : Governor :=
  G.modify sample.streamId fun s => { s with pub := some sample }

/-- `dropSubscriber`: every stream forgets the samples of one viewer. -/
def dropSubscriber (subscriberPeerId : String) (G : Governor) : Governor :=
  G.streams.keys.foldl
    (fun G streamId => G.modify streamId fun s => { s with subs := s.subs.delete subscriberPeerId })
    G

/-! ### Evaluation -/

/-- `Math.round`. -/
def round (x : ℚ) : ℤ := ⌊x + 1 / 2⌋

/-- `Math.max` of a nonempty list. -/
def maximum (xs : List ℚ) : ℚ := xs.foldl max (xs.headD 0)

/-- `QUALITY_LADDER[level]!`. -/
def levelAt (level : ℕ) : QualityLevel := qualityLadder.getD level ⟨"", 0, 0, 1⟩

/-- `#directive`. -/
def directive (G : Governor) (streamId : String) (s : StreamState) (reason : DirectiveReason) :
    GovernorDirective :=
  let level := levelAt s.level
  ⟨s.ownerPeerId, streamId, round (G.baseKbps * level.kbpsFactor), level.maxFps, level.scaleDownBy,
    reason⟩

/-- The body of the loop of `evaluate`, for a stream that has a window: its next level, the reason,
and the streak. -/
def nextLevel (G : Governor) (s : StreamState) : ℕ × DirectiveReason × ℕ :=
  let worstLoss := maximum (s.subs.values.map SubscriberSample.fractionLost)
  let cpu := (s.pub.map PublisherSample.cpuPressure).getD 0
  if worstLoss > G.lossThreshold ∨ cpu ≥ 1 then
    if s.level < qualityLadder.length - 1 then
      (s.level + 1, if cpu ≥ 1 then .cpu else .bandwidth, 0)
    else (s.level, s.lastReason, 0)
  else
    if s.healthyStreak + 1 ≥ G.recoveryWindows ∧ s.level > 0 then (s.level - 1, .restored, 0)
    else (s.level, s.lastReason, s.healthyStreak + 1)

/-- Is this evaluation a window of the stream? -/
def StreamState.hasWindow (s : StreamState) : Bool := !s.paused && s.subs.size != 0

/-- One turn of the loop of `evaluate`. -/
def evaluateStream (streamId : String) (s : StreamState) (G : Governor) :
    Governor × List GovernorDirective :=
  if !s.hasWindow then (G, [])
  else
    let (next, reason, streak) := G.nextLevel s
    if next = s.level then
      ({ G with streams := G.streams.set streamId { s with healthyStreak := streak } }, [])
    else
      let s' := { s with level := next, lastReason := reason, healthyStreak := streak }
      ({ G with streams := G.streams.set streamId s' }, [G.directive streamId s' reason])

def evaluateAll : List (String × StreamState) → Governor → Governor × List GovernorDirective
  | [], G => (G, [])
  | (streamId, s) :: rest, G =>
    let (G₁, out₁) := G.evaluateStream streamId s
    let (G₂, out₂) := G₁.evaluateAll rest
    (G₂, out₁ ++ out₂)

/-- `evaluate`. -/
def evaluate (G : Governor) : Governor × List GovernorDirective := G.evaluateAll G.streams.entries

/-- `resumeDirective`. -/
def resumeDirective (streamId : String) (G : Governor) : Option GovernorDirective :=
  (G.streams.get streamId).map fun s => G.directive streamId s .restored

end Governor

end ScreenSharing.Sfu
