import ScreenSharing.Sfu.Listeners

/-!
# The control law of the governor

The governor keeps a streak for each stream, and nothing of its history.  Here the history is recorded
beside it: the windows of a stream since it was registered, which of them were bad, and at which its level
moved.  `Law` says what an event may do to the levels in terms of that history, and `control_law` that
every event does so, in every run.

What the governor does to one stream can be told from the entry of that stream alone (`entryAfter`), so the
streams do not depend on each other.
-/

namespace ScreenSharing.Sfu

open Lib

namespace Governor

/-- `new Governor(opts)`. -/
def ofOptions (baseKbps lossThreshold : ℚ) (recoveryWindows : ℕ) : Governor :=
  ⟨baseKbps, lossThreshold, recoveryWindows, .empty⟩

inductive Event
  | register (streamId ownerPeerId : String)
  | forget (streamId : String)
  | setPaused (streamId : String) (paused : Bool)
  | ingestSubscriber (sample : SubscriberSample)
  | ingestPublisher (sample : PublisherSample)
  | dropSubscriber (subscriberPeerId : String)
  | evaluate

def react (G : Governor) : Event → Governor × List GovernorDirective
  | .register s owner => (G.register s owner, [])
  | .forget s => (G.forget s, [])
  | .setPaused s paused => (G.setPaused s paused, [])
  | .ingestSubscriber sample => (G.ingestSubscriber sample, [])
  | .ingestPublisher sample => (G.ingestPublisher sample, [])
  | .dropSubscriber p => (G.dropSubscriber p, [])
  | .evaluate => G.evaluate

/-- The governor as a machine. -/
def machine : Machine Governor Event GovernorDirective := ⟨fun _ _ => True, react⟩

variable {G G' : Governor} {s : String} {st : StreamState}

/-! ### One stream -/

/-- The entry of a stream after an evaluation. -/
def evaluated (G : Governor) (st : StreamState) : StreamState :=
  if st.hasWindow then
    let (next, reason, streak) := G.nextLevel st
    if next = st.level then { st with healthyStreak := streak }
    else { st with level := next, lastReason := reason, healthyStreak := streak }
  else st

/-- What the evaluation of a stream returns. -/
def directives (G : Governor) (s : String) (st : StreamState) : List GovernorDirective :=
  if (G.evaluated st).level = st.level then []
  else [G.directive s (G.evaluated st) (G.evaluated st).lastReason]

/-- The entry of a stream after an event. -/
def entryAfter (G : Governor) (s : String) (st : Option StreamState) : Event → Option StreamState
  | .register t owner => if s = t then some (st.getD (fresh owner)) else st
  | .forget t => if s = t then none else st
  | .setPaused t paused => if s = t then st.map fun st => { st with paused := paused } else st
  | .ingestSubscriber sample =>
    if s = sample.streamId then
      st.map fun st => { st with subs := st.subs.set sample.subscriberPeerId sample }
    else st
  | .ingestPublisher sample =>
    if s = sample.streamId then st.map fun st => { st with pub := some sample } else st
  | .dropSubscriber p => st.map fun st => { st with subs := st.subs.delete p }
  | .evaluate => st.map G.evaluated

/-- Is the event about this stream? -/
def Event.concerns (s : String) : Event → Bool
  | .register t _ | .forget t | .setPaused t _ => s = t
  | .ingestSubscriber sample => s = sample.streamId
  | .ingestPublisher sample => s = sample.streamId
  | .dropSubscriber _ | .evaluate => true

/-- The two governors have the same options. -/
structure SameOptions (G G' : Governor) : Prop where
  base : G'.baseKbps = G.baseKbps
  threshold : G'.lossThreshold = G.lossThreshold
  recovery : G'.recoveryWindows = G.recoveryWindows

theorem SameOptions.refl (G : Governor) : SameOptions G G := ⟨rfl, rfl, rfl⟩

theorem SameOptions.symm (h : SameOptions G G') : SameOptions G' G :=
  ⟨h.base.symm, h.threshold.symm, h.recovery.symm⟩

theorem SameOptions.trans {G₁ G₂ G₃ : Governor} (h : SameOptions G₁ G₂) (h' : SameOptions G₂ G₃) :
    SameOptions G₁ G₃ :=
  ⟨h'.base.trans h.base, h'.threshold.trans h.threshold, h'.recovery.trans h.recovery⟩

theorem SameOptions.nextLevel (h : SameOptions G G') (st : StreamState) :
    G'.nextLevel st = G.nextLevel st := by
  unfold Governor.nextLevel
  rw [h.threshold, h.recovery]

theorem SameOptions.evaluated (h : SameOptions G G') (st : StreamState) :
    G'.evaluated st = G.evaluated st := by
  unfold Governor.evaluated
  rw [h.nextLevel]

theorem SameOptions.directives (h : SameOptions G G') (s : String) (st : StreamState) :
    G'.directives s st = G.directives s st := by
  unfold Governor.directives Governor.directive
  rw [h.evaluated, h.base]

theorem SameOptions.entryAfter (h : SameOptions G G') (s : String) (st : Option StreamState)
    (e : Event) : G'.entryAfter s st e = G.entryAfter s st e := by
  cases e with
  | evaluate => exact congrArg (st.map ·) (funext h.evaluated)
  | _ => rfl

/-! ### An evaluation -/

theorem evaluateStream_eq (G : Governor) (s : String) (st : StreamState) :
    G.evaluateStream s st =
      ({ G with streams := if st.hasWindow then G.streams.set s (G.evaluated st) else G.streams },
        G.directives s st) := by
  unfold evaluateStream directives evaluated
  by_cases hwindow : st.hasWindow = true
  · simp only [hwindow]
    by_cases hsame : (G.nextLevel st).1 = st.level
    · simp [hsame]
    · simp [hsame]
  · simp [hwindow]

/-- The loop, over entries of the table with distinct keys. -/
theorem evaluateAll_eq (es : List (String × StreamState)) : ∀ G : Governor,
    (es.map Prod.fst).Nodup → (∀ s st, (s, st) ∈ es → G.streams.get s = some st) →
    SameOptions G (G.evaluateAll es).1 ∧
    (∀ s, (G.evaluateAll es).1.streams.get s =
      if s ∈ es.map Prod.fst then (G.streams.get s).map G.evaluated else G.streams.get s) ∧
    (G.evaluateAll es).2 = es.flatMap fun entry => G.directives entry.1 entry.2 := by
  induction es with
  | nil => exact fun G _ _ => ⟨.refl G, fun _ => rfl, rfl⟩
  | cons entry es ih =>
    intro G hnodup hmem
    obtain ⟨s, st⟩ := entry
    obtain ⟨hhead, hnodup⟩ := List.nodup_cons.mp hnodup
    have hst : G.streams.get s = some st := hmem s st List.mem_cons_self
    have hone := G.evaluateStream_eq s st
    have hsame : SameOptions G (G.evaluateStream s st).1 := by
      rw [hone]
      exact ⟨rfl, rfl, rfl⟩
    have hget : ∀ t, (G.evaluateStream s st).1.streams.get t =
        if t = s then some (G.evaluated st) else G.streams.get t := by
      intro t
      rw [hone]
      dsimp only
      split
      · exact InsertionMap.get_set _ _ _ _
      · next hwindow =>
        -- nothing is evaluated where there is no window
        have hstill : G.evaluated st = st := if_neg hwindow
        split
        · next heq => rw [heq, hst, hstill]
        · rfl
    obtain ⟨hsame', hstreams, hout⟩ := ih (G.evaluateStream s st).1 hnodup fun t u hin => by
      have hne : t ≠ s := fun heq => hhead (List.mem_map.mpr ⟨_, hin, heq⟩)
      rw [hget, if_neg hne]
      exact hmem t u (List.mem_cons_of_mem _ hin)
    have hall : G.evaluateAll ((s, st) :: es) =
        (((G.evaluateStream s st).1.evaluateAll es).1,
          (G.evaluateStream s st).2 ++ ((G.evaluateStream s st).1.evaluateAll es).2) := rfl
    rw [hall]
    refine ⟨hsame.trans hsame', fun t => ?_, ?_⟩
    · dsimp only
      rw [hstreams, hget, List.map_cons]
      by_cases ht : t = s
      · subst ht
        rw [if_neg hhead, if_pos rfl, if_pos List.mem_cons_self, hst]
        rfl
      · rw [if_neg ht]
        simp only [List.mem_cons, ht, false_or, funext hsame.evaluated]
    · have hrest : (es.flatMap fun entry =>
          (G.evaluateStream s st).1.directives entry.1 entry.2) =
            es.flatMap fun entry => G.directives entry.1 entry.2 :=
        List.flatMap_congr fun entry _ => hsame.directives _ _
      dsimp only
      rw [hout, hrest, List.flatMap_cons, hone]

/-- **An evaluation**, stream by stream. -/
theorem evaluate_eq (G : Governor) : SameOptions G G.evaluate.1 ∧
    (∀ s, G.evaluate.1.streams.get s = (G.streams.get s).map G.evaluated) ∧
    G.evaluate.2 = G.streams.entries.flatMap fun entry => G.directives entry.1 entry.2 := by
  obtain ⟨hsame, hstreams, hout⟩ := evaluateAll_eq G.streams.entries G G.streams.nodup
    fun _ _ hin => (InsertionMap.mem_entries _ _ _).mp hin
  refine ⟨hsame, fun s => ?_, hout⟩
  rw [show G.evaluate.1 = (G.evaluateAll G.streams.entries).1 from rfl, hstreams]
  split
  · rfl
  · next hmem =>
    cases hget : G.streams.get s with
    | none => rfl
    | some st => exact absurd ((InsertionMap.mem_keys _ _).mpr ⟨st, hget⟩) hmem

/-! ### One event, and a run -/

theorem sameOptions_modify (G : Governor) (s : String) (f : StreamState → StreamState) :
    SameOptions G (G.modify s f) := by
  unfold modify
  split <;> exact ⟨rfl, rfl, rfl⟩

theorem sameOptions_react (G : Governor) (e : Event) : SameOptions G (react G e).1 := by
  cases e with
  | register s owner =>
    unfold react register
    dsimp only
    split <;> exact ⟨rfl, rfl, rfl⟩
  | forget s => exact ⟨rfl, rfl, rfl⟩
  | dropSubscriber p =>
    have hkeys : ∀ (keys : List String) (G : Governor), SameOptions G (keys.foldl (fun G s =>
        G.modify s fun st => { st with subs := st.subs.delete p }) G) := by
      intro keys
      induction keys with
      | nil => exact fun G => .refl G
      | cons s keys ih => exact fun G => (sameOptions_modify G s _).trans (ih _)
    exact hkeys _ G
  | evaluate => exact G.evaluate_eq.1
  | _ => exact sameOptions_modify ..

theorem SameOptions.react (h : SameOptions G G') (e : Event) :
    SameOptions (react G e).1 (react G' e).1 := by
  have h₁ := sameOptions_react G e
  have h₂ := sameOptions_react G' e
  exact ⟨by rw [h₂.base, h.base, h₁.base], by rw [h₂.threshold, h.threshold, h₁.threshold],
    by rw [h₂.recovery, h.recovery, h₁.recovery]⟩

/-- **One event**, seen from a single stream. -/
theorem get_react (G : Governor) (s : String) (e : Event) :
    (react G e).1.streams.get s = G.entryAfter s (G.streams.get s) e := by
  have hmodify : ∀ t f, (G.modify t f).streams.get s =
      if s = t then (G.streams.get s).map f else G.streams.get s := fun t f => by
    rw [get_modify]
    split
    · next heq => rw [heq]
    · rfl
  cases e with
  | register t owner =>
    refine (get_register G t s owner).trans ?_
    unfold entryAfter
    dsimp only
    split
    · next heq => rw [heq]
    · rfl
  | forget t => exact get_forget G t s
  | setPaused t paused => exact hmodify t _
  | ingestSubscriber sample => exact hmodify sample.streamId _
  | ingestPublisher sample => exact hmodify sample.streamId _
  | dropSubscriber p => exact get_dropSubscriber G p s
  | evaluate => exact G.evaluate_eq.2.1 s

theorem entryAfter_of_not_concerns {e : Event} (h : e.concerns s = false) (st : Option StreamState) :
    G.entryAfter s st e = st := by
  cases e with
  | dropSubscriber => cases h
  | evaluate => cases h
  | _ => exact if_neg (of_decide_eq_false h)

/-- **The streams are independent**: an entry is what the events that concern it have made of it. -/
theorem get_exec (es : List Event) : ∀ {G G' : Governor}, SameOptions G G' →
    G'.streams.get s = G.streams.get s →
    (machine.exec G' (es.filter (Event.concerns s))).streams.get s = (machine.exec G es).streams.get s := by
  induction es with
  | nil => exact fun _ hget => hget
  | cons e es ih =>
    intro G G' hsame hget
    by_cases hconcerns : e.concerns s = true
    · rw [List.filter_cons_of_pos hconcerns]
      refine ih (hsame.react e) ?_
      show (react G' e).1.streams.get s = (react G e).1.streams.get s
      rw [get_react, get_react, hget, hsame.entryAfter]
    · rw [List.filter_cons_of_neg hconcerns]
      refine ih ((sameOptions_react G e).symm.trans hsame) ?_
      show G'.streams.get s = (react G e).1.streams.get s
      rw [get_react, entryAfter_of_not_concerns (by simpa using hconcerns), hget]

/-! ### The history of a stream -/

/-- A window of a stream. -/
structure Window where
  bad : Bool
  /-- did the level change? -/
  moved : Bool
  deriving DecidableEq

/-- Somebody loses too much, or the publisher has no time left. -/
def Bad (G : Governor) (st : StreamState) : Prop :=
  (∃ x ∈ st.subs.values, G.lossThreshold < x.fractionLost) ∨ ∃ x ∈ st.pub.toList, 1 ≤ x.cpuPressure

instance (G : Governor) (st : StreamState) : Decidable (G.Bad st) :=
  inferInstanceAs (Decidable (_ ∨ _))

/-- How many good windows there were since the last one that was bad or moved the level; the newest
window comes first. -/
def goodRun (history : List Window) : ℕ := (history.takeWhile fun w => !w.bad && !w.moved).length

/-- The level behind a window. -/
def lawful (recoveryWindows : ℕ) (history : List Window) (bad : Bool) (level : ℕ) : ℕ :=
  if bad then if level + 1 < qualityLadder.length then level + 1 else level
  else if goodRun history + 1 = recoveryWindows ∧ 0 < level then level - 1 else level

/-- A governor, and the windows of its streams since they were registered. -/
structure Recorded where
  governor : Governor
  history : String → List Window

def Recorded.new (G : Governor) : Recorded := ⟨G, fun _ => []⟩

def recordedAfter (G : Governor) (history : String → List Window) (e : Event) (s : String) :
    List Window :=
  match e with
  | .evaluate =>
    match G.streams.get s with
    | none => history s
    | some st =>
      if st.hasWindow then
        ⟨decide (G.Bad st), decide ((G.evaluate.1.streams.get s).map StreamState.level ≠ some st.level)⟩ ::
          history s
      else history s
  | .forget t => if s = t then [] else history s
  | _ => history s

/-- The governor as a machine, with the windows recorded. -/
def recorded : Machine Recorded Event GovernorDirective where
  enabled := fun _ _ => True
  step W e := (⟨(react W.governor e).1, recordedAfter W.governor W.history e⟩, (react W.governor e).2)

/-- **The control law**, at one event. -/
structure Law (recoveryWindows : ℕ) (W : Recorded) (e : Event) : Prop where
  ladder : ∀ s st, (recorded.next W e).governor.streams.get s = some st →
    st.level < qualityLadder.length
  window : ∀ s st, W.governor.streams.get s = some st → e = .evaluate → st.hasWindow = true →
    ∃ st', (recorded.next W e).governor.streams.get s = some st' ∧
      st'.level = lawful recoveryWindows (W.history s) (W.governor.Bad st) st.level
  otherwise : ∀ s st st', W.governor.streams.get s = some st →
    (recorded.next W e).governor.streams.get s = some st' → e ≠ .evaluate ∨ st.hasWindow = false →
    st'.level = st.level
  /-- there is a directive exactly for the streams whose level changed, and one for each -/
  told : ∀ s, s ∈ (recorded.out W e).map GovernorDirective.streamId ↔
    ∃ st st', W.governor.streams.get s = some st ∧
      (recorded.next W e).governor.streams.get s = some st' ∧ st'.level ≠ st.level
  once : ((recorded.out W e).map GovernorDirective.streamId).Nodup
  carries : ∀ d ∈ recorded.out W e, ∃ st',
    (recorded.next W e).governor.streams.get d.streamId = some st' ∧
      d.maxFps = (levelAt st'.level).maxFps ∧ d.scaleDownBy = (levelAt st'.level).scaleDownBy

/-! ### One window -/

theorem lt_maximum_iff {xs : List ℚ} (hne : xs ≠ []) (q : ℚ) :
    q < maximum xs ↔ ∃ x ∈ xs, q < x := by
  have hfold : ∀ (xs : List ℚ) (a : ℚ), q < xs.foldl max a ↔ q < a ∨ ∃ x ∈ xs, q < x := by
    intro xs
    induction xs with
    | nil => simp
    | cons x xs ih =>
      intro a
      rw [List.foldl_cons, ih, lt_max_iff, or_assoc]
      simp
  unfold maximum
  rw [hfold]
  cases xs with
  | nil => exact absurd rfl hne
  | cons x xs => simp

/-- What the loop tests is whether the window is bad. -/
theorem bad_iff (hwindow : st.hasWindow = true) : G.Bad st ↔
    maximum (st.subs.values.map SubscriberSample.fractionLost) > G.lossThreshold ∨
      (st.pub.map PublisherSample.cpuPressure).getD 0 ≥ 1 := by
  have hne : st.subs.values.map SubscriberSample.fractionLost ≠ [] := by
    intro hnil
    have hvalues : st.subs.entries = [] := by
      simpa [InsertionMap.values] using hnil
    simp [StreamState.hasWindow, InsertionMap.size, hvalues] at hwindow
  unfold Bad
  rw [gt_iff_lt, lt_maximum_iff hne]
  refine or_congr (by simp) ?_
  cases st.pub with
  | none => simp
  | some x => simp

/-- The three ways that a window goes. -/
theorem nextLevel_cases (hwindow : st.hasWindow = true) :
    (G.Bad st ∧ (G.nextLevel st).1 =
        (if st.level + 1 < qualityLadder.length then st.level + 1 else st.level) ∧
      (G.nextLevel st).2.2 = 0) ∨
    (¬ G.Bad st ∧ (G.recoveryWindows ≤ st.healthyStreak + 1 ∧ 0 < st.level) ∧
      (G.nextLevel st).1 = st.level - 1 ∧ (G.nextLevel st).2.2 = 0) ∨
    (¬ G.Bad st ∧ ¬ (G.recoveryWindows ≤ st.healthyStreak + 1 ∧ 0 < st.level) ∧
      (G.nextLevel st).1 = st.level ∧ (G.nextLevel st).2.2 = st.healthyStreak + 1) := by
  unfold nextLevel
  dsimp only
  by_cases hbad : G.Bad st
  · rw [if_pos ((bad_iff hwindow).mp hbad)]
    refine .inl ⟨hbad, ?_⟩
    by_cases hfloor : st.level + 1 < qualityLadder.length
    · rw [if_pos (by omega), if_pos hfloor]
      exact ⟨rfl, rfl⟩
    · rw [if_neg (by omega), if_neg hfloor]
      exact ⟨rfl, rfl⟩
  · rw [if_neg fun h => hbad ((bad_iff hwindow).mpr h)]
    refine .inr ?_
    by_cases hup : G.recoveryWindows ≤ st.healthyStreak + 1 ∧ 0 < st.level
    · rw [if_pos hup]
      exact .inl ⟨hbad, hup, rfl, rfl⟩
    · rw [if_neg hup]
      exact .inr ⟨hbad, hup, rfl, rfl⟩

theorem evaluated_of_window (hwindow : st.hasWindow = true) :
    (G.evaluated st).level = (G.nextLevel st).1 ∧
      (G.evaluated st).healthyStreak = (G.nextLevel st).2.2 := by
  unfold evaluated
  rw [if_pos hwindow]
  dsimp only
  split
  · next hsame => exact ⟨hsame.symm, rfl⟩
  · exact ⟨rfl, rfl⟩

/-- The streak of a stream is the run of good windows at the end of its history, and below the top it is
too short to move up. -/
structure Fits (recoveryWindows : ℕ) (st : StreamState) (history : List Window) : Prop where
  ladder : st.level < qualityLadder.length
  streak : st.healthyStreak = goodRun history
  early : 0 < st.level → st.healthyStreak < recoveryWindows

variable {r : ℕ} {history : List Window}

theorem Fits.congr (h : Fits r st history) {st' : StreamState} (hlevel : st'.level = st.level)
    (hstreak : st'.healthyStreak = st.healthyStreak) : Fits r st' history :=
  ⟨hlevel ▸ h.ladder, hstreak.trans h.streak, by rw [hlevel, hstreak]; exact h.early⟩

theorem fits_fresh (r : ℕ) (owner : String) : Fits r (fresh owner) [] :=
  ⟨Nat.zero_lt_succ _, rfl, fun h => absurd h (Nat.lt_irrefl 0)⟩

theorem goodRun_bad (moved : Bool) (history : List Window) : goodRun (⟨true, moved⟩ :: history) = 0 := rfl

theorem goodRun_moved (bad : Bool) (history : List Window) : goodRun (⟨bad, true⟩ :: history) = 0 := by
  cases bad <;> rfl

theorem goodRun_still (history : List Window) :
    goodRun (⟨false, false⟩ :: history) = goodRun history + 1 := rfl

/-- **A window** does what the law says, and the streak still tells the history. -/
theorem Fits.window (h : Fits r st history) (hr : 1 ≤ r) (hrecovery : G.recoveryWindows = r)
    (hwindow : st.hasWindow = true) :
    (G.evaluated st).level = lawful r history (G.Bad st) st.level ∧
      Fits r (G.evaluated st)
        (⟨decide (G.Bad st), decide ((G.evaluated st).level ≠ st.level)⟩ :: history) := by
  obtain ⟨hlevel, hstreak⟩ := evaluated_of_window (G := G) hwindow
  have hladder := h.ladder
  have hcount := h.streak
  have hearly := h.early
  unfold lawful
  rcases nextLevel_cases (G := G) hwindow with ⟨hbad, hnext, hzero⟩ | ⟨hgood, hup, hnext, hzero⟩ |
    ⟨hgood, hup, hnext, hsucc⟩
  · rw [hnext] at hlevel
    rw [hzero] at hstreak
    refine ⟨by simp [hbad, hlevel], ?_, ?_, fun _ => ?_⟩
    · rw [hlevel]
      split <;> omega
    · rw [decide_eq_true hbad, goodRun_bad]
      exact hstreak
    · omega
  · rw [hnext] at hlevel
    rw [hzero] at hstreak
    rw [hrecovery] at hup
    refine ⟨?_, ?_, ?_, fun _ => ?_⟩
    · have hexact : goodRun history + 1 = r := by
        have hlt := hearly hup.2
        omega
      simp [hgood, hlevel, hexact, hup.2]
    · omega
    · have hmoved : (G.evaluated st).level ≠ st.level := by omega
      rw [decide_eq_true hmoved, goodRun_moved]
      exact hstreak
    · omega
  · rw [hnext] at hlevel
    rw [hsucc] at hstreak
    rw [hrecovery] at hup
    refine ⟨?_, ?_, ?_, fun hpos => ?_⟩
    · have hnot : ¬ (goodRun history + 1 = r ∧ 0 < st.level) := fun ⟨hexact, hpos⟩ =>
        hup ⟨by omega, hpos⟩
      simp [hgood, hlevel, hnot]
    · omega
    · rw [decide_eq_false hgood, hlevel, decide_eq_false (fun hne => hne rfl), goodRun_still, hstreak,
        hcount]
    · rw [hlevel] at hpos
      have hlt : ¬ r ≤ st.healthyStreak + 1 := fun hle => hup ⟨hle, hpos⟩
      omega

/-! ### One event -/

/-- What holds of the record in every state. -/
structure Kept (r : ℕ) (W : Recorded) : Prop where
  recovery : W.governor.recoveryWindows = r
  fits : ∀ s st, W.governor.streams.get s = some st → Fits r st (W.history s)
  absent : ∀ s, W.governor.streams.get s = none → W.history s = []

theorem kept_new (baseKbps lossThreshold : ℚ) (r : ℕ) :
    Kept r (.new (ofOptions baseKbps lossThreshold r)) :=
  ⟨rfl, fun _ _ h => (by cases h), fun _ _ => rfl⟩

/-- Other events than an evaluation move no level. -/
theorem entryAfter_some {e : Event} {o : Option StreamState} {st' : StreamState} (he : e ≠ .evaluate)
    (h : G.entryAfter s o e = some st') :
    (∃ st, o = some st ∧ st'.level = st.level ∧ st'.healthyStreak = st.healthyStreak) ∨
      (o = none ∧ ∃ owner, st' = fresh owner) := by
  have hmap : ∀ {f : StreamState → StreamState}, o.map f = some st' →
      (∀ st, (f st).level = st.level) → (∀ st, (f st).healthyStreak = st.healthyStreak) →
      ∃ st, o = some st ∧ st'.level = st.level ∧ st'.healthyStreak = st.healthyStreak := by
    intro f hf hlevel hstreak
    obtain ⟨st, rfl, rfl⟩ := Option.map_eq_some_iff.mp hf
    exact ⟨st, rfl, hlevel st, hstreak st⟩
  have hsame : o = some st' →
      ∃ st, o = some st ∧ st'.level = st.level ∧ st'.healthyStreak = st.healthyStreak :=
    fun ho => ⟨st', ho, rfl, rfl⟩
  unfold entryAfter at h
  cases e with
  | evaluate => exact absurd rfl he
  | register t owner =>
    dsimp only at h
    split at h
    · cases o with
      | none =>
        cases h
        exact .inr ⟨rfl, owner, rfl⟩
      | some st => exact .inl (hsame h)
    · exact .inl (hsame h)
  | forget t =>
    dsimp only at h
    split at h
    · cases h
    · exact .inl (hsame h)
  | dropSubscriber p =>
    dsimp only at h
    exact .inl (hmap h (fun _ => rfl) fun _ => rfl)
  | _ =>
    dsimp only at h
    split at h
    · exact .inl (hmap h (fun _ => rfl) fun _ => rfl)
    · exact .inl (hsame h)

theorem get_next (W : Recorded) (s : String) (e : Event) :
    (recorded.next W e).governor.streams.get s = W.governor.entryAfter s (W.governor.streams.get s) e :=
  get_react ..

/-- What an evaluation records. -/
theorem recordedAfter_evaluate {history : String → List Window} (hst : G.streams.get s = some st) :
    recordedAfter G history .evaluate s =
      if st.hasWindow then
        ⟨decide (G.Bad st), decide ((G.evaluated st).level ≠ st.level)⟩ :: history s
      else history s := by
  unfold recordedAfter
  dsimp only
  rw [hst]
  dsimp only
  rw [G.evaluate_eq.2.1, hst]
  simp

variable {W : Recorded}

/-- The entry of a stream, and its history, after an evaluation. -/
theorem Kept.evaluated (h : Kept r W) (hr : 1 ≤ r) (hst : W.governor.streams.get s = some st) :
    Fits r (W.governor.evaluated st) (recordedAfter W.governor W.history .evaluate s) := by
  rw [recordedAfter_evaluate hst]
  by_cases hwindow : st.hasWindow = true
  · rw [if_pos hwindow]
    exact ((h.fits s st hst).window hr h.recovery hwindow).2
  · have hstill : W.governor.evaluated st = st := if_neg hwindow
    rw [if_neg hwindow, hstill]
    exact h.fits s st hst

theorem kept_next (h : Kept r W) (hr : 1 ≤ r) (e : Event) : Kept r (recorded.next W e) := by
  refine ⟨(sameOptions_react W.governor e).recovery.trans h.recovery, fun s st' hst' => ?_,
    fun s hnone => ?_⟩
  · rw [get_next] at hst'
    by_cases he : e = .evaluate
    · subst he
      obtain ⟨st, hst, rfl⟩ := Option.map_eq_some_iff.mp hst'
      exact h.evaluated hr hst
    · have hhistory : recordedAfter W.governor W.history e s = W.history s := by
        cases e with
        | evaluate => exact absurd rfl he
        | forget t =>
          refine if_neg fun heq => ?_
          simp [entryAfter, heq] at hst'
        | _ => rfl
      show Fits r st' (recordedAfter W.governor W.history e s)
      rw [hhistory]
      rcases entryAfter_some he hst' with ⟨st, hst, hlevel, hstreak⟩ | ⟨hnone, owner, rfl⟩
      · exact (h.fits s st hst).congr hlevel hstreak
      · rw [h.absent s hnone]
        exact fits_fresh r owner
  · rw [get_next] at hnone
    show recordedAfter W.governor W.history e s = []
    have habsent : W.governor.streams.get s = none → W.history s = [] := h.absent s
    cases e with
    | evaluate =>
      have hget : W.governor.streams.get s = none := Option.map_eq_none_iff.mp hnone
      unfold recordedAfter
      dsimp only
      rw [hget]
      exact habsent hget
    | forget t =>
      by_cases heq : s = t
      · exact if_pos heq
      · rw [entryAfter, if_neg heq] at hnone
        exact (if_neg heq).trans (habsent hnone)
    | register t owner =>
      refine habsent ?_
      rw [entryAfter] at hnone
      split at hnone
      · cases hnone
      · exact hnone
    | dropSubscriber p => exact habsent (Option.map_eq_none_iff.mp hnone)
    | _ =>
      refine habsent ?_
      rw [entryAfter] at hnone
      split at hnone
      · exact Option.map_eq_none_iff.mp hnone
      · exact hnone

/-! ### Directives -/

theorem mem_directives {d : GovernorDirective} : d ∈ G.directives s st ↔
    (G.evaluated st).level ≠ st.level ∧
      d = G.directive s (G.evaluated st) (G.evaluated st).lastReason := by
  unfold directives
  split
  · next hsame => simp [hsame]
  · next hmoved => simp [hmoved]

theorem mem_evaluate {d : GovernorDirective} : d ∈ G.evaluate.2 ↔
    ∃ s st, G.streams.get s = some st ∧ d ∈ G.directives s st := by
  rw [G.evaluate_eq.2.2, List.mem_flatMap]
  constructor
  · rintro ⟨⟨s, st⟩, hmem, hd⟩
    exact ⟨s, st, (InsertionMap.mem_entries _ _ _).mp hmem, hd⟩
  · rintro ⟨s, st, hst, hd⟩
    exact ⟨(s, st), (InsertionMap.mem_entries _ _ _).mpr hst, hd⟩

/-- No stream gets two. -/
theorem nodup_evaluate (G : Governor) : (G.evaluate.2.map GovernorDirective.streamId).Nodup := by
  have hsub : ∀ es : List (String × StreamState),
      ((es.flatMap fun entry => G.directives entry.1 entry.2).map GovernorDirective.streamId).Sublist
        (es.map Prod.fst) := by
    intro es
    induction es with
    | nil => exact .slnil
    | cons entry es ih =>
      rw [List.flatMap_cons, List.map_append, List.map_cons]
      unfold directives
      split
      · exact ih.cons _
      · exact ih.cons_cons _
  rw [G.evaluate_eq.2.2]
  exact G.streams.nodup.sublist (hsub _)

/-- Nothing else returns any. -/
theorem out_of_ne (W : Recorded) {e : Event} (he : e ≠ .evaluate) : recorded.out W e = [] := by
  cases e with
  | evaluate => exact absurd rfl he
  | _ => rfl

/-! ### Runs -/

/-- **One event** obeys the law. -/
theorem law_next (h : Kept r W) (hr : 1 ≤ r) (e : Event) : Law r W e := by
  have hnext := kept_next h hr e
  have hstill : ∀ s st st', W.governor.streams.get s = some st →
      (recorded.next W e).governor.streams.get s = some st' → e ≠ .evaluate ∨ st.hasWindow = false →
      st'.level = st.level := by
    intro s st st' hst hst' hor
    rw [get_next, hst] at hst'
    by_cases he : e = .evaluate
    · subst he
      have hnone : st.hasWindow = false := hor.resolve_left fun hne => hne rfl
      cases hst'
      exact congrArg StreamState.level (if_neg (by simp [hnone]))
    · rcases entryAfter_some he hst' with ⟨_, heq, hlevel, -⟩ | ⟨hnone, -⟩
      · cases heq
        exact hlevel
      · cases hnone
  refine ⟨fun s st' hst' => (hnext.fits s st' hst').ladder, fun s st hst he hwindow => ?_, hstill,
    fun s => ?_, ?_, ?_⟩
  · subst he
    refine ⟨W.governor.evaluated st, ?_, ((h.fits s st hst).window hr h.recovery hwindow).1⟩
    rw [get_next, hst]
    rfl
  · by_cases he : e = .evaluate
    · subst he
      rw [List.mem_map]
      constructor
      · rintro ⟨d, hd, rfl⟩
        obtain ⟨t, st, hst, hmem⟩ := mem_evaluate.mp hd
        obtain ⟨hmoved, rfl⟩ := mem_directives.mp hmem
        refine ⟨st, W.governor.evaluated st, hst, ?_, hmoved⟩
        rw [get_next]
        exact congrArg (Option.map _) hst
      · rintro ⟨st, st', hst, hst', hmoved⟩
        rw [get_next, hst] at hst'
        cases hst'
        exact ⟨_, mem_evaluate.mpr ⟨s, st, hst, mem_directives.mpr ⟨hmoved, rfl⟩⟩, rfl⟩
    · rw [out_of_ne W he]
      constructor
      · intro hmem
        cases hmem
      · rintro ⟨st, st', hst, hst', hmoved⟩
        exact absurd (hstill s st st' hst hst' (.inl he)) hmoved
  · by_cases he : e = .evaluate
    · subst he
      exact nodup_evaluate W.governor
    · rw [out_of_ne W he]
      exact List.nodup_nil
  · intro d hd
    by_cases he : e = .evaluate
    · subst he
      obtain ⟨s, st, hst, hmem⟩ := mem_evaluate.mp hd
      obtain ⟨-, rfl⟩ := mem_directives.mp hmem
      refine ⟨W.governor.evaluated st, ?_, rfl, rfl⟩
      rw [get_next]
      exact congrArg (Option.map _) hst
    · rw [out_of_ne W he] at hd
      cases hd

/-- **The control law of the governor.**  In every run, with any threshold and any number of windows to
recover in, every event obeys the law; and the level of a stream is what the events that concern it have
made of it. -/
theorem control_law (baseKbps lossThreshold : ℚ) {r : ℕ} (hr : 1 ≤ r) (es : List Event) :
    recorded.Along (Law r) (.new (ofOptions baseKbps lossThreshold r)) es ∧
      ∀ s, ((machine.exec (ofOptions baseKbps lossThreshold r) es).streams.get s).map StreamState.level =
        ((machine.exec (ofOptions baseKbps lossThreshold r)
          (es.filter (Event.concerns s))).streams.get s).map StreamState.level := by
  constructor
  · exact Machine.along_of_invariant (fun W e h _ => kept_next h hr e) (fun W e h _ => law_next h hr e)
      (Machine.along_true _ es) (kept_new baseKbps lossThreshold r)
  · intro s
    rw [get_exec es (.refl _) rfl]

/-- One viewer of a stream loses a tenth of it. -/
def lossyRun : List Event :=
  [.register "cam" "p_0000000a", .ingestSubscriber ⟨"cam", "p_0000000b", 1 / 10, 40, 30⟩, .evaluate,
    .register "mic" "p_0000000a", .evaluate]

theorem control_law_lossyRun :
    recorded.Along (Law 4) (.new (ofOptions 2500 (1 / 20) 4)) lossyRun ∧
      ∀ s, ((machine.exec (ofOptions 2500 (1 / 20) 4) lossyRun).streams.get s).map StreamState.level =
        ((machine.exec (ofOptions 2500 (1 / 20) 4)
          (lossyRun.filter (Event.concerns s))).streams.get s).map StreamState.level :=
  control_law 2500 (1 / 20) (by decide) lossyRun

end Governor

end ScreenSharing.Sfu
