import ScreenSharing.Lib.Machine
import ScreenSharing.Sfu.Effects

/-!
# Runs of the router

`router` is the SFU router as a machine.  Its events are the calls of the class, the end of a
negotiation (`settle`), and what a connection reports (`track`, `stateChange`); between two of them
nothing else touches the tables, since the code between two awaits runs without interruption.

`StepOutcome` lists what one event can do to the tables, with the guards, and `step_outcome` says
the list is complete: an event does nothing, starts a call, ends one (with or without a
registration), records a track, or removes registrations as `Removes` describes, after closing a
connection if it is the report of one that is closed.  Invariants are case analyses over it.

`Wf` is the representation invariant: the state handler of a registered connection names the key
under which it is registered, and the connection of a call in flight has no handler yet.  A
connection may close while it negotiates, when no handler listens to it, so that a registered one
need not be open.  `wf_next` says that one event keeps the invariant.
-/

namespace ScreenSharing.Sfu

open Lib

inductive Event
  | publish (ownerPeerId : PeerId) (streamId : String) (kinds : Kinds)
  | subscribe (subscriberPeerId : PeerId) (streamId : String)
  | completeSubscribe (subscriberPeerId : PeerId) (streamId : String)
  | settle (call : ℕ) (outcome : Negotiation)
  | unpublish (streamId : String)
  | unsubscribe (subscriberPeerId : PeerId) (streamId : String)
  | removePeer (peerId : PeerId)
  | track (pc : ℕ) (kind : Kind)
  | stateChange (pc : ℕ) (state : PcState)
  | close
  deriving DecidableEq

def react (R : Router) : Event → Router × List Output
  | .publish owner streamId kinds => R.publish owner streamId kinds
  | .subscribe subscriber streamId => R.subscribe subscriber streamId
  | .completeSubscribe subscriber streamId => R.completeSubscribe subscriber streamId
  | .settle call outcome => R.settle call outcome
  | .unpublish streamId => R.unpublish streamId
  | .unsubscribe subscriber streamId => R.unsubscribe subscriber streamId
  | .removePeer peerId => R.removePeer peerId
  | .track pc kind => (R.onTrack pc kind, [])
  | .stateChange pc state => R.onStateChange pc state
  | .close => R.close

/-- Only a call in flight can end, and only a connection that exists can report. -/
def Enabled (R : Router) : Event → Prop
  | .settle call _ => R.negotiating.has call = true
  | .track pc _ => pc < R.nextCall
  | .stateChange pc _ => pc < R.nextCall
  | _ => True

instance (R : Router) (e : Event) : Decidable (Enabled R e) := by
  cases e <;> unfold Enabled <;> infer_instance

def router : Machine Router Event Output := ⟨Enabled, react⟩

instance (R : Router) (e : Event) : Decidable (router.enabled R e) :=
  inferInstanceAs (Decidable (Enabled R e))

/-! ### What one event can do -/

/-- The streams for which `unpublish` runs at an event.  `close` takes everything away, and stands
apart. -/
def unpublished (R : Router) : Event → String → Prop
  | .unpublish s => fun t => t = s
  | .removePeer p => fun t => t ∈ R.ownedBy p
  | .stateChange k state => fun t => state.lost = true ∧ (R.pcs k).onState = some (.unpublish t)
  | _ => fun _ => False

/-- The subscriptions for which `unsubscribe` runs at an event. -/
def unsubscribed (R : Router) : Event → PeerId → String → Prop
  | .unsubscribe p s => fun q t => q = p ∧ t = s
  | .stateChange k state => fun q t =>
      state.lost = true ∧ (R.pcs k).onState = some (.unsubscribe q t)
  | _ => fun _ _ => False

/-- The keys of the subscriptions that an event removes, if they are registered. -/
def dropped (R : Router) (e : Event) (key : String) : Prop :=
  (∃ s, unpublished R e s ∧ R.publishers.has s = true ∧ endsWith key ("::" ++ s) = true) ∨
    (∃ p s, unsubscribed R e p s ∧ key = subKey p s) ∨
    (∃ p, e = .removePeer p ∧ startsWith key (p.text ++ "::") = true)

/-- What an event can do to the router. -/
inductive StepOutcome (R : Router) : Event → Router → Prop
  | idle (e : Event) (h : ∀ s, ¬ unpublished R e s) (h' : ∀ p s, ¬ unsubscribed R e p s)
      (h'' : ∀ p, e ≠ .removePeer p) : StepOutcome R e R
  | began (e : Event) (call : Call) (pc : Pc) (h : pc.onState = none)
      (hpub : ∀ p s kinds, call = .publish p s kinds → pc.forwards = [])
      (he : (∃ p s kinds, e = .publish p s kinds) ∨ (∃ p s, e = .subscribe p s) ∨
        ∃ p s, e = .completeSubscribe p s) :
      StepOutcome R e (R.begin call pc)
  | failed (k : ℕ) (message : String) (call : Call) (pc : Pc)
      (hcall : R.negotiating.get k = some call) (hstate : pc.onState = (R.pcs k).onState) :
      StepOutcome R (.settle k (.failed message))
        { R with negotiating := R.negotiating.delete k, pcs := Function.update R.pcs k pc }
  | published (k : ℕ) (sdp : Option String) (p : PeerId) (s : String) (kinds : Kinds)
      (hcall : R.negotiating.get k = some (.publish p s kinds)) :
      StepOutcome R (.settle k (.succeeded sdp))
        { R with
          negotiating := R.negotiating.delete k
          publishers := R.publishers.set s ⟨k, s, p.text, kinds.video, kinds.audio⟩
          pcs := Function.update R.pcs k { R.pcs k with onState := some (.unpublish s) } }
  | subscribed (k : ℕ) (sdp : Option String) (p : PeerId) (s owner : String)
      (hcall : R.negotiating.get k = some (.subscribe p s owner)) :
      StepOutcome R (.settle k (.succeeded sdp))
        { R with
          negotiating := R.negotiating.delete k
          subscriptions := R.subscriptions.set (subKey p s) ⟨k⟩
          pcs := Function.update R.pcs k { R.pcs k with onState := some (.unsubscribe p s) } }
  | completed (k : ℕ) (outcome : Negotiation) (p : PeerId) (s : String)
      (hcall : R.negotiating.get k = some (.completeSubscribe p s)) :
      StepOutcome R (.settle k outcome) { R with negotiating := R.negotiating.delete k }
  | tracked (k : ℕ) (kind : Kind) : StepOutcome R (.track k kind) (R.onTrack k kind)
  | removed (e : Event) (R' : Router) (h : Removes (unpublished R e) (dropped R e) R R') :
      StepOutcome R e R'
  | shut (k : ℕ) (R' : Router) (h : Removes (unpublished R (.stateChange k .closed))
      (dropped R (.stateChange k .closed)) (R.closePc k) R') :
      StepOutcome R (.stateChange k .closed) R'
  | closed (R' : Router) (h : Removes (fun _ => True) (fun _ => True) R R') :
      StepOutcome R .close R'

variable {R R' : Router}

theorem publish_outcome (p : PeerId) (s : String) (kinds : Kinds) :
    StepOutcome R (.publish p s kinds) (R.publish p s kinds).1 := by
  have hidle : StepOutcome R (.publish p s kinds) R :=
    .idle _ (fun _ h => h) (fun _ _ h => h) (fun _ h => by cases h)
  unfold Router.publish
  dsimp only
  split
  · exact hidle
  · split
    · exact hidle
    · exact .began _ _ newPc rfl (fun _ _ _ _ => rfl) (.inl ⟨p, s, kinds, rfl⟩)

theorem subscribe_outcome (p : PeerId) (s : String) :
    StepOutcome R (.subscribe p s) (R.subscribe p s).1 := by
  have hidle : StepOutcome R (.subscribe p s) R :=
    .idle _ (fun _ h => h) (fun _ _ h => h) (fun _ h => by cases h)
  unfold Router.subscribe
  dsimp only
  split
  · exact hidle
  · split
    · exact hidle
    · split
      · exact hidle
      · split
        · exact hidle
        · exact .began _ _ _ rfl (fun _ _ _ h => by cases h) (.inr (.inl ⟨p, s, rfl⟩))

theorem completeSubscribe_outcome (p : PeerId) (s : String) :
    StepOutcome R (.completeSubscribe p s) (R.completeSubscribe p s).1 := by
  unfold Router.completeSubscribe
  dsimp only
  split
  · exact .idle _ (fun _ h => h) (fun _ _ h => h) (fun _ h => by cases h)
  · exact .began _ _ newPc rfl (fun _ _ _ h => by cases h) (.inr (.inr ⟨p, s, rfl⟩))

theorem settle_outcome {k : ℕ} (outcome : Negotiation) (hpending : R.negotiating.has k = true) :
    StepOutcome R (.settle k outcome) (R.settle k outcome).1 := by
  obtain ⟨call, hcall⟩ := (InsertionMap.has_iff _ _).mp hpending
  unfold Router.settle
  rw [hcall]
  cases call with
  | publish p s kinds =>
    cases outcome with
    | failed message => exact .failed k message _ (R.pcs k).close hcall rfl
    | succeeded sdp => exact .published k sdp p s kinds hcall
  | subscribe p s owner =>
    cases outcome with
    | failed message => exact .failed k message _ (R.pcs k).shut hcall rfl
    | succeeded sdp => exact .subscribed k sdp p s owner hcall
  | completeSubscribe p s =>
    cases outcome with
    | failed message => exact .completed k _ p s hcall
    | succeeded sdp => exact .completed k _ p s hcall

theorem unpublish_outcome (s : String) : StepOutcome R (.unpublish s) (R.unpublish s).1 := by
  refine .removed _ _ ((removes_unpublish s R).congr (fun t => Iff.rfl) (fun key => ?_))
  constructor
  · rintro (⟨t, rfl, hpub, hend⟩ | ⟨p, t, h, -⟩ | ⟨p, h, -⟩)
    · exact ⟨hpub, hend⟩
    · exact h.elim
    · cases h
  · rintro ⟨hpub, hend⟩
    exact .inl ⟨s, rfl, hpub, hend⟩

theorem unsubscribe_outcome (p : PeerId) (s : String) :
    StepOutcome R (.unsubscribe p s) (R.unsubscribe p s).1 := by
  refine .removed _ _ ((removes_unsubscribe p s R).congr (fun t => Iff.rfl) (fun key => ?_))
  constructor
  · rintro (⟨t, h, -⟩ | ⟨q, t, ⟨rfl, rfl⟩, rfl⟩ | ⟨q, h, -⟩)
    · exact h.elim
    · rfl
    · cases h
  · rintro rfl
    exact .inr (.inl ⟨p, s, ⟨rfl, rfl⟩, rfl⟩)

theorem removePeer_outcome (p : PeerId) : StepOutcome R (.removePeer p) (R.removePeer p).1 := by
  refine .removed _ _ ((removes_removePeer p R).congr (fun t => Iff.rfl) (fun key => ?_))
  constructor
  · rintro (⟨t, hown, -, hend⟩ | ⟨q, t, h, -⟩ | ⟨q, h, hstart⟩)
    · exact .inl ⟨t, hown, hend⟩
    · exact h.elim
    · cases h
      exact .inr hstart
  · rintro (⟨t, hown, hend⟩ | hstart)
    · obtain ⟨pub, hpub, -⟩ := mem_ownedBy.mp hown
      exact .inl ⟨t, hown, (InsertionMap.has_iff _ _).mpr ⟨pub, hpub⟩, hend⟩
    · exact .inr (.inr ⟨p, rfl, hstart⟩)

/-- What a lost connection's handler removes, once the report has been noted. -/
theorem removes_stateChange {k : ℕ} {state : PcState} (hlost : state.lost = true) :
    Removes (unpublished R (.stateChange k state)) (dropped R (.stateChange k state))
      (R.reported k state) (R.onStateChange k state).1 := by
  cases hhandler : (R.pcs k).onState with
  | none =>
    rw [show R.onStateChange k state = (R.reported k state, []) by
      simp only [Router.onStateChange, hlost, hhandler, if_true]]
    refine (Removes.refl _).congr (fun s => ?_) (fun key => ?_)
    · simp [unpublished, hhandler]
    · simp [dropped, unpublished, unsubscribed, hhandler]
  | some handler =>
    cases handler with
    | unpublish s =>
      rw [show R.onStateChange k state = (R.reported k state).unpublish s by
        simp only [Router.onStateChange, hlost, hhandler, if_true]]
      refine (removes_unpublish s _).congr (fun t => ?_) (fun key => ?_)
      · simp [unpublished, hlost, hhandler, eq_comm]
      · rw [reported_publishers]
        simp [dropped, unpublished, unsubscribed, hlost, hhandler]
    | unsubscribe p s =>
      rw [show R.onStateChange k state = (R.reported k state).unsubscribe p s by
        simp only [Router.onStateChange, hlost, hhandler, if_true]]
      refine (removes_unsubscribe p s _).congr (fun t => ?_) (fun key => ?_)
      · simp [unpublished, hhandler]
      · simp [dropped, unpublished, unsubscribed, hlost, hhandler]

/-- A state at which no handler acts changes nothing. -/
theorem onStateChange_of_not_lost {k : ℕ} {state : PcState} (hlost : ¬ state.lost = true) :
    R.onStateChange k state = (R, []) := by
  cases state with
  | new => rfl
  | connecting => rfl
  | connected => rfl
  | disconnected => exact absurd rfl hlost
  | failed => exact absurd rfl hlost
  | closed => exact absurd rfl hlost

theorem stateChange_outcome (k : ℕ) (state : PcState) :
    StepOutcome R (.stateChange k state) (R.onStateChange k state).1 := by
  by_cases hlost : state.lost = true
  · have hremoves := removes_stateChange (R := R) (k := k) hlost
    by_cases hclosed : state = .closed
    · subst hclosed
      exact .shut k _ hremoves
    · rw [show R.reported k state = R from if_neg hclosed] at hremoves
      exact .removed _ _ hremoves
  · rw [onStateChange_of_not_lost hlost]
    exact .idle _ (fun s h => hlost h.1) (fun p s h => hlost h.1) (fun _ h => by cases h)

/-- **Every outcome of an event is listed.** -/
theorem step_outcome (R : Router) (e : Event) (henabled : router.enabled R e) :
    StepOutcome R e (router.next R e) := by
  cases e with
  | publish p s kinds => exact publish_outcome p s kinds
  | subscribe p s => exact subscribe_outcome p s
  | completeSubscribe p s => exact completeSubscribe_outcome p s
  | settle k outcome => exact settle_outcome outcome henabled
  | unpublish s => exact unpublish_outcome s
  | unsubscribe p s => exact unsubscribe_outcome p s
  | removePeer p => exact removePeer_outcome p
  | track k kind => exact .tracked k kind
  | stateChange k state => exact stateChange_outcome k state
  | close => exact .closed _ (removes_close R)

/-! ### The representation invariant -/

/-- The representation invariant of the router. -/
structure Wf (R : Router) : Prop where
  publisher : ∀ s pub, R.publishers.get s = some pub →
    (R.pcs pub.pc).onState = some (.unpublish s) ∧ pub.info.streamId = s
  subscription : ∀ key sub, R.subscriptions.get key = some sub → ∃ p s, key = subKey p s ∧
    (R.pcs sub.pc).onState = some (.unsubscribe p s)
  pending : ∀ k call, R.negotiating.get k = some call →
    k < R.nextCall ∧ (R.pcs k).onState = none
  plain : ∀ k p s kinds, R.negotiating.get k = some (.publish p s kinds) →
    (R.pcs k).forwards = []
  carrier : ∀ k s, (R.pcs k).onState = some (.unpublish s) → (R.pcs k).forwards = []
  fresh : ∀ k, R.nextCall ≤ k → R.pcs k = newPc

theorem wf_new : Wf Router.new where
  publisher := by intro s pub h; simp [Router.new] at h
  subscription := by intro key sub h; simp [Router.new] at h
  pending := by intro k call h; simp [Router.new] at h
  plain := by intro k p s kinds h; simp [Router.new] at h
  carrier := by intro k s h; simp [Router.new, newPc] at h
  fresh := by intro k _; rfl

variable {P Q : String → Prop}

/-- A removal leaves the connection of a publisher that it does not remove alone. -/
theorem Removes.keeps_publisher (h : Removes P Q R R') (hw : Wf R) {s : String} {pub : Publisher}
    (hpub : R.publishers.get s = some pub) (hs : ¬ P s) : R'.pcs pub.pc = R.pcs pub.pc := by
  have hstate := (hw.publisher s pub hpub).1
  refine h.pcs_kept pub.pc (fun t pub' ht hget heq => ?_) (fun key sub _ hget heq => ?_)
  · have hstate' := (hw.publisher t pub' hget).1
    rw [heq, hstate] at hstate'
    cases hstate'
    exact hs ht
  · obtain ⟨p, t, -, hstate'⟩ := hw.subscription key sub hget
    rw [heq, hstate] at hstate'
    cases hstate'

/-- A removal leaves the connection of a subscription that it does not remove alone. -/
theorem Removes.keeps_subscription (h : Removes P Q R R') (hw : Wf R) {key : String}
    {sub : Subscription} (hsub : R.subscriptions.get key = some sub) (hkey : ¬ Q key) :
    R'.pcs sub.pc = R.pcs sub.pc := by
  obtain ⟨p, s, hk, hstate⟩ := hw.subscription key sub hsub
  refine h.pcs_kept sub.pc (fun t pub _ hget heq => ?_) (fun key' sub' hQ hget heq => ?_)
  · have hstate' := (hw.publisher t pub hget).1
    rw [heq, hstate] at hstate'
    cases hstate'
  · obtain ⟨p', s', hk', hstate'⟩ := hw.subscription key' sub' hget
    rw [heq, hstate] at hstate'
    cases hstate'
    rw [hk, ← hk'] at hkey
    exact hkey hQ

/-- A removal leaves a connection without a state handler alone. -/
theorem Removes.keeps_bare (h : Removes P Q R R') (hw : Wf R) {k : ℕ}
    (hbare : (R.pcs k).onState = none) : R'.pcs k = R.pcs k := by
  refine h.pcs_kept k (fun t pub _ hget heq => ?_) (fun key sub _ hget heq => ?_)
  · have hstate := (hw.publisher t pub hget).1
    rw [heq, hbare] at hstate
    cases hstate
  · obtain ⟨p, s, -, hstate⟩ := hw.subscription key sub hget
    rw [heq, hbare] at hstate
    cases hstate

theorem Removes.wf (h : Removes P Q R R') (hw : Wf R) : Wf R' where
  publisher := by
    intro s pub hpub
    have hs : ¬ P s := by
      intro hP
      rw [h.publishers_removed s hP] at hpub
      cases hpub
    rw [h.publishers_kept s hs] at hpub
    rw [h.keeps_publisher hw hpub hs]
    exact hw.publisher s pub hpub
  subscription := by
    intro key sub hsub
    have hkey : ¬ Q key := by
      intro hQ
      rw [h.subscriptions_removed key hQ] at hsub
      cases hsub
    rw [h.subscriptions_kept key hkey] at hsub
    rw [h.keeps_subscription hw hsub hkey]
    exact hw.subscription key sub hsub
  pending := by
    intro k call hcall
    rw [h.negotiating] at hcall
    have hpending := hw.pending k call hcall
    rw [h.keeps_bare hw hpending.2, h.nextCall]
    exact hpending
  plain := by
    intro k p s kinds hcall
    rw [h.negotiating] at hcall
    rw [h.keeps_bare hw (hw.pending k _ hcall).2]
    exact hw.plain k p s kinds hcall
  carrier := by
    intro k s hstate
    rw [h.onState] at hstate
    rcases h.forwards k with hk | hk
    · rw [hk]
      exact hw.carrier k s hstate
    · exact hk
  fresh := by
    intro k hk
    rw [h.nextCall] at hk
    have hnew := hw.fresh k hk
    rw [h.keeps_bare hw (by rw [hnew]; rfl)]
    exact hnew

/-- A connection with a state handler is not the one of a call in flight. -/
theorem Wf.ne_of_handler (hw : Wf R) {k j : ℕ} {call : Call} {handler : Handler}
    (hcall : R.negotiating.get k = some call) (hj : (R.pcs j).onState = some handler) : j ≠ k := by
  rintro rfl
  rw [(hw.pending j call hcall).2] at hj
  cases hj

/-- A connection with a state handler is older than the next call. -/
theorem Wf.lt_of_handler (hw : Wf R) {j : ℕ} {handler : Handler}
    (hj : (R.pcs j).onState = some handler) : j < R.nextCall := by
  by_contra hlt
  rw [hw.fresh j (Nat.le_of_not_lt hlt)] at hj
  cases hj

theorem wf_begin (hw : Wf R) (call : Call) (pc : Pc) (hstate : pc.onState = none)
    (hplain : ∀ p s kinds, call = .publish p s kinds → pc.forwards = []) :
    Wf (R.begin call pc) where
  publisher := by
    intro s pub hpub
    have hold := hw.publisher s pub hpub
    have hne : pub.pc ≠ R.nextCall := Nat.ne_of_lt (hw.lt_of_handler hold.1)
    simpa [Router.begin, Function.update_of_ne hne] using hold
  subscription := by
    intro key sub hsub
    obtain ⟨p, s, hkey, hold⟩ := hw.subscription key sub hsub
    have hne : sub.pc ≠ R.nextCall := Nat.ne_of_lt (hw.lt_of_handler hold)
    refine ⟨p, s, hkey, ?_⟩
    simpa [Router.begin, Function.update_of_ne hne] using hold
  pending := by
    intro k call' hcall
    by_cases hk : k = R.nextCall
    · subst hk
      simp [Router.begin, hstate]
    · have hold := hw.pending k call' ((InsertionMap.get_set_ne _ _ hk).symm.trans hcall)
      show k < R.nextCall + 1 ∧ _
      simp only [Router.begin, Function.update_of_ne hk]
      exact ⟨by omega, hold.2⟩
  plain := by
    intro k p s kinds hcall
    by_cases hk : k = R.nextCall
    · subst hk
      have heq : call = .publish p s kinds := by
        simpa [Router.begin] using hcall
      simpa [Router.begin] using hplain p s kinds heq
    · have hold := hw.plain k p s kinds ((InsertionMap.get_set_ne _ _ hk).symm.trans hcall)
      simpa [Router.begin, Function.update_of_ne hk] using hold
  carrier := by
    intro k s hk
    by_cases heq : k = R.nextCall
    · subst heq
      simp [Router.begin, hstate] at hk
    · simp only [Router.begin, Function.update_of_ne heq] at hk ⊢
      exact hw.carrier k s hk
  fresh := by
    intro k hk
    have hne : k ≠ R.nextCall := by
      show k ≠ _
      have : R.nextCall + 1 ≤ k := hk
      omega
    simp only [Router.begin, Function.update_of_ne hne]
    exact hw.fresh k (by have : R.nextCall + 1 ≤ k := hk; omega)

/-- The end of a call: its connection gets the record `pc`, and what is registered anew, if
anything, is that connection under the key its handler names. -/
theorem wf_settle (hw : Wf R) {k : ℕ} {call : Call} (hcall : R.negotiating.get k = some call)
    (pc : Pc) (publishers : InsertionMap String Publisher)
    (subscriptions : InsertionMap String Subscription)
    (hpubs : ∀ s pub, publishers.get s = some pub → R.publishers.get s = some pub ∨
      (pub.pc = k ∧ pc.onState = some (.unpublish s) ∧ pub.info.streamId = s))
    (hsubs : ∀ key sub, subscriptions.get key = some sub → R.subscriptions.get key = some sub ∨
      (sub.pc = k ∧ ∃ p s, key = subKey p s ∧ pc.onState = some (.unsubscribe p s)))
    (hcarrier : ∀ s, pc.onState = some (.unpublish s) → pc.forwards = []) :
    Wf { R with
      negotiating := R.negotiating.delete k
      publishers := publishers
      subscriptions := subscriptions
      pcs := Function.update R.pcs k pc } where
  publisher := by
    intro s pub hpub
    rcases hpubs s pub hpub with hold | ⟨rfl, hnew⟩
    · have hwf := hw.publisher s pub hold
      have hne : pub.pc ≠ k := hw.ne_of_handler hcall hwf.1
      simpa [Function.update_of_ne hne] using hwf
    · simpa using hnew
  subscription := by
    intro key sub hsub
    rcases hsubs key sub hsub with hold | ⟨rfl, p, s, hkey, hnew⟩
    · obtain ⟨p, s, hkey, hwf⟩ := hw.subscription key sub hold
      have hne : sub.pc ≠ k := hw.ne_of_handler hcall hwf
      exact ⟨p, s, hkey, by simpa [Function.update_of_ne hne] using hwf⟩
    · exact ⟨p, s, hkey, by simpa using hnew⟩
  pending := by
    intro j call' hj
    obtain ⟨hget, hne⟩ := InsertionMap.get_of_get_delete hj
    simpa [Function.update_of_ne hne] using hw.pending j call' hget
  plain := by
    intro j p s kinds hj
    obtain ⟨hget, hne⟩ := InsertionMap.get_of_get_delete hj
    simpa [Function.update_of_ne hne] using hw.plain j p s kinds hget
  carrier := by
    intro j s hj
    by_cases heq : j = k
    · subst heq
      simp only [Function.update_self] at hj ⊢
      exact hcarrier s hj
    · simp only [Function.update_of_ne heq] at hj ⊢
      exact hw.carrier j s hj
  fresh := by
    intro j hj
    have hlt : k < R.nextCall := (hw.pending k call hcall).1
    have hle : R.nextCall ≤ j := hj
    have hne : j ≠ k := by omega
    simp only [Function.update_of_ne hne]
    exact hw.fresh j hle

/-- A connection that has been created is closed. -/
theorem wf_closePc (hw : Wf R) {k : ℕ} (hk : k < R.nextCall) : Wf (R.closePc k) := by
  have hpc : ∀ j, ((R.closePc k).pcs j).onState = (R.pcs j).onState ∧
      ((R.closePc k).pcs j).forwards = (R.pcs j).forwards := by
    intro j
    by_cases hj : j = k
    · subst hj
      simp [Router.closePc, Pc.close]
    · simp [Router.closePc, Function.update_of_ne hj]
  constructor
  · intro s pub hpub
    rw [(hpc pub.pc).1]
    exact hw.publisher s pub hpub
  · intro key sub hsub
    rw [(hpc sub.pc).1]
    exact hw.subscription key sub hsub
  · intro j call hj
    rw [(hpc j).1]
    exact hw.pending j call hj
  · intro j p s kinds hj
    rw [(hpc j).2]
    exact hw.plain j p s kinds hj
  · intro j s hj
    rw [(hpc j).1] at hj
    rw [(hpc j).2]
    exact hw.carrier j s hj
  · intro j hj
    have hle : R.nextCall ≤ j := hj
    have hne : j ≠ k := by omega
    exact (Function.update_of_ne hne ..).trans (hw.fresh j hle)

/-- **One event keeps the representation invariant.** -/
theorem wf_next (hw : Wf R) (e : Event) (henabled : router.enabled R e) :
    Wf (router.next R e) := by
  have hout := step_outcome R e henabled
  generalize router.next R e = R' at hout
  cases hout with
  | idle => exact hw
  | began _ call pc hstate hplain he => exact wf_begin hw call pc hstate hplain
  | failed k message call pc hcall hstate =>
    have hbare : pc.onState = none := hstate.trans (hw.pending k call hcall).2
    refine wf_settle hw hcall pc R.publishers R.subscriptions (fun _ _ => .inl) (fun _ _ => .inl)
      fun s h => ?_
    rw [hbare] at h
    cases h
  | published k sdp p s kinds hcall =>
    refine wf_settle hw hcall _ _ R.subscriptions (fun t pub hpub => ?_) (fun _ _ => .inl)
      fun t _ => hw.plain k p s kinds hcall
    rw [InsertionMap.get_set] at hpub
    split at hpub
    · next ht =>
      cases hpub
      subst ht
      exact .inr ⟨rfl, rfl, rfl⟩
    · exact .inl hpub
  | subscribed k sdp p s owner hcall =>
    refine wf_settle hw hcall _ R.publishers _ (fun _ _ => .inl) (fun key sub hsub => ?_)
      fun t h => by cases h
    rw [InsertionMap.get_set] at hsub
    split at hsub
    · next hkey =>
      cases hsub
      exact .inr ⟨rfl, p, s, hkey, rfl⟩
    · exact .inl hsub
  | completed k outcome p s hcall =>
    have hkeep : Function.update R.pcs k (R.pcs k) = R.pcs := Function.update_eq_self k R.pcs
    have hsettle := wf_settle hw hcall (R.pcs k) R.publishers R.subscriptions (fun _ _ => .inl)
      (fun _ _ => .inl) (fun t h => hw.carrier k t h)
    rw [hkeep] at hsettle
    exact hsettle
  | tracked k kind =>
    have hlt : k < R.nextCall := henabled
    have hpc : ∀ j, ((R.onTrack k kind).pcs j).onState = (R.pcs j).onState ∧
        ((R.onTrack k kind).pcs j).forwards = (R.pcs j).forwards := by
      intro j
      by_cases hj : j = k
      · subst hj
        simp [Router.onTrack]
      · simp [Router.onTrack, Function.update_of_ne hj]
    constructor
    · intro s pub hpub
      rw [(hpc pub.pc).1]
      exact hw.publisher s pub hpub
    · intro key sub hsub
      rw [(hpc sub.pc).1]
      exact hw.subscription key sub hsub
    · intro j call hj
      rw [(hpc j).1]
      exact hw.pending j call hj
    · intro j p s kinds hj
      rw [(hpc j).2]
      exact hw.plain j p s kinds hj
    · intro j s hj
      rw [(hpc j).1] at hj
      rw [(hpc j).2]
      exact hw.carrier j s hj
    · intro j hj
      have hle : R.nextCall ≤ j := hj
      have hne : j ≠ k := by omega
      simp only [Router.onTrack, Function.update_of_ne hne]
      exact hw.fresh j hle
  | removed _ _ h => exact h.wf hw
  | shut k _ h => exact h.wf (wf_closePc hw henabled)
  | closed _ h => exact h.wf hw

end ScreenSharing.Sfu
