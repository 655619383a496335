import ScreenSharing.Sfu.Runs

/-!
# Exclusive registration

`publish` and `subscribe` check that their key is free, negotiate for up to seconds, and then write
under that key without looking again.  Two calls for one key that overlap therefore both succeed,
and the second write takes the place of the first: its connection stays open, its forwards stay
attached, and nothing refers to it any more.

`Exclusive` is what the check is for.  At a step: no live registration is replaced by another one;
and afterwards each connection of a successful call is the registered one, or closed with its
forwards detached, so that at most one open connection carries a key.  `exclusive_iff_keyFree` says
that this holds along a run exactly when every negotiation that succeeds finds its key still free.
-/

namespace ScreenSharing.Sfu

open Lib

variable {R R' : Router} {P Q : String → Prop}

/-- The connection `k` is the one registered for what the handler names. -/
def Handler.Stored (R : Router) (k : ℕ) : Handler → Prop
  | .unpublish s => ∃ pub, R.publishers.get s = some pub ∧ pub.pc = k
  | .unsubscribe p s => R.subscriptions.get (subKey p s) = some ⟨k⟩

/-- **Nothing leaks.**  The connection of a successful call is registered, or closed with its
forwards detached.  A connection has its state handler from the moment its call succeeds. -/
def NoLeak (R : Router) : Prop :=
  ∀ k handler, (R.pcs k).onState = some handler → handler.Stored R k ∨
    ((R.pcs k).closed = true ∧ (R.pcs k).forwards = [])

/-- Two open connections of successful calls carry different keys. -/
def AtMostOne (R : Router) : Prop :=
  ∀ k k' handler, (R.pcs k).onState = some handler → (R.pcs k').onState = some handler →
    (R.pcs k).closed = false → (R.pcs k').closed = false → k = k'

/-- A live registration is kept or removed, never replaced. -/
def NeverReplaced (R R' : Router) : Prop :=
  (∀ s pub pub', R.publishers.get s = some pub → R'.publishers.get s = some pub' → pub' = pub) ∧
    ∀ key sub sub', R.subscriptions.get key = some sub → R'.subscriptions.get key = some sub' →
      sub' = sub

/-- Exclusive registration at one step. -/
def Exclusive (R : Router) (e : Event) : Prop :=
  NeverReplaced R (router.next R e) ∧ NoLeak (router.next R e) ∧ AtMostOne (router.next R e)

/-- Is the key that the call is going to write still free? -/
def Call.KeyFree (R : Router) : Call → Prop
  | .publish _ s _ => R.publishers.get s = none
  | .subscribe p s _ => R.subscriptions.get (subKey p s) = none
  | .completeSubscribe _ _ => True

/-- The condition on a step: if it is the successful end of a negotiation, no other call has
registered its key since it was checked. -/
def KeyFree (R : Router) : Event → Prop
  | .settle k (.succeeded _) => ∀ call, R.negotiating.get k = some call → call.KeyFree R
  | _ => True

theorem atMostOne_of_noLeak (h : NoLeak R) : AtMostOne R := by
  intro k k' handler hk hk' hopen hopen'
  have hstored : handler.Stored R k := by
    refine (h k handler hk).resolve_right ?_
    rintro ⟨hclosed, -⟩
    rw [hopen] at hclosed
    cases hclosed
  have hstored' : handler.Stored R k' := by
    refine (h k' handler hk').resolve_right ?_
    rintro ⟨hclosed, -⟩
    rw [hopen'] at hclosed
    cases hclosed
  cases handler with
  | unpublish s =>
    obtain ⟨pub, hpub, rfl⟩ := hstored
    obtain ⟨pub', hpub', rfl⟩ := hstored'
    rw [hpub] at hpub'
    cases hpub'
    rfl
  | unsubscribe p s =>
    have heq : some (Subscription.mk k) = some ⟨k'⟩ := hstored.symm.trans hstored'
    cases heq
    rfl

/-! ### What a removal does -/

theorem Unregisters.neverReplaced (h : Unregisters P Q R R') : NeverReplaced R R' := by
  constructor
  · intro s pub pub' hpub hpub'
    by_cases hs : P s
    · rw [h.publishers_removed s hs] at hpub'
      cases hpub'
    · rw [h.publishers_kept s hs, hpub] at hpub'
      cases hpub'
      rfl
  · intro key sub sub' hsub hsub'
    by_cases hkey : Q key
    · rw [h.subscriptions_removed key hkey] at hsub'
      cases hsub'
    · rw [h.subscriptions_kept key hkey, hsub] at hsub'
      cases hsub'
      rfl

/-- A removal closes what it unregisters, so it leaks nothing. -/
theorem Removes.noLeak (h : Removes P Q R R') (hw : Wf R) (hleak : NoLeak R) : NoLeak R' := by
  intro k handler hk
  rw [h.onState] at hk
  rcases hleak k handler hk with hstored | ⟨hclosed, hforwards⟩
  · cases handler with
    | unpublish s =>
      obtain ⟨pub, hpub, rfl⟩ := hstored
      by_cases hs : P s
      · refine .inr ⟨h.publisher_closed s pub hs hpub, ?_⟩
        rcases h.forwards pub.pc with hf | hf
        · exact hf.trans (hw.carrier pub.pc s hk)
        · exact hf
      · exact .inl ⟨pub, (h.publishers_kept s hs).trans hpub, rfl⟩
    | unsubscribe p s =>
      by_cases hkey : Q (subKey p s)
      · exact .inr (h.subscription_shut _ ⟨k⟩ hkey hstored)
      · exact .inl ((h.subscriptions_kept _ hkey).trans hstored)
  · refine .inr ⟨h.closed_mono k hclosed, ?_⟩
    rcases h.forwards k with hf | hf
    · exact hf.trans hforwards
    · exact hf

/-! ### One step -/

/-- A step that leaves both tables alone, and every connection that has a handler, leaks nothing. -/
theorem noLeak_of_same (hleak : NoLeak R) (hpubs : R'.publishers = R.publishers)
    (hsubs : R'.subscriptions = R.subscriptions)
    (hpcs : ∀ k handler, (R'.pcs k).onState = some handler →
      (R.pcs k).onState = some handler ∧ (R'.pcs k).closed = (R.pcs k).closed ∧
        (R'.pcs k).forwards = (R.pcs k).forwards) : NoLeak R' := by
  intro k handler hk
  obtain ⟨hk', hclosed, hforwards⟩ := hpcs k handler hk
  rw [hclosed, hforwards]
  refine (hleak k handler hk').imp_left fun hstored => ?_
  cases handler with
  | unpublish s =>
    show ∃ pub, R'.publishers.get s = some pub ∧ pub.pc = k
    rw [hpubs]
    exact hstored
  | unsubscribe p s =>
    show R'.subscriptions.get (subKey p s) = some ⟨k⟩
    rw [hsubs]
    exact hstored

theorem noLeak_closePc (hleak : NoLeak R) (k : ℕ) : NoLeak (R.closePc k) := by
  intro j handler hj
  by_cases heq : j = k
  · subst heq
    simp only [Router.closePc, Function.update_self, Pc.close] at hj ⊢
    refine (hleak j handler hj).imp (fun hstored => ?_) fun h => ⟨trivial, h.2⟩
    cases handler <;> exact hstored
  · simp only [Router.closePc, Function.update_of_ne heq] at hj ⊢
    refine (hleak j handler hj).imp_left fun hstored => ?_
    cases handler <;> exact hstored

/-- A step that registers the connection `k`, and keeps what is registered, leaks nothing. -/
theorem noLeak_of_registered (hleak : NoLeak R) {k : ℕ} (handler₀ : Handler)
    (hstored : handler₀.Stored R' k)
    (hkept : ∀ j (handler : Handler), handler.Stored R j → handler.Stored R' j)
    (hk : (R'.pcs k).onState = some handler₀) (hpcs : ∀ j, j ≠ k → R'.pcs j = R.pcs j) :
    NoLeak R' := by
  intro j handler hj
  by_cases heq : j = k
  · subst heq
    rw [hk] at hj
    cases hj
    exact .inl hstored
  · rw [hpcs j heq] at hj ⊢
    exact (hleak j handler hj).imp_left (hkept j handler)

theorem neverReplaced_of_same (hpubs : R'.publishers = R.publishers)
    (hsubs : R'.subscriptions = R.subscriptions) : NeverReplaced R R' := by
  constructor
  · intro s pub pub' hpub hpub'
    rw [hpubs, hpub] at hpub'
    cases hpub'
    rfl
  · intro key sub sub' hsub hsub'
    rw [hsubs, hsub] at hsub'
    cases hsub'
    rfl

/-- **A step that finds its key free is exclusive.** -/
theorem exclusive_of_keyFree (hw : Wf R) (hleak : NoLeak R) {e : Event}
    (henabled : router.enabled R e) (hfree : KeyFree R e) : Exclusive R e := by
  suffices h : NeverReplaced R (router.next R e) ∧ NoLeak (router.next R e) from
    ⟨h.1, h.2, atMostOne_of_noLeak h.2⟩
  have hout := step_outcome R e henabled
  generalize router.next R e = R' at hout
  cases hout with
  | idle => exact ⟨neverReplaced_of_same rfl rfl, hleak⟩
  | began _ call pc hstate hplain he =>
    refine ⟨neverReplaced_of_same rfl rfl, noLeak_of_same hleak rfl rfl fun k handler hk => ?_⟩
    by_cases heq : k = R.nextCall
    · subst heq
      simp [Router.begin, hstate] at hk
    · simp only [Router.begin, Function.update_of_ne heq] at hk ⊢
      exact ⟨hk, trivial, trivial⟩
  | failed k message call pc hcall hstate =>
    have hbare : pc.onState = none := hstate.trans (hw.pending k call hcall).2
    refine ⟨neverReplaced_of_same rfl rfl, noLeak_of_same hleak rfl rfl fun j handler hj => ?_⟩
    by_cases heq : j = k
    · subst heq
      simp [hbare] at hj
    · simp only [Function.update_of_ne heq] at hj ⊢
      exact ⟨hj, trivial, trivial⟩
  | published k sdp p s kinds hcall =>
    have hnone : R.publishers.get s = none := hfree _ hcall
    refine ⟨⟨fun t pub pub' hpub hpub' => ?_, fun key sub sub' hsub hsub' => ?_⟩,
      noLeak_of_registered hleak (.unpublish s) ?_ (fun j handler hstored => ?_)
        (congrArg Pc.onState (Function.update_self k _ R.pcs))
        fun j hj => Function.update_of_ne hj _ _⟩
    · exact Option.some.inj (hpub'.symm.trans (InsertionMap.get_set_of_free hnone _ hpub))
    · exact Option.some.inj (hsub'.symm.trans hsub)
    · exact ⟨_, InsertionMap.get_set_self _ _ _, rfl⟩
    · cases handler with
      | unsubscribe q t => exact hstored
      | unpublish t =>
        obtain ⟨pub, hpub, hpc⟩ := hstored
        exact ⟨pub, InsertionMap.get_set_of_free hnone _ hpub, hpc⟩
  | subscribed k sdp p s owner hcall =>
    have hnone : R.subscriptions.get (subKey p s) = none := hfree _ hcall
    refine ⟨⟨fun t pub pub' hpub hpub' => ?_, fun key sub sub' hsub hsub' => ?_⟩,
      noLeak_of_registered hleak (.unsubscribe p s) ?_ (fun j handler hstored => ?_)
        (congrArg Pc.onState (Function.update_self k _ R.pcs))
        fun j hj => Function.update_of_ne hj _ _⟩
    · exact Option.some.inj (hpub'.symm.trans hpub)
    · exact Option.some.inj (hsub'.symm.trans (InsertionMap.get_set_of_free hnone _ hsub))
    · exact InsertionMap.get_set_self _ _ _
    · cases handler with
      | unpublish t => exact hstored
      | unsubscribe q t => exact InsertionMap.get_set_of_free hnone _ hstored
  | completed k outcome p s hcall => exact ⟨neverReplaced_of_same rfl rfl, hleak⟩
  | tracked k kind =>
    refine ⟨neverReplaced_of_same rfl rfl, noLeak_of_same hleak rfl rfl fun j handler hj => ?_⟩
    by_cases heq : j = k
    · subst heq
      simp only [Router.onTrack, Function.update_self] at hj ⊢
      exact ⟨hj, trivial, trivial⟩
    · simp only [Router.onTrack, Function.update_of_ne heq] at hj ⊢
      exact ⟨hj, trivial, trivial⟩
  | removed _ _ h => exact ⟨h.neverReplaced, h.noLeak hw hleak⟩
  | shut k R' h =>
    have hnever : NeverReplaced (R.closePc k) R' := h.neverReplaced
    exact ⟨hnever, h.noLeak (wf_closePc hw henabled) (noLeak_closePc hleak k)⟩
  | closed _ h => exact ⟨h.neverReplaced, h.noLeak hw hleak⟩

/-- **A step that does not find its key free replaces what is registered there.** -/
theorem keyFree_of_exclusive (hw : Wf R) {e : Event} (hexcl : Exclusive R e) : KeyFree R e := by
  cases e with
  | settle k outcome =>
    cases outcome with
    | failed message => trivial
    | succeeded sdp =>
      intro call hcall
      have hstep : router.next R (.settle k (.succeeded sdp))
          = (R.settle k (.succeeded sdp)).1 := rfl
      rw [Exclusive, hstep, Router.settle, hcall] at hexcl
      obtain ⟨⟨hpubs, hsubs⟩, -⟩ := hexcl
      cases call with
      | completeSubscribe p s => trivial
      | publish p s kinds =>
        cases hget : R.publishers.get s with
        | none => exact hget
        | some pub =>
          have heq := hpubs s pub _ hget (InsertionMap.get_set_self _ _ _)
          have hne := hw.ne_of_handler hcall (hw.publisher s pub hget).1
          rw [← heq] at hne
          exact absurd rfl hne
      | subscribe p s owner =>
        cases hget : R.subscriptions.get (subKey p s) with
        | none => exact hget
        | some sub =>
          have heq := hsubs _ sub _ hget (InsertionMap.get_set_self _ _ _)
          obtain ⟨_, _, _, hstate⟩ := hw.subscription _ sub hget
          have hne := hw.ne_of_handler hcall hstate
          rw [← heq] at hne
          exact absurd rfl hne
  | publish => trivial
  | subscribe => trivial
  | completeSubscribe => trivial
  | unpublish => trivial
  | unsubscribe => trivial
  | removePeer => trivial
  | track => trivial
  | stateChange => trivial
  | close => trivial

/-! ### Runs -/

theorem noLeak_new : NoLeak Router.new := by
  intro k handler h
  simp [Router.new, newPc] at h

/-- **Exclusive registration, exactly.**  Along any run of the router, with any number of calls
overlapping in any way, registration is exclusive if and only if every negotiation that succeeds
finds its key still free. -/
theorem exclusive_iff_keyFree (es : List Event) (hvalid : router.Valid Router.new es) :
    router.Along Exclusive Router.new es ↔ router.Along KeyFree Router.new es := by
  constructor
  · intro hexcl
    have hboth := Machine.along_and.mpr ⟨hvalid, hexcl⟩
    exact Machine.along_of_invariant (I := Wf) (fun R e hw h => wf_next hw e h.1)
      (fun R e hw h => keyFree_of_exclusive hw h.2) hboth wf_new
  · intro hfree
    have hboth := Machine.along_and.mpr ⟨hvalid, hfree⟩
    refine Machine.along_of_invariant (I := fun R => Wf R ∧ NoLeak R) (fun R e h hg => ?_)
      (fun R e h hg => exclusive_of_keyFree h.1 h.2 hg.1 hg.2) hboth ⟨wf_new, noLeak_new⟩
    exact ⟨wf_next h.1 e hg.1, (exclusive_of_keyFree h.1 h.2 hg.1 hg.2).2.1⟩

/-- A generated peer id for the runs below. -/
def alice : PeerId := ⟨"p_0000000a", by decide⟩

/-- Two publishes of one stream overlap, and both negotiations succeed. -/
def overlapRun : List Event :=
  [.publish alice "screen" ⟨true, false⟩, .publish alice "screen" ⟨true, false⟩,
    .settle 0 (.succeeded (some "sdp")), .settle 1 (.succeeded (some "sdp"))]

theorem overlap_run_leaks : router.Valid Router.new overlapRun ∧
    ¬ router.Along Exclusive Router.new overlapRun := by
  refine ⟨by decide +kernel, fun halong => ?_⟩
  have hstep := Machine.along_iff_split.mp halong (overlapRun.take 3)
    (.settle 1 (.succeeded (some "sdp"))) [] rfl
  rcases hstep.2.1 0 (.unpublish "screen") rfl with ⟨pub, hpub, hpc⟩ | ⟨hclosed, -⟩
  · cases hpub
    cases hpc
  · cases hclosed

/-- A stream is published, taken down and published again. -/
def republishRun : List Event :=
  [.publish alice "screen" ⟨true, false⟩, .settle 0 (.succeeded (some "sdp")), .unpublish "screen",
    .publish alice "screen" ⟨true, false⟩, .settle 1 (.succeeded (some "sdp"))]

theorem exclusive_iff_keyFree_republishRun :
    router.Along Exclusive Router.new republishRun ↔
      router.Along KeyFree Router.new republishRun :=
  exclusive_iff_keyFree republishRun (by decide +kernel)

end ScreenSharing.Sfu
