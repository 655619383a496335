import ScreenSharing.Sfu.MediaPlane
import ScreenSharing.Sfu.Registration

/-!
# Whose streams a message can touch

The stream ids in a media message are chosen by the peer that sends it.  `subscribe`, `unsubscribe`
and `completeSubscribe` get the caller's id and make it part of their key; `unpublish` does not get
it, and `publish` checks only that the id is free when the negotiation starts.

`ForeignKept` says that an event caused by a peer, a message or the end of its negotiation, leaves
the publishers of all others alone, with their connections, and the subscriptions of all others,
except those to a stream of its own that it unpublishes.  `foreignKept_iff_ownRequest` says that
this holds along a run exactly when peers unpublish only streams of their own, whose id is not the
end of the key of somebody else's subscription to another stream, and no publication completes over
the stream of another peer.
-/

namespace ScreenSharing.Sfu

open Lib

variable {M : MediaPlane} {R R' : Router} {P Q : String → Prop}

/-- The peer that causes an event: the sender of a message, or of the request whose negotiation
ends. -/
def cause (M : MediaPlane) : MediaEvent → Option PeerId
  | .message p _ => some p
  | .settle k _ => (M.router.negotiating.get k).map Call.peerId
  | _ => none

/-- The publishers that are not `p`'s are still there, with the connections they had. -/
def PublishersKept (p : PeerId) (R R' : Router) : Prop :=
  ∀ s pub, R.publishers.get s = some pub → pub.info.ownerPeerId ≠ p.text →
    R'.publishers.get s = some pub ∧ R'.pcs pub.pc = R.pcs pub.pc

/-- The subscriptions of the peers other than `p` are still there, with the connections they had,
but for those to a stream in `except`. -/
def SubscriptionsKept (p : PeerId) (except : String → Prop) (R R' : Router) : Prop :=
  ∀ q s sub, q ≠ p → R.subscriptions.get (subKey q s) = some sub → ¬ except s →
    R'.subscriptions.get (subKey q s) = some sub ∧ R'.pcs sub.pc = R.pcs sub.pc

/-- The streams that the event unpublishes for their owner. -/
def OwnUnpublished (M : MediaPlane) (e : MediaEvent) (p : PeerId) (s : String) : Prop :=
  e = .message p (.unpublish s) ∧
    ∃ pub, M.router.publishers.get s = some pub ∧ pub.info.ownerPeerId = p.text

/-- **Media ownership at one step.**  The peer that causes the event does not touch the publishers
of others, does not remove or complete the subscriptions of others, except to a stream of its own
that it unpublishes. -/
def ForeignKept (M : MediaPlane) (e : MediaEvent) : Prop :=
  ∀ p, cause M e = some p →
    PublishersKept p M.router (mediaPlane.next M e).router ∧
      SubscriptionsKept p (OwnUnpublished M e p) M.router (mediaPlane.next M e).router ∧
      ∀ q s sub, q ≠ p → M.router.subscriptions.get (subKey q s) = some sub →
        MediaOutput.answered sub.pc ∉ mediaPlane.out M e

/-- The condition on a step: a peer unpublishes a published stream only if it is its own, and no
other peer has a subscription to a different stream whose key ends with its id; and a publication
completes only over nothing or over a stream of the same owner. -/
def OwnRequest (M : MediaPlane) : MediaEvent → Prop
  | .message p (.unpublish s) => ∀ pub, M.router.publishers.get s = some pub →
      pub.info.ownerPeerId = p.text ∧
        ∀ q t sub, q ≠ p → M.router.subscriptions.get (subKey q t) = some sub →
          endsWith (subKey q t) ("::" ++ s) = true → t = s
  | .settle k (.succeeded _) => ∀ p s kinds,
      M.router.negotiating.get k = some (.publish p s kinds) →
        ∀ pub, M.router.publishers.get s = some pub → pub.info.ownerPeerId = p.text
  | _ => True

/-! ### Steps of the router -/

theorem publishersKept_of_removes {p : PeerId} (hw : Wf R) (h : Removes P Q R R')
    (hP : ∀ s pub, R.publishers.get s = some pub → P s → pub.info.ownerPeerId = p.text) :
    PublishersKept p R R' := by
  intro s pub hpub howner
  have hs : ¬ P s := fun hs => howner (hP s pub hpub hs)
  exact ⟨(h.publishers_kept s hs).trans hpub, h.keeps_publisher hw hpub hs⟩

theorem subscriptionsKept_of_removes {p : PeerId} {except : String → Prop} (hw : Wf R)
    (h : Removes P Q R R')
    (hQ : ∀ q s sub, q ≠ p → R.subscriptions.get (subKey q s) = some sub → Q (subKey q s) →
      except s) : SubscriptionsKept p except R R' := by
  intro q s sub hq hsub hexcept
  have hkey : ¬ Q (subKey q s) := fun hkey => hexcept (hQ q s sub hq hsub hkey)
  exact ⟨(h.subscriptions_kept _ hkey).trans hsub, h.keeps_subscription hw hsub hkey⟩

/-- Starting a call touches nothing that is registered. -/
theorem kept_of_begin (hw : Wf R) (p : PeerId) (except : String → Prop) (call : Call) (pc : Pc) :
    PublishersKept p R (R.begin call pc) ∧ SubscriptionsKept p except R (R.begin call pc) := by
  constructor
  · intro s pub hpub _
    have hne : pub.pc ≠ R.nextCall := Nat.ne_of_lt (hw.lt_of_handler (hw.publisher s pub hpub).1)
    exact ⟨hpub, Function.update_of_ne hne _ _⟩
  · intro q s sub _ hsub _
    obtain ⟨_, _, _, hstate⟩ := hw.subscription _ sub hsub
    have hne : sub.pc ≠ R.nextCall := Nat.ne_of_lt (hw.lt_of_handler hstate)
    exact ⟨hsub, Function.update_of_ne hne _ _⟩

theorem kept_refl (p : PeerId) (except : String → Prop) (R : Router) :
    PublishersKept p R R ∧ SubscriptionsKept p except R R :=
  ⟨fun _ _ hpub _ => ⟨hpub, rfl⟩, fun _ _ _ _ hsub _ => ⟨hsub, rfl⟩⟩

/-- The end of `p`'s own call touches the connection of that call, and the key it names. -/
theorem kept_of_settle (hw : Wf R) {k : ℕ} {call : Call}
    (hcall : R.negotiating.get k = some call) (outcome : Negotiation) (except : String → Prop)
    (hown : ∀ p s kinds, call = .publish p s kinds → (∃ sdp, outcome = .succeeded sdp) →
      ∀ pub, R.publishers.get s = some pub → pub.info.ownerPeerId = p.text) :
    PublishersKept call.peerId R (R.settle k outcome).1 ∧
      SubscriptionsKept call.peerId except R (R.settle k outcome).1 := by
  have hpubpc : ∀ s pub, R.publishers.get s = some pub → pub.pc ≠ k := fun s pub hpub =>
    hw.ne_of_handler hcall (hw.publisher s pub hpub).1
  have hsubpc : ∀ key sub, R.subscriptions.get key = some sub → sub.pc ≠ k := by
    intro key sub hsub
    obtain ⟨_, _, _, hstate⟩ := hw.subscription key sub hsub
    exact hw.ne_of_handler hcall hstate
  have hpending : R.negotiating.has k = true := (InsertionMap.has_iff _ _).mpr ⟨call, hcall⟩
  have hout := settle_outcome outcome hpending
  generalize (R.settle k outcome).1 = R' at hout
  cases hout with
  | idle => exact kept_refl _ _ _
  | began _ _ _ _ _ he =>
    rcases he with ⟨_, _, _, he⟩ | ⟨_, _, he⟩ | ⟨_, _, he⟩ <;> cases he
  | failed k message call' pc hcall' hstate =>
    exact ⟨fun s pub hpub _ => ⟨hpub, Function.update_of_ne (hpubpc s pub hpub) _ _⟩,
      fun q s sub _ hsub _ => ⟨hsub, Function.update_of_ne (hsubpc _ sub hsub) _ _⟩⟩
  | published k sdp p s kinds hcall' =>
    have heq : call = .publish p s kinds := Option.some.inj (hcall.symm.trans hcall')
    subst heq
    refine ⟨fun t pub hpub howner => ⟨?_, Function.update_of_ne (hpubpc t pub hpub) _ _⟩,
      fun q t sub _ hsub _ => ⟨hsub, Function.update_of_ne (hsubpc _ sub hsub) _ _⟩⟩
    have hne : t ≠ s := by
      rintro rfl
      exact howner (hown p t kinds rfl ⟨sdp, rfl⟩ pub hpub)
    exact (InsertionMap.get_set_ne _ _ hne).trans hpub
  | subscribed k sdp p s owner hcall' =>
    have heq : call = .subscribe p s owner := Option.some.inj (hcall.symm.trans hcall')
    subst heq
    refine ⟨fun t pub hpub _ => ⟨hpub, Function.update_of_ne (hpubpc t pub hpub) _ _⟩,
      fun q t sub hq hsub _ => ⟨?_, Function.update_of_ne (hsubpc _ sub hsub) _ _⟩⟩
    have hne : subKey q t ≠ subKey p s := fun hkey => hq (subKey_inj.mp hkey).1
    exact (InsertionMap.get_set_ne _ _ hne).trans hsub
  | completed k outcome p s hcall' => exact kept_refl _ _ _
  | removed _ _ h =>
    exact ⟨publishersKept_of_removes hw h fun _ _ _ hs => hs.elim,
      subscriptionsKept_of_removes hw h fun q s sub _ _ hkey => by
        rcases hkey with ⟨_, hs, -⟩ | ⟨_, _, hs, -⟩ | ⟨_, hs, -⟩
        · exact hs.elim
        · exact hs.elim
        · cases hs⟩

/-! ### What `answered` says -/

theorem answered_of_onOutput {pc : ℕ} {o : Output}
    (h : MediaOutput.answered pc ∈ (M.onOutput o).2) : o = .answered pc := by
  cases o with
  | answered pc' =>
    have heq : MediaOutput.answered pc = .answered pc' := List.mem_singleton.mp h
    cases heq
    rfl
  | streamLive info => simp [MediaPlane.onOutput] at h
  | streamEnded s => simp [MediaPlane.onOutput] at h
  | demandChanged s owner n =>
    by_cases hn : n = 0
    · simp [MediaPlane.onOutput, hn] at h
    · simp only [MediaPlane.onOutput, if_neg hn] at h
      split at h <;> simp at h
  | resolved call sdp => cases call <;> simp [MediaPlane.onOutput, replyTo] at h
  | rejected call message => simp [MediaPlane.onOutput] at h

/-- The media plane passes on the answers that the router sets, and makes none up. -/
theorem answered_of_onOutputs {pc : ℕ} (os : List Output) : ∀ M : MediaPlane,
    MediaOutput.answered pc ∈ (M.onOutputs os).2 → Output.answered pc ∈ os := by
  induction os with
  | nil => intro M h; cases h
  | cons o os ih =>
    intro M h
    have hstep : (M.onOutputs (o :: os)).2 =
        (M.onOutput o).2 ++ ((M.onOutput o).1.onOutputs os).2 :=
      rfl
    rw [hstep] at h
    rcases List.mem_append.mp h with hhead | htail
    · rw [answered_of_onOutput hhead]
      exact List.mem_cons_self
    · exact List.mem_cons_of_mem _ (ih _ htail)

/-- `settle` sets no answer. -/
theorem not_answered_settle {pc k : ℕ} {outcome : Negotiation} :
    Output.answered pc ∉ (R.settle k outcome).2 := by
  intro h
  unfold Router.settle at h
  split at h
  · cases h
  · next call hcall =>
    have hmust : ∀ sdp, Output.answered pc ≠ Router.mustSdp call sdp := by
      intro sdp heq
      cases sdp with
      | none => cases heq
      | some text =>
        rw [Router.mustSdp] at heq
        split at heq <;> cases heq
    cases call <;> cases outcome <;>
      simp [Router.settlePublish, Router.settleSubscribe, Router.settleComplete, Router.emitDemand,
        hmust] at h

/-- The router sets an answer on the caller's own subscription. -/
theorem answered_own {p q : PeerId} {s t : String} {sub : Subscription} (hw : Wf R)
    (hsub : R.subscriptions.get (subKey q t) = some sub)
    (h : Output.answered sub.pc ∈ (R.completeSubscribe p s).2) : q = p := by
  unfold Router.completeSubscribe at h
  dsimp only at h
  split at h
  · simp at h
  · next own hown =>
    have hpc : sub.pc = own.pc := by simpa using h
    obtain ⟨q', t', hkey, hstate⟩ := hw.subscription _ sub hsub
    obtain ⟨p', s', hkey', hstate'⟩ := hw.subscription _ own hown
    rw [hpc, hstate'] at hstate
    cases hstate
    exact (subKey_inj.mp (hkey.trans hkey'.symm)).1

/-- Of the calls a message can make, only `completeSubscribe` sets an answer. -/
theorem answered_request {p q : PeerId} {t : String} {sub : Subscription} {body : Body} {e : Event}
    (hw : Wf R) (hreq : request p body = some e)
    (hsub : R.subscriptions.get (subKey q t) = some sub)
    (h : Output.answered sub.pc ∈ (react R e).2) : q = p := by
  have hdemand : ∀ (R : Router) (s : String), Output.answered sub.pc ∉ R.demandOf s := by
    intro R s hmem
    unfold Router.demandOf at hmem
    split at hmem <;> simp [Router.emitDemand] at hmem
  cases body with
  | publishOffer s video audio sdp =>
    cases hreq
    change _ ∈ (R.publish p s ⟨video, audio⟩).2 at h
    unfold Router.publish at h
    dsimp only at h
    split at h
    · simp at h
    · split at h <;> simp at h
  | unpublish s =>
    cases hreq
    change _ ∈ (R.unpublish s).2 at h
    unfold Router.unpublish at h
    split at h <;> simp at h
  | subscribe s =>
    cases hreq
    change _ ∈ (R.subscribe p s).2 at h
    unfold Router.subscribe at h
    dsimp only at h
    split at h
    · simp at h
    · split at h
      · simp at h
      · split at h
        · simp at h
        · split at h <;> simp at h
  | subscribeAnswer s sdp =>
    cases hreq
    exact answered_own hw hsub h
  | unsubscribe s =>
    cases hreq
    change _ ∈ (R.unsubscribe p s).2 at h
    unfold Router.unsubscribe at h
    dsimp only at h
    split at h
    · simp at h
    · exact absurd h (hdemand _ _)
  | _ => cases hreq

/-! ### Events of the media plane -/

theorem foreignKept_message (hw : Wf M.router) {p : PeerId} {body : Body}
    (hown : OwnRequest M (.message p body)) : ForeignKept M (.message p body) := by
  intro p' hp'
  cases hp'
  rw [next_router]
  cases hreq : routerEvent (.message p body) with
  | none =>
    have hout : mediaPlane.out M (.message p body) = [] := by
      cases body <;> first | rfl | cases hreq
    rw [hout]
    obtain ⟨hpubs, hsubs⟩ := kept_refl p (OwnUnpublished M (.message p body) p) M.router
    exact ⟨hpubs, hsubs, fun _ _ _ _ _ h => by cases h⟩
  | some e =>
    have hanswer : ∀ q s sub, q ≠ p → M.router.subscriptions.get (subKey q s) = some sub →
        MediaOutput.answered sub.pc ∉ mediaPlane.out M (.message p body) := by
      intro q s sub hq hsub hmem
      have hroute : mediaPlane.out M (.message p body) = (M.route e).2 := by
        cases body <;> first | (cases hreq; rfl) | cases hreq
      rw [hroute] at hmem
      exact hq (answered_request hw hreq hsub (answered_of_onOutputs _ _ hmem))
    suffices hkept : PublishersKept p M.router (router.next M.router e) ∧
        SubscriptionsKept p (OwnUnpublished M (.message p body) p) M.router
          (router.next M.router e) from ⟨hkept.1, hkept.2, hanswer⟩
    cases body with
    | publishOffer s video audio sdp =>
      cases hreq
      show PublishersKept p _ (M.router.publish p s _).1 ∧
        SubscriptionsKept p _ _ (M.router.publish p s _).1
      unfold Router.publish
      dsimp only
      split
      · exact kept_refl _ _ _
      · split
        · exact kept_refl _ _ _
        · exact kept_of_begin hw _ _ _ _
    | unpublish s =>
      cases hreq
      have hrem := removes_unpublish s M.router
      constructor
      · refine publishersKept_of_removes hw hrem fun t pub hpub ht => ?_
        subst ht
        exact (hown pub hpub).1
      · refine subscriptionsKept_of_removes hw hrem fun q t sub hq hsub hkey => ?_
        obtain ⟨hhas, hend⟩ := hkey
        obtain ⟨pub, hpub⟩ := (InsertionMap.has_iff _ _).mp hhas
        have ht : t = s := (hown pub hpub).2 q t sub hq hsub hend
        subst ht
        exact ⟨rfl, pub, hpub, (hown pub hpub).1⟩
    | subscribe s =>
      cases hreq
      show PublishersKept p _ (M.router.subscribe p s).1 ∧
        SubscriptionsKept p _ _ (M.router.subscribe p s).1
      unfold Router.subscribe
      dsimp only
      split
      · exact kept_refl _ _ _
      · split
        · exact kept_refl _ _ _
        · split
          · exact kept_refl _ _ _
          · split
            · exact kept_refl _ _ _
            · exact kept_of_begin hw _ _ _ _
    | subscribeAnswer s sdp =>
      cases hreq
      show PublishersKept p _ (M.router.completeSubscribe p s).1 ∧
        SubscriptionsKept p _ _ (M.router.completeSubscribe p s).1
      unfold Router.completeSubscribe
      dsimp only
      split
      · exact kept_refl _ _ _
      · exact kept_of_begin hw _ _ _ _
    | unsubscribe s =>
      cases hreq
      have hrem := removes_unsubscribe p s M.router
      constructor
      · exact publishersKept_of_removes hw hrem fun _ _ _ h => h.elim
      · refine subscriptionsKept_of_removes hw hrem fun q t sub hq _ hkey => ?_
        exact absurd (subKey_inj.mp hkey).1 hq
    | _ => cases hreq

theorem foreignKept_settle (hw : Wf M.router) {k : ℕ} {outcome : Negotiation}
    (hown : OwnRequest M (.settle k outcome)) : ForeignKept M (.settle k outcome) := by
  intro p hp
  obtain ⟨call, hcall, rfl⟩ := Option.map_eq_some_iff.mp hp
  rw [next_router]
  obtain ⟨hpubs, hsubs⟩ := kept_of_settle hw hcall outcome
    (OwnUnpublished M (.settle k outcome) call.peerId) fun q s kinds heq hok pub hpub => by
      obtain ⟨sdp, rfl⟩ := hok
      subst heq
      exact hown q s kinds hcall pub hpub
  refine ⟨hpubs, hsubs, fun q s sub _ _ hmem => ?_⟩
  exact not_answered_settle (answered_of_onOutputs _ _ hmem)

/-- **A request for what is one's own leaves everybody else's streams alone.** -/
theorem foreignKept_of_ownRequest (hw : Wf M.router) {e : MediaEvent} (hown : OwnRequest M e) :
    ForeignKept M e := by
  cases e with
  | message p body => exact foreignKept_message hw hown
  | settle k outcome => exact foreignKept_settle hw hown
  | peerGone => intro p hp; cases hp
  | track => intro p hp; cases hp
  | stateChange => intro p hp; cases hp
  | runGovernor => intro p hp; cases hp
  | close => intro p hp; cases hp

/-- **A request for what is not one's own reaches somebody else's streams.** -/
theorem ownRequest_of_foreignKept (hw : Wf M.router) {e : MediaEvent} (hkept : ForeignKept M e) :
    OwnRequest M e := by
  cases e with
  | message p body =>
    cases body with
    | unpublish s =>
      intro pub hpub
      obtain ⟨hpubs, hsubs, -⟩ := hkept p rfl
      have hrem := removes_unpublish s M.router
      have hhas : M.router.publishers.has s = true := (InsertionMap.has_iff _ _).mpr ⟨pub, hpub⟩
      have howner : pub.info.ownerPeerId = p.text := by
        by_contra hne
        have hget := (hpubs s pub hpub hne).1
        rw [next_router] at hget
        exact absurd ((hrem.publishers_removed s rfl).symm.trans hget) (by simp)
      refine ⟨howner, fun q t sub hq hsub hend => ?_⟩
      by_contra hne
      have hexcept : ¬ OwnUnpublished M (.message p (.unpublish s)) p t := by
        rintro ⟨heq, -⟩
        cases heq
        exact hne rfl
      have hget := (hsubs q t sub hq hsub hexcept).1
      rw [next_router] at hget
      exact absurd ((hrem.subscriptions_removed _ ⟨hhas, hend⟩).symm.trans hget) (by simp)
    | _ => trivial
  | settle k outcome =>
    cases outcome with
    | failed message => trivial
    | succeeded sdp =>
      intro p s kinds hcall pub hpub
      by_contra hne
      have hp : cause M (.settle k (.succeeded sdp)) = some p := by
        rw [cause, hcall]
        rfl
      have hget := ((hkept p hp).1 s pub hpub hne).1
      rw [next_router] at hget
      change (M.router.settle k (.succeeded sdp)).1.publishers.get s = some pub at hget
      rw [Router.settle, hcall] at hget
      change (M.router.publishers.set s _).get s = some pub at hget
      rw [InsertionMap.get_set_self] at hget
      cases hget
      exact hw.ne_of_handler hcall (hw.publisher s _ hpub).1 rfl
  | peerGone => trivial
  | track => trivial
  | stateChange => trivial
  | runGovernor => trivial
  | close => trivial

/-! ### Runs -/

/-- **Media ownership, exactly.**  Along any run of the media plane, no message and no end of a
negotiation touches the streams or subscriptions of another peer if and only if every request is for
what is the peer's own. -/
theorem foreignKept_iff_ownRequest (videoBitrateKbps : ℚ) (es : List MediaEvent)
    (hvalid : mediaPlane.Valid (.new videoBitrateKbps) es) :
    mediaPlane.Along ForeignKept (.new videoBitrateKbps) es ↔
      mediaPlane.Along OwnRequest (.new videoBitrateKbps) es := by
  refine Machine.along_congr (I := fun M => Wf M.router)
    (fun M e hw henabled => wf_mediaPlane_next hw henabled) (fun M e hw _ => ?_) hvalid wf_new
  constructor
  · intro hkept
    exact ownRequest_of_foreignKept hw hkept
  · intro hown
    exact foreignKept_of_ownRequest hw hown

def bob : PeerId := ⟨"p_0000000b", by decide⟩

/-- A peer publishes a stream, and another peer unpublishes it. -/
def strangerRun : List MediaEvent :=
  [.message alice (.publishOffer "screen" true false "offer"), .settle 0 (.succeeded (some "sdp")),
    .message bob (.unpublish "screen")]

theorem stranger_run_unpublishes : mediaPlane.Valid (.new 2500) strangerRun ∧
    ¬ mediaPlane.Along ForeignKept (.new 2500) strangerRun := by
  refine ⟨by decide +kernel, fun halong => ?_⟩
  have hstep := Machine.along_iff_split.mp halong (strangerRun.take 2)
    (.message bob (.unpublish "screen")) [] rfl
  have hget := ((hstep bob rfl).1 "screen" ⟨0, ⟨"screen", "p_0000000a", true, false⟩⟩ rfl
    (by decide)).1
  cases hget

/-- A peer publishes a stream and takes it down again. -/
def ownerRun : List MediaEvent :=
  [.message alice (.publishOffer "screen" true false "offer"), .settle 0 (.succeeded (some "sdp")),
    .message alice (.unpublish "screen")]

theorem foreignKept_iff_ownRequest_ownerRun :
    mediaPlane.Along ForeignKept (.new 2500) ownerRun ↔
      mediaPlane.Along OwnRequest (.new 2500) ownerRun :=
  foreignKept_iff_ownRequest 2500 ownerRun (by decide +kernel)

end ScreenSharing.Sfu
