import ScreenSharing.Sfu.Registration

/-!
# Removals and negotiations in flight

A removal takes away what is registered.  What is still being negotiated is not registered yet, so a
removal does not see it, and the last segment of the call registers it afterwards.

`Session` adds to the router what the requests so far ask for: `departed` are the peers that
`removePeer` ran for, `revokedStreams` the streams for which `unpublish` ran with no newer
`publish`, and `revokedSubscriptions` the same for `unsubscribe`.  A departed peer makes no
requests; its id is not used again.

`Settled` says that the router agrees with that: nothing revoked is registered, each subscription is
one of a present peer to a published stream, and no stream belongs to a departed peer.
`settled_iff_onTime` says that this holds in every state of a run exactly when no negotiation
succeeds after it was overtaken (`OnTime`).
-/

namespace ScreenSharing.Sfu

open Lib

structure Session where
  router : Router
  departed : List PeerId
  revokedStreams : List String
  revokedSubscriptions : List (PeerId × String)

def Session.new : Session := ⟨.new, [], [], []⟩

/-- The peer whose request an event is. -/
def Event.requester : Event → Option PeerId
  | .publish p _ _ => some p
  | .subscribe p _ => some p
  | .completeSubscribe p _ => some p
  | _ => none

/-- `unpublished`, as a list. -/
def unpublishedBy (R : Router) : Event → List String
  | .unpublish s => [s]
  | .removePeer p => R.ownedBy p
  | .stateChange k state =>
    match (R.pcs k).onState with
    | some (.unpublish s) => if state.lost then [s] else []
    | _ => []
  | _ => []

/-- `unsubscribed`, as a list. -/
def unsubscribedBy (R : Router) : Event → List (PeerId × String)
  | .unsubscribe p s => [(p, s)]
  | .stateChange k state =>
    match (R.pcs k).onState with
    | some (.unsubscribe p s) => if state.lost then [(p, s)] else []
    | _ => []
  | _ => []

/-- What an event asks for, on top of what the router does. -/
def Session.track (S : Session) (e : Event) (R' : Router) : Session :=
  let S' : Session := ⟨R', S.departed, unpublishedBy S.router e ++ S.revokedStreams,
    unsubscribedBy S.router e ++ S.revokedSubscriptions⟩
  match e with
  | .publish _ s _ => { S' with revokedStreams := S'.revokedStreams.filter (· ≠ s) }
  | .subscribe p s =>
    { S' with revokedSubscriptions := S'.revokedSubscriptions.filter (· ≠ (p, s)) }
  | .removePeer p => { S' with departed := p :: S'.departed }
  | _ => S'

/-- The router with its requests: a departed peer makes none. -/
def sessions : Machine Session Event Output where
  enabled S e := router.enabled S.router e ∧ ∀ p ∈ e.requester, p ∉ S.departed
  step S e := (S.track e (react S.router e).1, (react S.router e).2)

instance (S : Session) (e : Event) : Decidable (sessions.enabled S e) :=
  inferInstanceAs (Decidable (router.enabled S.router e ∧ ∀ p ∈ e.requester, p ∉ S.departed))

/-- **The router agrees with what was asked for.** -/
structure Settled (S : Session) : Prop where
  streams : ∀ s ∈ S.revokedStreams, S.router.publishers.get s = none
  subscriptions : ∀ p s, (p, s) ∈ S.revokedSubscriptions →
    S.router.subscriptions.get (subKey p s) = none
  published : ∀ p s sub, S.router.subscriptions.get (subKey p s) = some sub →
    S.router.publishers.has s = true
  present : ∀ p s sub, S.router.subscriptions.get (subKey p s) = some sub → p ∉ S.departed
  owners : ∀ p ∈ S.departed, ∀ info ∈ S.router.listStreams, info.ownerPeerId ≠ p.text

/-- Has the call not been overtaken? -/
def Call.OnTime (S : Session) : Call → Prop
  | .publish p s _ => s ∉ S.revokedStreams ∧ p ∉ S.departed
  | .subscribe p s _ =>
    (p, s) ∉ S.revokedSubscriptions ∧ p ∉ S.departed ∧ S.router.publishers.has s = true
  | .completeSubscribe _ _ => True

/-- The condition on a step: a negotiation that succeeds was not overtaken by a removal, and the
stream of a subscription is still published. -/
def OnTime (S : Session) : Event → Prop
  | .settle k (.succeeded _) => ∀ call, S.router.negotiating.get k = some call → call.OnTime S
  | _ => True

variable {S : Session} {R R' : Router}

/-! ### The requests an event takes back -/

theorem mem_unpublishedBy {e : Event} {s : String} :
    s ∈ unpublishedBy R e ↔ unpublished R e s := by
  cases e with
  | stateChange k state =>
    show s ∈ (match (R.pcs k).onState with
      | some (.unpublish s) => if state.lost then [s] else []
      | _ => []) ↔ state.lost = true ∧ (R.pcs k).onState = some (.unpublish s)
    cases (R.pcs k).onState with
    | none => simp
    | some handler =>
      cases handler with
      | unpublish t =>
        cases state.lost with
        | false => simp
        | true => simp [eq_comm]
      | unsubscribe p t => simp
  | unpublish t => exact List.mem_singleton
  | removePeer p => exact Iff.rfl
  | publish => simp [unpublishedBy, unpublished]
  | subscribe => simp [unpublishedBy, unpublished]
  | completeSubscribe => simp [unpublishedBy, unpublished]
  | settle => simp [unpublishedBy, unpublished]
  | unsubscribe => simp [unpublishedBy, unpublished]
  | track => simp [unpublishedBy, unpublished]
  | close => simp [unpublishedBy, unpublished]

theorem mem_unsubscribedBy {e : Event} {p : PeerId} {s : String} :
    (p, s) ∈ unsubscribedBy R e ↔ unsubscribed R e p s := by
  cases e with
  | stateChange k state =>
    show (p, s) ∈ (match (R.pcs k).onState with
      | some (.unsubscribe p s) => if state.lost then [(p, s)] else []
      | _ => []) ↔ state.lost = true ∧ (R.pcs k).onState = some (.unsubscribe p s)
    cases (R.pcs k).onState with
    | none => simp
    | some handler =>
      cases handler with
      | unpublish t => simp
      | unsubscribe q t =>
        cases state.lost with
        | false => simp
        | true => simp [eq_comm]
  | unsubscribe q t => simp [unsubscribedBy, unsubscribed]
  | publish => simp [unsubscribedBy, unsubscribed]
  | subscribe => simp [unsubscribedBy, unsubscribed]
  | completeSubscribe => simp [unsubscribedBy, unsubscribed]
  | settle => simp [unsubscribedBy, unsubscribed]
  | unpublish => simp [unsubscribedBy, unsubscribed]
  | removePeer => simp [unsubscribedBy, unsubscribed]
  | track => simp [unsubscribedBy, unsubscribed]
  | close => simp [unsubscribedBy, unsubscribed]

@[simp] theorem track_router (e : Event) : (S.track e R').router = R' := by
  cases e <;> rfl

theorem mem_track_streams {e : Event} {s : String} (h : s ∈ (S.track e R').revokedStreams) :
    unpublished S.router e s ∨ s ∈ S.revokedStreams := by
  have hmem : s ∈ unpublishedBy S.router e ++ S.revokedStreams := by
    cases e with
    | publish p t kinds => exact (List.mem_filter.mp h).1
    | _ => exact h
  rcases List.mem_append.mp hmem with hnew | hold
  · exact .inl (mem_unpublishedBy.mp hnew)
  · exact .inr hold

theorem mem_track_subscriptions {e : Event} {p : PeerId} {s : String}
    (h : (p, s) ∈ (S.track e R').revokedSubscriptions) :
    unsubscribed S.router e p s ∨ (p, s) ∈ S.revokedSubscriptions := by
  have hmem : (p, s) ∈ unsubscribedBy S.router e ++ S.revokedSubscriptions := by
    cases e with
    | subscribe q t => exact (List.mem_filter.mp h).1
    | _ => exact h
  rcases List.mem_append.mp hmem with hnew | hold
  · exact .inl (mem_unsubscribedBy.mp hnew)
  · exact .inr hold

theorem mem_track_departed {e : Event} {p : PeerId} (h : p ∈ (S.track e R').departed) :
    e = .removePeer p ∨ p ∈ S.departed := by
  cases e with
  | removePeer q =>
    rcases List.mem_cons.mp h with rfl | hold
    · exact .inl rfl
    · exact .inr hold
  | _ => exact .inr h

/-! ### One step -/

theorem mem_listStreams {info : StreamInfo} :
    info ∈ R.listStreams ↔ ∃ s pub, R.publishers.get s = some pub ∧ pub.info = info := by
  simp only [Router.listStreams, List.mem_map, InsertionMap.mem_values]
  constructor
  · rintro ⟨pub, ⟨s, hpub⟩, rfl⟩
    exact ⟨s, pub, hpub, rfl⟩
  · rintro ⟨s, pub, hpub, rfl⟩
    exact ⟨pub, ⟨s, hpub⟩, rfl⟩

/-- A step that registers nothing, takes nothing back, and removes nothing. -/
theorem settled_of_same {e : Event} (h : Settled S) (hpubs : R'.publishers = S.router.publishers)
    (hsubs : R'.subscriptions = S.router.subscriptions)
    (hun : ∀ s, ¬ unpublished S.router e s) (hunsub : ∀ p s, ¬ unsubscribed S.router e p s)
    (hleave : ∀ p, e ≠ .removePeer p) : Settled (S.track e R') where
  streams := by
    intro s hs
    rw [track_router, hpubs]
    exact h.streams s ((mem_track_streams hs).resolve_left (hun s))
  subscriptions := by
    intro p s hs
    rw [track_router, hsubs]
    exact h.subscriptions p s ((mem_track_subscriptions hs).resolve_left (hunsub p s))
  published := by
    intro p s sub hsub
    rw [track_router, hsubs] at hsub
    rw [track_router, hpubs]
    exact h.published p s sub hsub
  present := by
    intro p s sub hsub hp
    rw [track_router, hsubs] at hsub
    exact h.present p s sub hsub ((mem_track_departed hp).resolve_left (hleave p))
  owners := by
    intro p hp info hinfo
    rw [track_router, Router.listStreams, hpubs] at hinfo
    exact h.owners p ((mem_track_departed hp).resolve_left (hleave p)) info hinfo

/-- **A removal takes back what it removes**: what it leaves is not revoked, and what it revokes is
gone. -/
theorem settled_of_removes {e : Event} (h : Settled S)
    (hrem : Unregisters (unpublished S.router e) (dropped S.router e) S.router R') :
    Settled (S.track e R') where
  streams := by
    intro s hs
    rw [track_router]
    by_cases hun : unpublished S.router e s
    · exact hrem.publishers_removed s hun
    · rw [hrem.publishers_kept s hun]
      exact h.streams s ((mem_track_streams hs).resolve_left hun)
  subscriptions := by
    intro p s hs
    rw [track_router]
    by_cases hdrop : dropped S.router e (subKey p s)
    · exact hrem.subscriptions_removed _ hdrop
    · rw [hrem.subscriptions_kept _ hdrop]
      refine h.subscriptions p s ((mem_track_subscriptions hs).resolve_left fun hun => ?_)
      exact hdrop (.inr (.inl ⟨p, s, hun, rfl⟩))
  published := by
    intro p s sub hsub
    rw [track_router] at hsub ⊢
    have hkept : ¬ dropped S.router e (subKey p s) := by
      intro hdrop
      rw [hrem.subscriptions_removed _ hdrop] at hsub
      cases hsub
    rw [hrem.subscriptions_kept _ hkept] at hsub
    have hpub := h.published p s sub hsub
    have hun : ¬ unpublished S.router e s := fun hun =>
      hkept (.inl ⟨s, hun, hpub, endsWith_subKey p s⟩)
    rw [InsertionMap.has, hrem.publishers_kept s hun]
    exact hpub
  present := by
    intro p s sub hsub hp
    rw [track_router] at hsub
    have hkept : ¬ dropped S.router e (subKey p s) := by
      intro hdrop
      rw [hrem.subscriptions_removed _ hdrop] at hsub
      cases hsub
    rw [hrem.subscriptions_kept _ hkept] at hsub
    refine h.present p s sub hsub ((mem_track_departed hp).resolve_left fun he => ?_)
    exact hkept (.inr (.inr ⟨p, he, (startsWith_subKey p p s).mpr rfl⟩))
  owners := by
    intro p hp info hinfo
    rw [track_router] at hinfo
    obtain ⟨s, pub, hpub, rfl⟩ := mem_listStreams.mp hinfo
    have hkept : ¬ unpublished S.router e s := by
      intro hun
      rw [hrem.publishers_removed s hun] at hpub
      cases hpub
    rw [hrem.publishers_kept s hkept] at hpub
    rcases mem_track_departed hp with rfl | hold
    · exact fun howner => hkept (mem_ownedBy.mpr ⟨pub, hpub, howner⟩)
    · exact h.owners p hold _ (mem_listStreams.mpr ⟨s, pub, hpub, rfl⟩)

theorem settled_of_close (hrem : Unregisters (fun _ => True) (fun _ => True) S.router R') :
    Settled (S.track .close R') where
  streams := by
    intro s _
    exact hrem.publishers_removed s trivial
  subscriptions := by
    intro p s _
    exact hrem.subscriptions_removed _ trivial
  published := by
    intro p s sub hsub
    rw [track_router, hrem.subscriptions_removed _ trivial] at hsub
    cases hsub
  present := by
    intro p s sub hsub
    rw [track_router, hrem.subscriptions_removed _ trivial] at hsub
    cases hsub
  owners := by
    intro p _ info hinfo
    obtain ⟨s, pub, hpub, -⟩ := mem_listStreams.mp hinfo
    rw [track_router, hrem.publishers_removed s trivial] at hpub
    cases hpub

/-- **A step that is on time keeps the router settled.** -/
theorem settled_next (h : Settled S) {e : Event} (henabled : sessions.enabled S e)
    (htime : OnTime S e) : Settled (sessions.next S e) := by
  show Settled (S.track e (router.next S.router e))
  have hout := step_outcome S.router e henabled.1
  generalize router.next S.router e = R' at hout
  cases hout with
  | idle _ hun hunsub hleave => exact settled_of_same h rfl rfl hun hunsub hleave
  | began _ call pc hstate hplain he =>
    rcases he with ⟨p, s, kinds, rfl⟩ | ⟨p, s, rfl⟩ | ⟨p, s, rfl⟩
    · exact settled_of_same h rfl rfl (fun _ h => h) (fun _ _ h => h) (fun _ h => by cases h)
    · exact settled_of_same h rfl rfl (fun _ h => h) (fun _ _ h => h) (fun _ h => by cases h)
    · exact settled_of_same h rfl rfl (fun _ h => h) (fun _ _ h => h) (fun _ h => by cases h)
  | failed k message call pc hcall hstate =>
    exact settled_of_same h rfl rfl (fun _ h => h) (fun _ _ h => h) (fun _ h => by cases h)
  | completed k outcome p s hcall =>
    exact settled_of_same h rfl rfl (fun _ h => h) (fun _ _ h => h) (fun _ h => by cases h)
  | tracked k kind =>
    exact settled_of_same h rfl rfl (fun _ h => h) (fun _ _ h => h) (fun _ h => by cases h)
  | published k sdp p s kinds hcall =>
    obtain ⟨hstream, hpresent⟩ := htime _ hcall
    constructor
    · intro t ht
      have hne : t ≠ s := fun heq => hstream (heq ▸ ht)
      exact (InsertionMap.get_set_ne _ _ hne).trans (h.streams t ht)
    · exact h.subscriptions
    · intro q t sub hsub
      have hpub := h.published q t sub hsub
      show ((S.router.publishers.set s _).get t).isSome = true
      rw [InsertionMap.get_set]
      split
      · rfl
      · exact hpub
    · exact h.present
    · intro q hq info hinfo
      obtain ⟨t, pub, hpub, rfl⟩ := mem_listStreams.mp hinfo
      change (S.router.publishers.set s _).get t = some pub at hpub
      rw [InsertionMap.get_set] at hpub
      split at hpub
      · cases hpub
        intro howner
        exact hpresent (PeerId.ext_text howner ▸ hq)
      · exact h.owners q hq _ (mem_listStreams.mpr ⟨t, pub, hpub, rfl⟩)
  | subscribed k sdp p s owner hcall =>
    obtain ⟨hsubscription, hpresent, hpub⟩ := htime _ hcall
    constructor
    · exact h.streams
    · intro q t ht
      have hne : subKey q t ≠ subKey p s := by
        intro hkey
        obtain ⟨rfl, rfl⟩ := subKey_inj.mp hkey
        exact hsubscription ht
      exact (InsertionMap.get_set_ne _ _ hne).trans (h.subscriptions q t ht)
    · intro q t sub hsub
      change (S.router.subscriptions.set (subKey p s) _).get (subKey q t) = some sub at hsub
      rw [InsertionMap.get_set] at hsub
      split at hsub
      · next hkey =>
        obtain ⟨rfl, rfl⟩ := subKey_inj.mp hkey
        exact hpub
      · exact h.published q t sub hsub
    · intro q t sub hsub
      change (S.router.subscriptions.set (subKey p s) _).get (subKey q t) = some sub at hsub
      rw [InsertionMap.get_set] at hsub
      split at hsub
      · next hkey =>
        obtain ⟨rfl, rfl⟩ := subKey_inj.mp hkey
        exact hpresent
      · exact h.present q t sub hsub
    · exact h.owners
  | removed _ _ hrem => exact settled_of_removes h hrem.toUnregisters
  | shut k R' hrem => exact settled_of_removes h hrem.of_closePc
  | closed _ hrem => exact settled_of_close hrem.toUnregisters

/-- **A negotiation that succeeds after it was overtaken leaves the router unsettled.** -/
theorem onTime_of_settled {e : Event} (h : Settled (sessions.next S e)) : OnTime S e := by
  cases e with
  | settle k outcome =>
    cases outcome with
    | failed message => trivial
    | succeeded sdp =>
      intro call hcall
      have hnext : sessions.next S (.settle k (.succeeded sdp))
          = S.track (.settle k (.succeeded sdp)) (S.router.settle k (.succeeded sdp)).1 := rfl
      rw [hnext, Router.settle, hcall] at h
      cases call with
      | completeSubscribe p s => trivial
      | publish p s kinds =>
        constructor
        · intro hs
          have hnone := h.streams s hs
          rw [track_router] at hnone
          change (S.router.publishers.set s _).get s = none at hnone
          rw [InsertionMap.get_set_self] at hnone
          cases hnone
        · intro hp
          refine h.owners p hp ⟨s, p.text, kinds.video, kinds.audio⟩ ?_ rfl
          exact mem_listStreams.mpr ⟨s, _, InsertionMap.get_set_self _ _ _, rfl⟩
      | subscribe p s owner =>
        have hget : (S.router.subscriptions.set (subKey p s) ⟨k⟩).get (subKey p s) = some ⟨k⟩ :=
          InsertionMap.get_set_self _ _ _
        refine ⟨fun hs => ?_, h.present p s _ hget, h.published p s _ hget⟩
        have hnone := h.subscriptions p s hs
        change (S.router.subscriptions.set (subKey p s) _).get (subKey p s) = none at hnone
        rw [InsertionMap.get_set_self] at hnone
        cases hnone
  | publish => trivial
  | subscribe => trivial
  | completeSubscribe => trivial
  | unpublish => trivial
  | unsubscribe => trivial
  | removePeer => trivial
  | track => trivial
  | stateChange => trivial
  | close => trivial

/-! ### Runs -/

theorem settled_new : Settled Session.new where
  streams := by intro s h; cases h
  subscriptions := by intro p s h; cases h
  published := by intro p s sub h; simp [Session.new, Router.new] at h
  present := by intro p s sub h; simp [Session.new, Router.new] at h
  owners := by intro p h; cases h

/-- **Removal wins, exactly.**  Along any run of the router, with any interleaving of requests,
removals and negotiations, every state reached is settled if and only if no negotiation succeeds
after it was overtaken. -/
theorem settled_iff_onTime (es : List Event) (hvalid : sessions.Valid Session.new es) :
    sessions.Along (fun S e => Settled (sessions.next S e)) Session.new es ↔
      sessions.Along OnTime Session.new es := by
  constructor
  · intro hsettled
    exact hsettled.mono fun S e h => onTime_of_settled h
  · intro htime
    have hboth := Machine.along_and.mpr ⟨hvalid, htime⟩
    exact Machine.along_of_invariant (I := Settled) (fun S e h hg => settled_next h hg.1 hg.2)
      (fun S e h hg => settled_next h hg.1 hg.2) hboth settled_new

/-- A stream is unpublished while its negotiation is in flight, which then succeeds. -/
def overtakenRun : List Event :=
  [.publish alice "screen" ⟨true, false⟩, .unpublish "screen", .settle 0 (.succeeded (some "sdp"))]

theorem overtaken_run_unsettled : sessions.Valid Session.new overtakenRun ∧
    (sessions.exec Session.new overtakenRun).router.negotiating = .empty ∧
    ¬ sessions.Along (fun S e => Settled (sessions.next S e)) Session.new overtakenRun := by
  refine ⟨by decide +kernel, by decide +kernel, fun halong => ?_⟩
  have hstep := Machine.along_iff_split.mp halong (overtakenRun.take 2)
    (.settle 0 (.succeeded (some "sdp"))) [] rfl
  have hnone := hstep.streams "screen" List.mem_cons_self
  cases hnone

theorem settled_iff_onTime_republishRun :
    sessions.Along (fun S e => Settled (sessions.next S e)) Session.new republishRun ↔
      sessions.Along OnTime Session.new republishRun :=
  settled_iff_onTime republishRun (by decide +kernel)

end ScreenSharing.Sfu
