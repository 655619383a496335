import ScreenSharing.Sfu.Runs

/-!
# After close

`close` drops every subscription, closes the connection of every publisher and empties both tables, and no call
begins after it.  A publisher's connection reports in the call that closes it, while the stream is still registered,
so that its handler unpublishes the stream: the end of each stream that is on the air is announced (`close_out`).

A call that was in flight does not ask again whether the router is closed: if its negotiation succeeds, it
registers its connection, and nothing will close that.  `closed_stays_vacant_iff` says that this is the one way in
which a closed router comes to hold anything.
-/

namespace ScreenSharing.Sfu

open Lib

variable {R R' : Router}

/-- Nothing is registered. -/
def Router.Vacant (R : Router) : Prop :=
  (∀ s, R.publishers.get s = none) ∧ ∀ key, R.subscriptions.get key = none

/-- Does the call register a connection when it succeeds? -/
def Call.registers : Call → Bool
  | .publish .. | .subscribe .. => true
  | .completeSubscribe .. => false

/-- The event is the successful end of a call that registers its connection. -/
def Registers (R : Router) : Event → Prop
  | .settle k (.succeeded _) => ∃ call ∈ R.negotiating.get k, call.registers = true
  | _ => False

/-! ### The router stays closed -/

theorem closed_settle (k : ℕ) (outcome : Negotiation) (R : Router) :
    (R.settle k outcome).1.closed = R.closed := by
  unfold Router.settle
  split
  · rfl
  · next call hcall =>
    cases call with
    | publish p s kinds => cases outcome <;> rfl
    | subscribe p s owner => cases outcome <;> rfl
    | completeSubscribe p s => cases outcome <;> rfl

theorem closed_next (e : Event) (hclosed : R.closed = true) : (router.next R e).closed = true := by
  cases e with
  | publish p s kinds =>
    show (R.publish p s kinds).1.closed = true
    unfold Router.publish
    rw [if_pos hclosed]
    exact hclosed
  | subscribe p s =>
    show (R.subscribe p s).1.closed = true
    unfold Router.subscribe
    rw [if_pos hclosed]
    exact hclosed
  | completeSubscribe p s =>
    show (R.completeSubscribe p s).1.closed = true
    unfold Router.completeSubscribe
    dsimp only
    split
    · exact hclosed
    · exact hclosed
  | settle k outcome => exact (closed_settle k outcome R).trans hclosed
  | unpublish s => exact (closed_unpublish s R).trans hclosed
  | unsubscribe p s => exact (closed_unsubscribe p s R).trans hclosed
  | removePeer p => exact (closed_removePeer p R).trans hclosed
  | track k kind => exact hclosed
  | stateChange k state =>
    show (R.onStateChange k state).1.closed = true
    have hreported : (R.reported k state).closed = true := (closed_reported k state R).trans hclosed
    unfold Router.onStateChange
    dsimp only
    split
    · split
      · exact hreported
      · exact (closed_unpublish _ _).trans hreported
      · exact (closed_unsubscribe _ _ _).trans hreported
    · exact hreported
  | close => exact closed_close R

/-! ### What it announces -/

/-- The ids of the streams that come in over an open connection. -/
def Router.onAir (R : Router) : List String :=
  (R.publishers.entries.filter fun e => !(R.pcs e.2.pc).closed).map Prod.fst

/-- The handlers of the publishers' connections name their streams. -/
def Handled (R : Router) (es : List (String × Publisher)) : Prop :=
  ∀ s pub, (s, pub) ∈ es →
    R.publishers.get s = some pub ∧ (R.pcs pub.pc).onState = some (.unpublish s)

/-- Where nobody is subscribed, an open connection that closes takes its stream away. -/
theorem closePublisher_open (hnone : R.subscriptions.entries = []) {s : String} {pub : Publisher}
    (hpub : R.publishers.get s = some pub) (hhandler : (R.pcs pub.pc).onState = some (.unpublish s))
    (hopen : ¬ (R.pcs pub.pc).closed = true) :
    R.closePublisher pub = (dropPublisher s pub (R.closePc pub.pc), [.streamEnded s]) := by
  have hreport : R.onStateChange pub.pc .closed = (R.closePc pub.pc).unpublish s := by
    simp [Router.onStateChange, Router.reported, PcState.lost, hhandler]
  rw [Router.closePublisher, if_neg hopen, hreport]
  exact unpublish_of_no_subscriptions (R := R.closePc pub.pc) hnone hpub

/-- The connections that the loop has not come to are not touched. -/
theorem handled_after {s : String} {pub : Publisher} {es : List (String × Publisher)}
    (hfresh : s ∉ es.map Prod.fst) (hhandler : (R.pcs pub.pc).onState = some (.unpublish s))
    (h : Handled R es) :
    Handled (dropPublisher s pub (R.closePc pub.pc)) es ∧
      ∀ e ∈ es, (dropPublisher s pub (R.closePc pub.pc)).pcs e.2.pc = R.pcs e.2.pc := by
  have hpc : ∀ e ∈ es, (dropPublisher s pub (R.closePc pub.pc)).pcs e.2.pc = R.pcs e.2.pc := by
    rintro ⟨t, other⟩ hmem
    have hne : other.pc ≠ pub.pc := by
      intro heq
      have hother := (h t other hmem).2
      rw [heq, hhandler] at hother
      cases hother
      exact hfresh (List.mem_map_of_mem hmem)
    simp [dropPublisher, Router.closePc, Function.update_of_ne hne]
  refine ⟨fun t other hmem => ?_, hpc⟩
  have hne : t ≠ s := by
    rintro rfl
    exact hfresh (List.mem_map_of_mem hmem)
  rw [hpc (t, other) hmem]
  exact ⟨(InsertionMap.get_delete_ne _ hne).trans (h t other hmem).1, (h t other hmem).2⟩

/-- **What the loop of `close` announces**, in a router where nobody is subscribed. -/
theorem closePublishers_out (es : List (String × Publisher)) : ∀ R : Router,
    R.subscriptions.entries = [] → (es.map Prod.fst).Nodup → Handled R es →
      (R.closePublishers (es.map Prod.snd)).2 =
        (es.filter fun e => !(R.pcs e.2.pc).closed).map fun e => .streamEnded e.1 := by
  induction es with
  | nil => exact fun R _ _ _ => rfl
  | cons e es ih =>
    intro R hnone hnodup h
    obtain ⟨s, pub⟩ := e
    rw [List.map_cons, List.nodup_cons] at hnodup
    have hrest : Handled R es := fun t other hmem => h t other (List.mem_cons_of_mem _ hmem)
    obtain ⟨hpub, hhandler⟩ := h s pub List.mem_cons_self
    show (R.closePublisher pub).2 ++ ((R.closePublisher pub).1.closePublishers (es.map Prod.snd)).2 = _
    by_cases hopen : (R.pcs pub.pc).closed = true
    · have hskip : R.closePublisher pub = (R, []) := by
        rw [Router.closePublisher, if_pos hopen]
      rw [hskip, ih R hnone hnodup.2 hrest, List.filter_cons_of_neg (by simp [hopen])]
      rfl
    · obtain ⟨hhandled, hpcs⟩ := handled_after hnodup.1 hhandler hrest
      rw [closePublisher_open hnone hpub hhandler hopen,
        ih (dropPublisher s pub (R.closePc pub.pc)) hnone hnodup.2 hhandled,
        List.filter_cons_of_pos (by simp [hopen]), List.map_cons, List.singleton_append]
      congr 2
      refine List.filter_congr fun e hmem => ?_
      rw [hpcs e hmem]

theorem publishers_dropWhere (p : String → Bool) (entries : List (String × Subscription)) :
    ∀ R : Router, (R.dropWhere p entries).publishers = R.publishers := by
  induction entries with
  | nil => intro R; rfl
  | cons entry entries ih =>
    intro R
    obtain ⟨key, sub⟩ := entry
    show (Router.dropWhere p entries (if p key then R.dropSubscription key sub else R)).publishers = _
    rw [ih]
    split <;> rfl

/-- **What `close` announces**: the end of each stream that is on the air. -/
theorem close_out (hw : Wf R) : R.close.2 = R.onAir.map .streamEnded := by
  have hremoves := removes_withoutSubscriptions R
  have hpubs : (withoutSubscriptions R).publishers = R.publishers := publishers_dropWhere _ _ _
  have hsame : ∀ s pub, (s, pub) ∈ R.publishers.entries →
      R.publishers.get s = some pub ∧ (withoutSubscriptions R).pcs pub.pc = R.pcs pub.pc := by
    intro s pub hmem
    have hpub := (InsertionMap.mem_entries _ _ _).mp hmem
    exact ⟨hpub, hremoves.keeps_publisher hw hpub id⟩
  have hout := closePublishers_out R.publishers.entries (withoutSubscriptions R) (no_subscriptions R)
    R.publishers.nodup fun s pub hmem => by
      rw [hpubs, (hsame s pub hmem).2]
      exact ⟨(hsame s pub hmem).1, (hw.publisher s pub (hsame s pub hmem).1).1⟩
  show ((withoutSubscriptions R).closePublishers (withoutSubscriptions R).publishers.values).2 = _
  rw [hpubs]
  refine hout.trans ?_
  rw [Router.onAir, List.map_map]
  congr 1
  refine List.filter_congr fun e hmem => ?_
  rw [(hsame e.1 e.2 hmem).2]

/-! ### What it holds -/

theorem vacant_close (R : Router) : R.close.1.Vacant := by
  have h := removes_close R
  exact ⟨fun s => h.publishers_removed s trivial, fun key => h.subscriptions_removed key trivial⟩

/-- A removal leaves nothing where nothing is. -/
theorem Unregisters.vacant {P Q : String → Prop} (h : Unregisters P Q R R') (hvacant : R.Vacant) : R'.Vacant := by
  constructor
  · intro s
    by_cases hs : P s
    · exact h.publishers_removed s hs
    · rw [h.publishers_kept s hs, hvacant.1 s]
  · intro key
    by_cases hkey : Q key
    · exact h.subscriptions_removed key hkey
    · rw [h.subscriptions_kept key hkey, hvacant.2 key]

/-- Nothing is registered by an event that ends no call. -/
theorem vacant_next {e : Event} (hvacant : R.Vacant) (he : router.enabled R e)
    (hother : ∀ k outcome, e ≠ .settle k outcome) : (router.next R e).Vacant := by
  have houtcome := step_outcome R e he
  generalize router.next R e = R' at houtcome ⊢
  cases houtcome with
  | idle e h h' h'' => exact hvacant
  | began e call pc h hpub he => exact hvacant
  | failed k message call pc hget hstate => exact absurd rfl (hother _ _)
  | published k sdp p s kinds hget => exact absurd rfl (hother _ _)
  | subscribed k sdp p s owner hget => exact absurd rfl (hother _ _)
  | completed k outcome p s hget => exact absurd rfl (hother _ _)
  | tracked k kind => exact hvacant
  | removed e R' h => exact h.vacant hvacant
  | shut k R' h => exact h.of_closePc.vacant hvacant
  | closed R' h => exact h.vacant hvacant

/-- The end of a call registers something exactly if it is a success of a call that registers. -/
theorem vacant_settle_iff {k : ℕ} {outcome : Negotiation} (hvacant : R.Vacant)
    (he : router.enabled R (.settle k outcome)) :
    (R.settle k outcome).1.Vacant ↔ ¬ Registers R (.settle k outcome) := by
  obtain ⟨call, hget⟩ := (InsertionMap.has_iff _ _).1 (show R.negotiating.has k = true from he)
  unfold Router.settle
  rw [hget]
  cases outcome with
  | failed message =>
    refine ⟨fun _ h => h, fun _ => ?_⟩
    cases call with
    | publish p s kinds => exact hvacant
    | subscribe p s owner => exact hvacant
    | completeSubscribe p s => exact hvacant
  | succeeded sdp =>
    have hregisters : Registers R (.settle k (.succeeded sdp)) ↔ call.registers = true := by
      constructor
      · intro h
        obtain ⟨call', hget', hregisters⟩ := h
        obtain rfl : call = call' := Option.some.inj (hget.symm.trans hget')
        exact hregisters
      · exact fun h => ⟨call, hget, h⟩
    rw [hregisters]
    cases call with
    | publish p s kinds =>
      refine ⟨fun h => ?_, fun h => absurd rfl h⟩
      exact absurd ((InsertionMap.get_set_self ..).symm.trans (h.1 s)) nofun
    | subscribe p s owner =>
      refine ⟨fun h => ?_, fun h => absurd rfl h⟩
      exact absurd ((InsertionMap.get_set_self ..).symm.trans (h.2 (subKey p s))) nofun
    | completeSubscribe p s =>
      refine ⟨fun _ h => ?_, fun _ => hvacant⟩
      cases h

theorem vacant_next_iff {e : Event} (hvacant : R.Vacant) (he : router.enabled R e) :
    (router.next R e).Vacant ↔ ¬ Registers R e := by
  by_cases hsettle : ∃ k outcome, e = .settle k outcome
  · obtain ⟨k, outcome, rfl⟩ := hsettle
    exact vacant_settle_iff hvacant he
  · have hregisters : ¬ Registers R e := by
      intro h
      cases e with
      | settle k outcome => exact hsettle ⟨k, outcome, rfl⟩
      | _ => exact h
    have hnext := vacant_next hvacant he fun k outcome h => hsettle ⟨k, outcome, h⟩
    exact ⟨fun _ => hregisters, fun _ => hnext⟩

/-- No call begins that would register something. -/
def NoneBegins (R R' : Router) : Prop :=
  ∀ k call, call.registers = true → R'.negotiating.get k = some call → R.negotiating.get k = some call

theorem noneBegins_of_eq (h : R'.negotiating = R.negotiating) : NoneBegins R R' := by
  intro k call _ hget
  rw [h] at hget
  exact hget

theorem noneBegins_completeSubscribe (p : PeerId) (s : String) : NoneBegins R (R.completeSubscribe p s).1 := by
  unfold Router.completeSubscribe
  dsimp only
  split
  · exact noneBegins_of_eq rfl
  · intro k call hregisters hget
    have hget' : (R.negotiating.set R.nextCall (.completeSubscribe p s)).get k = some call := hget
    by_cases hk : k = R.nextCall
    · rw [hk, InsertionMap.get_set_self] at hget'
      obtain rfl : Call.completeSubscribe p s = call := Option.some.inj hget'
      cases hregisters
    · rw [InsertionMap.get_set_ne _ _ hk] at hget'
      exact hget'

theorem noneBegins_next {e : Event} (hclosed : R.closed = true) (he : router.enabled R e) :
    NoneBegins R (router.next R e) := by
  have hdelete : ∀ {R' : Router} (k : ℕ), R'.negotiating = R.negotiating.delete k → NoneBegins R R' := by
    intro R' k h j call _ hget
    rw [h] at hget
    exact (InsertionMap.get_of_get_delete hget).1
  by_cases hcompletes : ∃ p s, e = .completeSubscribe p s
  · obtain ⟨p, s, rfl⟩ := hcompletes
    exact noneBegins_completeSubscribe p s
  · have houtcome := step_outcome R e he
    have hrefused : ∀ p s kinds, e = .publish p s kinds ∨ e = .subscribe p s → router.next R e = R := by
      intro p s kinds h
      rcases h with rfl | rfl
      · show (R.publish p s kinds).1 = R
        unfold Router.publish
        rw [if_pos hclosed]
      · show (R.subscribe p s).1 = R
        unfold Router.subscribe
        rw [if_pos hclosed]
    by_cases hasks : ∃ p s kinds, e = .publish p s kinds ∨ e = .subscribe p s
    · obtain ⟨p, s, kinds, hasks⟩ := hasks
      rw [hrefused p s kinds hasks]
      exact noneBegins_of_eq rfl
    · generalize router.next R e = R' at houtcome ⊢
      cases houtcome with
      | idle e h h' h'' => exact noneBegins_of_eq rfl
      | began e call pc h hpub he =>
        exfalso
        rcases he with ⟨p, s, kinds, rfl⟩ | ⟨p, s, rfl⟩ | ⟨p, s, rfl⟩
        · exact hasks ⟨p, s, kinds, .inl rfl⟩
        · exact hasks ⟨p, s, ⟨false, false⟩, .inr rfl⟩
        · exact hcompletes ⟨p, s, rfl⟩
      | failed k message call pc hget hstate => exact hdelete k rfl
      | published k sdp p s kinds hget => exact hdelete k rfl
      | subscribed k sdp p s owner hget => exact hdelete k rfl
      | completed k outcome p s hget => exact hdelete k rfl
      | tracked k kind => exact noneBegins_of_eq rfl
      | removed e R' h => exact noneBegins_of_eq h.negotiating
      | shut k R' h => exact noneBegins_of_eq h.negotiating
      | closed R' h => exact noneBegins_of_eq h.negotiating

/-- **A closed router.**  As it closes it announces the end of each stream that is on the air, and nothing else.
No call begins any more that would register something, and the router holds nothing from then on, if and only if no
call that was in flight when it was closed succeeds. -/
theorem closed_stays_vacant_iff (es es' : List Event) (hvalid : router.Valid .new (es ++ .close :: es')) :
    (react (router.exec .new es) .close).2 = (router.exec .new es).onAir.map .streamEnded ∧
      router.Along (fun R e => NoneBegins R (router.next R e)) (router.exec .new (es ++ [.close])) es' ∧
      (router.Along (fun R e => (router.next R e).Vacant) (router.exec .new (es ++ [.close])) es' ↔
        router.Along (fun R e => ¬ Registers R e) (router.exec .new (es ++ [.close])) es') := by
  rw [show es ++ .close :: es' = (es ++ [.close]) ++ es' by simp] at hvalid
  obtain ⟨hbefore, hrest⟩ := (Machine.along_append router _ _ _ _).1 hvalid
  have hwf : Wf (router.exec .new es) := Machine.exec_invariant (I := Wf) (fun _ e h henabled => wf_next h e henabled)
    ((Machine.along_append router _ _ _ _).1 hbefore).1 wf_new
  rw [Machine.exec_append] at hrest ⊢
  have hclosed : (router.exec (router.exec .new es) [.close]).closed = true := closed_close _
  have hvacant : (router.exec (router.exec .new es) [.close]).Vacant := vacant_close _
  refine ⟨close_out hwf, ?_, ?_⟩
  · exact Machine.along_of_invariant (fun R e hR _ => closed_next e hR)
      (fun R e hR he => noneBegins_next hR he) hrest hclosed
  · exact Machine.along_next_iff (J := Router.Vacant) (I := fun _ => True) (Q := fun R e => ¬ Registers R e)
      (fun R e _ _ => trivial) (fun R e _ hR he => vacant_next_iff hR he) hrest trivial hvacant

/-- A peer publishes one stream, which goes live, and is still negotiating another one. -/
def publishing : List Event :=
  [.publish ⟨"p_0000000c", by decide⟩ "s" ⟨true, false⟩, .settle 0 (.succeeded (some "v=0")),
    .publish ⟨"p_0000000c", by decide⟩ "t" ⟨true, false⟩]

/-- The host closes its room: the end of the live stream is announced, and then the other one goes live. -/
theorem not_vacant_publishing :
    (react (router.exec .new publishing) .close).2 = [.streamEnded "s"] ∧
      ¬ router.Along (fun R e => (router.next R e).Vacant) (router.exec .new (publishing ++ [.close]))
        [.settle 1 (.succeeded (some "v=0"))] := by
  have hclosed := closed_stays_vacant_iff publishing [.settle 1 (.succeeded (some "v=0"))] (by decide +kernel)
  refine ⟨hclosed.1.trans (by decide +kernel), fun hvacant => ?_⟩
  refine (hclosed.2.2.1 hvacant).1 ⟨.publish ⟨"p_0000000c", by decide⟩ "t" ⟨true, false⟩, ?_, rfl⟩
  rfl

end ScreenSharing.Sfu
