import ScreenSharing.Sfu.Listeners

/-!
# Operations of the media plane, one after another

A publish or subscribe request takes several awaits.  `Sequential` says that nothing else is started
in the meantime: while a call is in flight only its end, tracks, ticks of the governor, and state
changes that do nothing happen.  `InStep` is what then holds of a call in flight, namely that what it
checked at its start still is so.

Under this discipline an event of the media plane has few outcomes, and `MediaOutcome` lists them
with all that later proofs need: nothing happens; a stream goes live; a subscription begins;
registrations are withdrawn; a report arrives; the governor evaluates; the media plane closes.
`Withdrawn` describes a withdrawal together with what the router emits: the streams that end, and the
demand of each stream that lost a viewer who left by himself.
-/

namespace ScreenSharing.Sfu

open Lib

variable {R R' : Router} {M : MediaPlane}

/-! ### Withdrawals -/

/-- The subscription of `p` to `s` ends at the event by itself, and not because the stream ends. -/
def Leaves (R : Router) (e : Event) (p : PeerId) (s : String) : Prop :=
  unsubscribed R e p s ∨ e = .removePeer p

/-- The streams in `P` are unpublished and the subscriptions in `Q` taken away, with these outputs. -/
structure Withdrawn (R : Router) (P : String → Prop) (Q : PeerId → String → Prop) (R' : Router)
    (os : List Output) : Prop where
  removes : Unregisters P
    (fun key => (∃ s, P s ∧ R.publishers.has s = true ∧ endsWith key ("::" ++ s) = true) ∨
      ∃ p s, Q p s ∧ key = subKey p s) R R'
  ended : ∀ s, Output.streamEnded s ∈ os ↔ P s ∧ R.publishers.has s = true
  demand : ∀ s owner n, Output.demandChanged s owner n ∈ os →
    ∃ pub, R'.publishers.get s = some pub ∧ owner = pub.info.ownerPeerId ∧
      n = R'.subscriberCount s
  left : ∀ s owner n, Output.demandChanged s owner n ∈ os →
    ∃ p, Q p s ∧ R.subscriptions.has (subKey p s) = true ∧
      ∀ t, P t → R.publishers.has t = true → endsWith (subKey p s) ("::" ++ t) = false
  told : ∀ p s pub, Q p s → R.subscriptions.has (subKey p s) = true →
    (∀ t, P t → R.publishers.has t = true → endsWith (subKey p s) ("::" ++ t) = false) →
    R'.publishers.get s = some pub →
    Output.demandChanged s pub.info.ownerPeerId (R'.subscriberCount s) ∈ os
  only : ∀ o ∈ os, (∃ s, o = .streamEnded s) ∨ ∃ s owner n, o = .demandChanged s owner n

theorem Withdrawn.congr {P P' : String → Prop} {Q Q' : PeerId → String → Prop} {os : List Output}
    (h : Withdrawn R P Q R' os) (hP : ∀ s, P' s ↔ P s) (hQ : ∀ p s, Q' p s ↔ Q p s) :
    Withdrawn R P' Q' R' os := by
  have heqP : P' = P := funext fun s => propext (hP s)
  have heqQ : Q' = Q := funext fun p => funext fun s => propext (hQ p s)
  rw [heqP, heqQ]
  exact h

/-- What a withdrawal takes away does not depend on the connections. -/
theorem Withdrawn.of_reported {P : String → Prop} {Q : PeerId → String → Prop} {os : List Output}
    {k : ℕ} {state : PcState} (h : Withdrawn (R.reported k state) P Q R' os) :
    Withdrawn R P Q R' os := by
  unfold Router.reported at h
  split at h
  · exact ⟨h.removes.of_closePc, h.ended, h.demand, h.left, h.told, h.only⟩
  · exact h

theorem unpublish_out (s : String) (R : Router) :
    (R.unpublish s).2 = if R.publishers.has s then [.streamEnded s] else [] := by
  unfold Router.unpublish InsertionMap.has
  cases R.publishers.get s <;> rfl

/-- What `demandOf` says is true, and it is said of every published stream. -/
theorem mem_demandOf {s : String} {o : Output} :
    o ∈ R.demandOf s ↔ ∃ pub, R.publishers.get s = some pub ∧
      o = .demandChanged s pub.info.ownerPeerId (R.subscriberCount s) := by
  unfold Router.demandOf Router.emitDemand
  cases R.publishers.get s with
  | none => simp
  | some pub => simp

theorem withdrawn_unpublish (s : String) (R : Router) :
    Withdrawn R (fun t => t = s) (fun _ _ => False) (R.unpublish s).1 (R.unpublish s).2 where
  removes := ((removes_unpublish s R).congr (fun _ => Iff.rfl) fun key => by simp).toUnregisters
  ended t := by
    rw [unpublish_out]
    by_cases hhas : R.publishers.has s = true
    · rw [if_pos hhas, List.mem_singleton, Output.streamEnded.injEq]
      constructor
      · rintro rfl
        exact ⟨rfl, hhas⟩
      · exact And.left
    · rw [if_neg hhas]
      constructor
      · intro h
        cases h
      · rintro ⟨rfl, h⟩
        exact absurd h hhas
  demand t owner n h := by
    rw [unpublish_out] at h
    split at h
    · cases List.mem_singleton.mp h
    · cases h
  left t owner n h := by
    rw [unpublish_out] at h
    split at h
    · cases List.mem_singleton.mp h
    · cases h
  told p t pub h := h.elim
  only o h := by
    rw [unpublish_out] at h
    split at h
    · exact .inl ⟨s, List.mem_singleton.mp h⟩
    · cases h

theorem withdrawn_unsubscribe (p : PeerId) (s : String) (R : Router) :
    Withdrawn R (fun _ => False) (fun q t => q = p ∧ t = s) (R.unsubscribe p s).1
      (R.unsubscribe p s).2 := by
  have hremoves : Unregisters (fun _ => False) (fun key =>
      (∃ t, False ∧ R.publishers.has t = true ∧ endsWith key ("::" ++ t) = true) ∨
        ∃ q t, (q = p ∧ t = s) ∧ key = subKey q t) R (R.unsubscribe p s).1 := by
    refine ((removes_unsubscribe p s R).congr (fun _ => Iff.rfl) fun key => ?_).toUnregisters
    constructor
    · rintro (⟨_, h, -⟩ | ⟨_, _, ⟨rfl, rfl⟩, rfl⟩)
      · exact h.elim
      · rfl
    · rintro rfl
      exact .inr ⟨p, s, ⟨rfl, rfl⟩, rfl⟩
  cases hget : R.subscriptions.get (subKey p s) with
  | none =>
    have hres : R.unsubscribe p s = (R, []) := by simp [Router.unsubscribe, hget]
    rw [hres] at hremoves ⊢
    refine ⟨hremoves, fun t => ?_, fun t owner n h => (by cases h), fun t owner n h => (by cases h),
      ?_, fun o h => (by cases h)⟩
    · constructor
      · intro h
        cases h
      · rintro ⟨h, -⟩
        exact h.elim
    · rintro q t pub ⟨rfl, rfl⟩ hhas
      rw [InsertionMap.has, hget] at hhas
      cases hhas
  | some sub =>
    have hres : R.unsubscribe p s = (R.dropSubscription (subKey p s) sub,
        (R.dropSubscription (subKey p s) sub).demandOf s) := by
      simp [Router.unsubscribe, hget]
    rw [hres] at hremoves ⊢
    refine ⟨hremoves, fun t => ?_, fun t owner n h => ?_, fun t owner n h => ?_, ?_, fun o h => ?_⟩
    · constructor
      · intro h
        obtain ⟨pub, -, heq⟩ := mem_demandOf.mp h
        cases heq
      · rintro ⟨h, -⟩
        exact h.elim
    · obtain ⟨pub, hpub, heq⟩ := mem_demandOf.mp h
      cases heq
      exact ⟨pub, hpub, rfl, rfl⟩
    · obtain ⟨pub, hpub, heq⟩ := mem_demandOf.mp h
      cases heq
      exact ⟨p, ⟨rfl, rfl⟩, (InsertionMap.has_iff _ _).mpr ⟨sub, hget⟩, fun t ht => ht.elim⟩
    · rintro q t pub ⟨rfl, rfl⟩ - - hpub
      exact mem_demandOf.mpr ⟨pub, hpub, rfl⟩
    · obtain ⟨pub, -, heq⟩ := mem_demandOf.mp h
      exact .inr ⟨_, _, _, heq⟩

/-- The first loop of `removePeer` emits the end of each stream it unpublishes. -/
theorem mem_unpublishAll_out (ss : List String) : ∀ (R : Router) (o : Output),
    o ∈ (R.unpublishAll ss).2 ↔ ∃ s ∈ ss, R.publishers.has s = true ∧ o = .streamEnded s := by
  induction ss with
  | nil =>
    intro R o
    simp [Router.unpublishAll]
  | cons s ss ih =>
    intro R o
    have hfirst := removes_unpublish s R
    show o ∈ (R.unpublish s).2 ++ ((R.unpublish s).1.unpublishAll ss).2 ↔ _
    rw [List.mem_append, ih, unpublish_out]
    have hhas : ∀ t, t ≠ s → (R.unpublish s).1.publishers.has t = R.publishers.has t := by
      intro t ht
      show ((R.unpublish s).1.publishers.get t).isSome = (R.publishers.get t).isSome
      rw [hfirst.publishers_kept t ht]
    have hgone : (R.unpublish s).1.publishers.has s = false :=
      (InsertionMap.has_eq_false _ _).mpr (hfirst.publishers_removed s rfl)
    constructor
    · rintro (hmem | ⟨t, hin, hpub, rfl⟩)
      · split at hmem
        · next hpub =>
          cases List.mem_singleton.mp hmem
          exact ⟨s, List.mem_cons_self, hpub, rfl⟩
        · cases hmem
      · have ht : t ≠ s := by
          rintro rfl
          rw [hgone] at hpub
          cases hpub
        exact ⟨t, List.mem_cons_of_mem _ hin, by rw [← hhas t ht]; exact hpub, rfl⟩
    · rintro ⟨t, hin, hpub, rfl⟩
      by_cases ht : t = s
      · subst ht
        rw [if_pos hpub]
        exact .inl (List.mem_singleton_self _)
      · exact .inr ⟨t, (List.mem_cons.mp hin).resolve_left ht, by rw [hhas t ht]; exact hpub, rfl⟩

/-- A key that starts with the id of a peer is made of it and of what follows. -/
theorem startsWith_iff_subKey (p : PeerId) (key : String) :
    startsWith key (p.text ++ "::") = true ↔ ∃ s, key = subKey p s := by
  constructor
  · intro h
    rw [startsWith, List.isPrefixOf_iff_prefix] at h
    obtain ⟨rest, hrest⟩ := h
    refine ⟨String.ofList rest, String.toList_injective ?_⟩
    rw [subKey_toList, ← hrest]
    simp [String.toList_append]
  · rintro ⟨s, rfl⟩
    exact (startsWith_subKey p p s).mpr rfl

/-- What `removePeer` cuts off a key of the peer is the stream id. -/
theorem slice_subKey (p : PeerId) (s : String) : slice (subKey p s) (p.text.length + 2) = s := by
  refine String.toList_injective ?_
  rw [slice, String.toList_ofList, subKey_toList]
  have hlen : p.text.length = p.text.toList.length := String.length_toList.symm
  rw [hlen, ← List.drop_drop, List.drop_left]
  rfl

theorem withdrawn_removePeer (p : PeerId) (R : Router) :
    Withdrawn R (fun t => t ∈ R.ownedBy p) (fun q _ => q = p) (R.removePeer p).1
      (R.removePeer p).2 := by
  have hhas : ∀ s ∈ R.ownedBy p, R.publishers.has s = true := by
    intro s hs
    obtain ⟨pub, hpub, -⟩ := mem_ownedBy.mp hs
    exact (InsertionMap.has_iff _ _).mpr ⟨pub, hpub⟩
  have hmem : ∀ o, o ∈ (R.removePeer p).2 ↔
      o ∈ (R.unpublishAll (R.ownedBy p)).2 ∨
        ∃ s, (R.unpublishAll (R.ownedBy p)).1.subscriptions.has (subKey p s) = true ∧
          o ∈ (R.removePeer p).1.demandOf s := by
    intro o
    show o ∈ _ ++ List.flatMap _ _ ↔ _
    rw [List.mem_append, List.mem_flatMap]
    refine or_congr_right ?_
    constructor
    · rintro ⟨s, hs, ho⟩
      obtain ⟨key, hkey, rfl⟩ := List.mem_map.mp hs
      obtain ⟨hin, hstart⟩ := List.mem_filter.mp hkey
      obtain ⟨t, rfl⟩ := (startsWith_iff_subKey p key).mp hstart
      rw [slice_subKey] at ho
      exact ⟨t, (InsertionMap.has_iff _ _).mpr ((InsertionMap.mem_keys _ _).mp hin), ho⟩
    · rintro ⟨s, hs, ho⟩
      refine ⟨s, List.mem_map.mpr ⟨subKey p s, List.mem_filter.mpr ⟨?_, ?_⟩, slice_subKey p s⟩, ho⟩
      · exact (InsertionMap.mem_keys _ _).mpr ((InsertionMap.has_iff _ _).mp hs)
      · exact (startsWith_iff_subKey p _).mpr ⟨s, rfl⟩
  refine ⟨((removes_removePeer p R).congr (fun _ => Iff.rfl) fun key => ?_).toUnregisters, fun s => ?_,
    fun s owner n h => ?_, fun s owner n h => ?_, fun q s pub hq hsub hown hpub => ?_, fun o h => ?_⟩
  · rw [startsWith_iff_subKey]
    constructor
    · rintro (⟨s, hs, -, hend⟩ | ⟨q, s, rfl, rfl⟩)
      · exact .inl ⟨s, hs, hend⟩
      · exact .inr ⟨s, rfl⟩
    · rintro (⟨s, hs, hend⟩ | ⟨s, rfl⟩)
      · exact .inl ⟨s, hs, hhas s hs, hend⟩
      · exact .inr ⟨p, s, rfl, rfl⟩
  · rw [hmem]
    constructor
    · rintro (h | ⟨t, -, h⟩)
      · obtain ⟨t, ht, hpub, heq⟩ := (mem_unpublishAll_out _ _ _).mp h
        cases heq
        exact ⟨ht, hpub⟩
      · obtain ⟨pub, -, heq⟩ := mem_demandOf.mp h
        cases heq
    · rintro ⟨hs, hpub⟩
      exact .inl ((mem_unpublishAll_out _ _ _).mpr ⟨s, hs, hpub, rfl⟩)
  · rcases (hmem _).mp h with h | ⟨t, -, h⟩
    · obtain ⟨_, -, -, heq⟩ := (mem_unpublishAll_out _ _ _).mp h
      cases heq
    · obtain ⟨pub, hpub, heq⟩ := mem_demandOf.mp h
      cases heq
      exact ⟨pub, hpub, rfl, rfl⟩
  · rcases (hmem _).mp h with h | ⟨t, hkept, h⟩
    · obtain ⟨_, -, -, heq⟩ := (mem_unpublishAll_out _ _ _).mp h
      cases heq
    · obtain ⟨pub, hpub, heq⟩ := mem_demandOf.mp h
      cases heq
      have hfirst := removes_unpublishAll (R.ownedBy p) R
      have hsurvives : ¬ ∃ t, t ∈ R.ownedBy p ∧ R.publishers.has t = true ∧
          endsWith (subKey p s) ("::" ++ t) = true := by
        intro hdropped
        rw [InsertionMap.has, hfirst.subscriptions_removed _ hdropped] at hkept
        cases hkept
      refine ⟨p, rfl, ?_, fun t ht htpub => ?_⟩
      · rw [InsertionMap.has, ← hfirst.subscriptions_kept _ hsurvives]
        exact hkept
      · rw [← Bool.not_eq_true]
        exact fun hend => hsurvives ⟨t, ht, htpub, hend⟩
  · subst hq
    refine (hmem _).mpr (.inr ⟨s, ?_, mem_demandOf.mpr ⟨pub, hpub, rfl⟩⟩)
    -- the first loop leaves this subscription alone
    have hkept := (removes_unpublishAll (R.ownedBy q) R).subscriptions_kept (subKey q s) (by
      rintro ⟨t, ht, htpub, hend⟩
      rw [hown t ht htpub] at hend
      cases hend)
    rw [InsertionMap.has, hkept]
    exact hsub
  · rcases (hmem o).mp h with h | ⟨t, -, h⟩
    · obtain ⟨s, -, -, heq⟩ := (mem_unpublishAll_out _ _ _).mp h
      exact .inl ⟨s, heq⟩
    · obtain ⟨pub, -, heq⟩ := mem_demandOf.mp h
      exact .inr ⟨_, _, _, heq⟩

/-! ### The governor after a withdrawal -/

/-- The outputs are ends of streams and demands. -/
def OnlyWithdrawals (os : List Output) : Prop :=
  ∀ o ∈ os, (∃ s, o = .streamEnded s) ∨ ∃ s owner n, o = .demandChanged s owner n

theorem OnlyWithdrawals.tail {o : Output} {os : List Output} (h : OnlyWithdrawals (o :: os)) :
    OnlyWithdrawals os := fun o' hmem => h o' (List.mem_cons_of_mem _ hmem)

/-- A stream the governor does not know stays unknown. -/
theorem foldl_heardAt_none {s : String} {os : List Output} (hos : OnlyWithdrawals os) :
    os.foldl (Governor.heardAt s) none = none := by
  induction os with
  | nil => rfl
  | cons o os ih =>
    rw [List.foldl_cons]
    have hstep : Governor.heardAt s none o = none := by
      rcases hos o List.mem_cons_self with ⟨t, rfl⟩ | ⟨t, owner, n, rfl⟩ <;>
        simp [Governor.heardAt]
    rw [hstep]
    exact ih hos.tail

/-- A stream whose end is announced is forgotten. -/
theorem foldl_heardAt_ended {s : String} {os : List Output} (hos : OnlyWithdrawals os)
    (hended : Output.streamEnded s ∈ os) (st : Option Governor.StreamState) :
    os.foldl (Governor.heardAt s) st = none := by
  induction os generalizing st with
  | nil => cases hended
  | cons o os ih =>
    rw [List.foldl_cons]
    rcases List.mem_cons.mp hended with rfl | hrest
    · have hstep : Governor.heardAt s st (.streamEnded s) = none := if_pos rfl
      rw [hstep]
      exact foldl_heardAt_none hos.tail
    · exact ih hos.tail hrest _

/-- A stream that is not named keeps its entry. -/
theorem foldl_heardAt_untold {s : String} {os : List Output} (hos : OnlyWithdrawals os)
    (hended : Output.streamEnded s ∉ os) (huntold : ∀ owner n, Output.demandChanged s owner n ∉ os)
    (st : Option Governor.StreamState) : os.foldl (Governor.heardAt s) st = st := by
  induction os generalizing st with
  | nil => rfl
  | cons o os ih =>
    rw [List.foldl_cons]
    have hstep : Governor.heardAt s st o = st := by
      rcases hos o List.mem_cons_self with ⟨t, rfl⟩ | ⟨t, owner, n, rfl⟩
      · exact if_neg fun heq => hended (by rw [heq]; exact List.mem_cons_self)
      · exact if_neg fun heq => huntold owner n (by rw [heq]; exact List.mem_cons_self)
    rw [hstep]
    exact ih hos.tail (fun h => hended (List.mem_cons_of_mem _ h))
      (fun owner n h => huntold owner n (List.mem_cons_of_mem _ h)) st

/-- A stream whose demand is announced is paused if there is none. -/
theorem foldl_heardAt_told {s : String} {os : List Output} {n : ℕ} (hos : OnlyWithdrawals os)
    (hended : Output.streamEnded s ∉ os) (htold : ∃ owner, Output.demandChanged s owner n ∈ os)
    (hsame : ∀ owner m, Output.demandChanged s owner m ∈ os → m = n)
    (st : Option Governor.StreamState) :
    os.foldl (Governor.heardAt s) st = st.map fun st => { st with paused := n = 0 } := by
  induction os generalizing st with
  | nil =>
    obtain ⟨owner, h⟩ := htold
    cases h
  | cons o os ih =>
    rw [List.foldl_cons]
    have hended' : Output.streamEnded s ∉ os := fun h => hended (List.mem_cons_of_mem _ h)
    have hsame' : ∀ owner m, Output.demandChanged s owner m ∈ os → m = n :=
      fun owner m h => hsame owner m (List.mem_cons_of_mem _ h)
    by_cases hnow : ∃ owner, o = .demandChanged s owner n
    · obtain ⟨owner, rfl⟩ := hnow
      have hstep : Governor.heardAt s st (.demandChanged s owner n) =
          st.map fun st => { st with paused := n = 0 } := if_pos rfl
      rw [hstep]
      by_cases hlater : ∃ owner', Output.demandChanged s owner' n ∈ os
      · rw [ih hos.tail hended' hlater hsame']
        cases st <;> rfl
      · refine foldl_heardAt_untold hos.tail hended' (fun owner' m h => hlater ⟨owner', ?_⟩) _
        rw [← hsame' owner' m h]
        exact h
    · have hstep : Governor.heardAt s st o = st := by
        rcases hos o List.mem_cons_self with ⟨t, rfl⟩ | ⟨t, owner, m, rfl⟩
        · exact if_neg fun heq => hended (by rw [heq]; exact List.mem_cons_self)
        · refine if_neg fun heq => hnow ⟨owner, ?_⟩
          rw [hsame owner m (by rw [heq]; exact List.mem_cons_self), heq]
      rw [hstep]
      refine ih hos.tail hended' ?_ hsame' st
      obtain ⟨owner, h⟩ := htold
      exact ⟨owner, (List.mem_cons.mp h).resolve_left fun heq => hnow ⟨owner, heq.symm⟩⟩

/-- Where streams only end, an entry goes or stays as it is. -/
theorem foldl_heardAt_ends {os : List Output} (hos : OnlyEnds R os) (s : String)
    (st : Option Governor.StreamState) :
    os.foldl (Governor.heardAt s) st = none ∨ os.foldl (Governor.heardAt s) st = st := by
  have honly : OnlyWithdrawals os := fun o ho => .inl ((hos o ho).imp fun _ h => h.choose_spec.1)
  by_cases hended : Output.streamEnded s ∈ os
  · exact .inl (foldl_heardAt_ended honly hended st)
  · refine .inr (foldl_heardAt_untold honly hended (fun owner n hmem => ?_) st)
    obtain ⟨_, _, heq, -⟩ := hos _ hmem
    cases heq

/-! ### One operation after another -/

/-- The event is an operation of the media plane: it is not the end of a call, a track, a tick of the
governor, or a state change that nothing acts on. -/
def Operation (M : MediaPlane) : MediaEvent → Prop
  | .settle _ _ => False
  | .track _ _ => False
  | .runGovernor => False
  | .stateChange pc state => state.lost = true ∧ (M.router.pcs pc).onState ≠ none
  | _ => True

/-- An operation starts only when no call is in flight. -/
def Sequential (M : MediaPlane) (e : MediaEvent) : Prop :=
  Operation M e → M.router.negotiating.size = 0

instance decidableOperation (M : MediaPlane) : ∀ e, Decidable (Operation M e)
  | .settle _ _ => isFalse id
  | .track _ _ => isFalse id
  | .stateChange pc state =>
    inferInstanceAs (Decidable (state.lost = true ∧ (M.router.pcs pc).onState ≠ none))
  | .message _ _ => isTrue trivial
  | .peerGone _ => isTrue trivial
  | .runGovernor => isFalse id
  | .close => isTrue trivial

instance (M : MediaPlane) (e : MediaEvent) : Decidable (Sequential M e) :=
  inferInstanceAs (Decidable (Operation M e → M.router.negotiating.size = 0))

/-- What a call checked before it started to negotiate. -/
def Fits (R : Router) : Call → Prop
  | .publish _ s _ => R.closed = false ∧ R.publishers.get s = none
  | .subscribe p s owner => R.subscriptions.get (subKey p s) = none ∧
      ∃ pub, R.publishers.get s = some pub ∧ pub.info.ownerPeerId = owner
  | .completeSubscribe _ _ => True

/-- At most one call is in flight, and what it checked still holds. -/
structure InStep (R : Router) : Prop where
  fits : ∀ k call, R.negotiating.get k = some call → Fits R call
  single : ∀ k k' call call', R.negotiating.get k = some call →
    R.negotiating.get k' = some call' → k = k'

theorem get_of_size {κ α : Type*} [DecidableEq κ] {m : InsertionMap κ α} (h : m.size = 0) (k : κ) :
    m.get k = none := by
  unfold InsertionMap.size at h
  unfold InsertionMap.get
  rw [List.length_eq_zero_iff.mp h]
  rfl

theorem inStep_of_none (h : ∀ k, R.negotiating.get k = none) : InStep R where
  fits k call hk := by
    rw [h k] at hk
    cases hk
  single k k' call call' hk := by
    rw [h k] at hk
    cases hk

theorem inStep_new : InStep Router.new := inStep_of_none fun _ => rfl

theorem inStep_begin (hidle : R.negotiating.size = 0) {call : Call} {pc : Pc} (hfits : Fits R call) :
    InStep (R.begin call pc) where
  fits k call' hk := by
    change (R.negotiating.set R.nextCall call).get k = some call' at hk
    rw [InsertionMap.get_set, get_of_size hidle] at hk
    split at hk
    · cases hk
      cases call <;> exact hfits
    · cases hk
  single k k' call₁ call₂ hk hk' := by
    change (R.negotiating.set R.nextCall call).get k = some call₁ at hk
    change (R.negotiating.set R.nextCall call).get k' = some call₂ at hk'
    rw [InsertionMap.get_set, get_of_size hidle] at hk hk'
    split at hk
    · next heq =>
      split at hk'
      · next heq' => rw [heq, heq']
      · cases hk'
    · cases hk

theorem inStep_publish (hidle : R.negotiating.size = 0) (p : PeerId) (s : String) (kinds : Kinds) :
    InStep (R.publish p s kinds).1 := by
  unfold Router.publish
  dsimp only
  split
  · exact inStep_of_none fun k => get_of_size hidle k
  · next hopen =>
    split
    · exact inStep_of_none fun k => get_of_size hidle k
    · next hnew =>
      rw [Bool.not_eq_true] at hopen
      rw [Bool.not_eq_true, InsertionMap.has_eq_false] at hnew
      exact inStep_begin hidle ⟨hopen, hnew⟩

theorem inStep_subscribe (hidle : R.negotiating.size = 0) (p : PeerId) (s : String) :
    InStep (R.subscribe p s).1 := by
  have hnone : InStep R := inStep_of_none fun k => get_of_size hidle k
  unfold Router.subscribe
  dsimp only
  split
  · exact hnone
  · split
    · exact hnone
    · next pub hpub =>
      split
      · exact hnone
      · next hnew =>
        rw [Bool.not_eq_true, InsertionMap.has_eq_false] at hnew
        split
        · exact hnone
        · exact inStep_begin hidle ⟨hnew, pub, hpub, rfl⟩

theorem inStep_completeSubscribe (hidle : R.negotiating.size = 0) (p : PeerId) (s : String) :
    InStep (R.completeSubscribe p s).1 := by
  unfold Router.completeSubscribe
  dsimp only
  split
  · exact inStep_of_none fun k => get_of_size hidle k
  · exact inStep_begin hidle trivial

theorem settle_negotiating (k : ℕ) (outcome : Negotiation) (hpending : R.negotiating.has k = true) :
    (R.settle k outcome).1.negotiating = R.negotiating.delete k := by
  obtain ⟨call, hcall⟩ := (InsertionMap.has_iff _ _).mp hpending
  unfold Router.settle
  rw [hcall]
  cases call <;> cases outcome <;> rfl

/-- The end of the one call in flight leaves none. -/
theorem inStep_settle (h : InStep R) {k : ℕ} {outcome : Negotiation}
    (hpending : R.negotiating.has k = true) : InStep (R.settle k outcome).1 := by
  obtain ⟨call, hcall⟩ := (InsertionMap.has_iff _ _).mp hpending
  refine inStep_of_none fun j => ?_
  rw [settle_negotiating k outcome hpending]
  cases hj : (R.negotiating.delete k).get j with
  | none => rfl
  | some call' =>
    obtain ⟨hget, hne⟩ := InsertionMap.get_of_get_delete hj
    exact absurd (h.single _ _ _ _ hget hcall) hne

/-- A state change that no handler acts on does nothing but to the connection. -/
theorem onStateChange_idle {pc : ℕ} {state : PcState}
    (h : ¬ (state.lost = true ∧ (R.pcs pc).onState ≠ none)) :
    R.onStateChange pc state = (R.reported pc state, []) := by
  unfold Router.onStateChange
  dsimp only
  split
  · next hlost =>
    have hnone : (R.pcs pc).onState = none := by
      by_contra hne
      exact h ⟨hlost, hne⟩
    rw [hnone]
  · rfl

/-! ### The outcomes of an event -/

/-- The outputs direct no quality. -/
def Undirected (out : List MediaOutput) : Prop :=
  ∀ p d, MediaOutput.sendTo p (.qualityDirective d) ∉ out

/-- The event takes nothing away, and reports nothing. -/
structure Still (M : MediaPlane) (e : MediaEvent) : Prop where
  unpublished : ∀ e', routerEvent e = some e' → ∀ s, ¬ unpublished M.router e' s
  leaves : ∀ e', routerEvent e = some e' → ∀ p s, ¬ Leaves M.router e' p s
  report : ∀ p subs pubs, e ≠ .message p (.statsReport subs pubs)

/-- What an event can do to the media plane when operations come one after another. -/
inductive MediaOutcome (M : MediaPlane) : MediaEvent → MediaPlane × List MediaOutput → Prop
  | quiet {e : MediaEvent} {M' : MediaPlane} {out : List MediaOutput} (hstill : Still M e)
      (hpubs : M'.router.publishers = M.router.publishers)
      (hsubs : M'.router.subscriptions = M.router.subscriptions)
      (hclosed : M'.router.closed = M.router.closed)
      (hgov : M'.governor = M.governor) (hout : Undirected out) : MediaOutcome M e (M', out)
  | published {e : MediaEvent} {R' : Router} {k : ℕ} {p : PeerId} {s : String} {kinds : Kinds}
      {last : Output} (hstill : Still M e) (hopen : M.router.closed = false)
      (hcall : M.router.negotiating.get k = some (.publish p s kinds))
      (hfree : M.router.publishers.get s = none)
      (hpubs : R'.publishers =
        M.router.publishers.set s ⟨k, s, p.text, kinds.video, kinds.audio⟩)
      (hsubs : R'.subscriptions = M.router.subscriptions)
      (hclosed : R'.closed = M.router.closed)
      (hlast : (∃ call sdp, last = .resolved call sdp) ∨ ∃ call text, last = .rejected call text) :
      MediaOutcome M e ({ M with router := R' }.onOutputs
        [.streamLive ⟨s, p.text, kinds.video, kinds.audio⟩, last])
  | subscribed {e : MediaEvent} {R' : Router} {k : ℕ} {p : PeerId} {s : String} {pub : Publisher}
      {last : Output} (hstill : Still M e) (hpub : M.router.publishers.get s = some pub)
      (hfree : M.router.subscriptions.get (subKey p s) = none)
      (hpubs : R'.publishers = M.router.publishers)
      (hsubs : R'.subscriptions = M.router.subscriptions.set (subKey p s) ⟨k⟩)
      (hclosed : R'.closed = M.router.closed)
      (hlast : (∃ call sdp, last = .resolved call sdp) ∨ ∃ call text, last = .rejected call text) :
      MediaOutcome M e ({ M with router := R' }.onOutputs
        [.demandChanged s pub.info.ownerPeerId (R'.subscriberCount s), last])
  | withdrawn {e : MediaEvent} {e' : Event} {R' : Router} {os : List Output} {G : Governor}
      (hevent : routerEvent e = some e')
      (hwithdrawn : Withdrawn M.router (unpublished M.router e') (Leaves M.router e') R' os)
      (hclosed : R'.closed = M.router.closed)
      (hreport : ∀ p subs pubs, e ≠ .message p (.statsReport subs pubs))
      (hgov : (∃ p, e' = .removePeer p ∧ G = M.governor.dropSubscriber p.text) ∨
        ((∀ p, e' ≠ .removePeer p) ∧ G = M.governor)) :
      MediaOutcome M e ({ router := R', governor := G : MediaPlane }.onOutputs os)
  | reported {p : PeerId} {subs : List SubscriptionStats} {pubs : List PublicationStats} :
      MediaOutcome M (.message p (.statsReport subs pubs)) (M.ingest p subs pubs, [])
  | ticked : MediaOutcome M .runGovernor M.runGovernor
  | closed {R' : Router} {os : List Output} (hpubs : ∀ s, R'.publishers.get s = none)
      (hsubs : ∀ key, R'.subscriptions.get key = none) (hclosed : R'.closed = true)
      (hends : OnlyEnds M.router os) : MediaOutcome M .close ({ M with router := R' }.onOutputs os)

/-- The output says how a call went. -/
def Output.Plain : Output → Prop
  | .answered _ => True
  | .resolved _ _ => True
  | .rejected _ _ => True
  | _ => False

theorem onOutputs_plain {os : List Output} (hos : ∀ o ∈ os, o.Plain) : ∀ M : MediaPlane,
    (M.onOutputs os).1 = M ∧ Undirected (M.onOutputs os).2 := by
  induction os with
  | nil =>
    intro M
    exact ⟨rfl, fun p d h => by cases h⟩
  | cons o os ih =>
    intro M
    have hfirst : (M.onOutput o).1 = M ∧ Undirected (M.onOutput o).2 := by
      have hplain := hos o List.mem_cons_self
      cases o with
      | streamLive => exact hplain.elim
      | streamEnded => exact hplain.elim
      | demandChanged => exact hplain.elim
      | answered pc => exact ⟨rfl, fun p d h => by cases List.mem_singleton.mp h⟩
      | rejected call text => exact ⟨rfl, fun p d h => by cases List.mem_singleton.mp h⟩
      | resolved call sdp =>
        refine ⟨rfl, fun p d h => ?_⟩
        change _ ∈ replyTo sdp call at h
        cases call with
        | publish => cases List.mem_singleton.mp h
        | subscribe => cases List.mem_singleton.mp h
        | completeSubscribe => cases h
    obtain ⟨hrest, hout⟩ := ih (fun o' h => hos o' (List.mem_cons_of_mem _ h)) M
    have hcons : M.onOutputs (o :: os) =
        (((M.onOutput o).1.onOutputs os).1, (M.onOutput o).2 ++ ((M.onOutput o).1.onOutputs os).2) :=
      rfl
    rw [hcons, hfirst.1]
    refine ⟨hrest, fun p d h => ?_⟩
    rcases List.mem_append.mp h with h | h
    · exact hfirst.2 p d h
    · exact hout p d h

/-- The step keeps the tables and says only how a call went. -/
structure Plainly (R : Router) (res : Router × List Output) : Prop where
  pubs : res.1.publishers = R.publishers
  subs : res.1.subscriptions = R.subscriptions
  closed : res.1.closed = R.closed
  out : ∀ o ∈ res.2, o.Plain

theorem plainly_idle (R : Router) : Plainly R (R, []) := ⟨rfl, rfl, rfl, fun o h => by cases h⟩

theorem plainly_reported (R : Router) (pc : ℕ) (state : PcState) :
    Plainly R (R.reported pc state, []) := by
  unfold Router.reported
  split
  · exact ⟨rfl, rfl, rfl, fun o h => by cases h⟩
  · exact plainly_idle R

theorem plainly_rejected (R : Router) (call : Call) (text : String) :
    Plainly R (R, [.rejected call text]) := by
  refine ⟨rfl, rfl, rfl, fun o h => ?_⟩
  rw [List.mem_singleton.mp h]
  trivial

theorem plainly_begin (R : Router) (call : Call) (pc : Pc) : Plainly R (R.begin call pc, []) :=
  ⟨rfl, rfl, rfl, fun o h => by cases h⟩

theorem plainly_publish (R : Router) (p : PeerId) (s : String) (kinds : Kinds) :
    Plainly R (R.publish p s kinds) := by
  unfold Router.publish
  dsimp only
  split
  · exact plainly_rejected ..
  · split
    · exact plainly_rejected ..
    · exact plainly_begin ..

theorem plainly_subscribe (R : Router) (p : PeerId) (s : String) :
    Plainly R (R.subscribe p s) := by
  unfold Router.subscribe
  dsimp only
  split
  · exact plainly_rejected ..
  · split
    · exact plainly_rejected ..
    · split
      · exact plainly_rejected ..
      · split
        · exact plainly_rejected ..
        · exact plainly_begin ..

theorem plainly_completeSubscribe (R : Router) (p : PeerId) (s : String) :
    Plainly R (R.completeSubscribe p s) := by
  unfold Router.completeSubscribe
  dsimp only
  split
  · exact plainly_rejected ..
  · refine ⟨rfl, rfl, rfl, fun o h => ?_⟩
    rw [List.mem_singleton.mp h]
    trivial

theorem plainly_track (R : Router) (pc : ℕ) (kind : Kind) : Plainly R (R.onTrack pc kind, []) :=
  ⟨rfl, rfl, rfl, fun o h => by cases h⟩

/-- A plain step of the router is a quiet one of the media plane. -/
theorem quiet_of_plainly {e : MediaEvent} {e' : Event} (hstill : Still M e)
    (h : Plainly M.router (react M.router e')) : MediaOutcome M e (M.route e') := by
  obtain ⟨hsame, hout⟩ := onOutputs_plain h.out { M with router := (react M.router e').1 }
  change MediaOutcome M e ({ M with router := (react M.router e').1 }.onOutputs
    (react M.router e').2)
  generalize MediaPlane.onOutputs (react M.router e').2
    { M with router := (react M.router e').1 } = res at hsame hout
  obtain ⟨M', out⟩ := res
  change M' = _ at hsame
  subst hsame
  exact .quiet hstill h.pubs h.subs h.closed rfl hout

theorem plain_mustSdp (call : Call) (sdp : Option String) :
    (∃ call' sdp', Router.mustSdp call sdp = .resolved call' sdp') ∨
      ∃ call' text, Router.mustSdp call sdp = .rejected call' text := by
  unfold Router.mustSdp
  split
  · split
    · exact .inr ⟨_, _, rfl⟩
    · exact .inl ⟨_, _, rfl⟩
  · exact .inr ⟨_, _, rfl⟩

/-- The event of the router takes nothing away, whatever the state. -/
def Event.starting : Event → Bool
  | .publish .. | .subscribe .. | .completeSubscribe .. | .settle .. | .track .. => true
  | _ => false

theorem still_of_starting {e : MediaEvent} {e' : Event} (hevent : routerEvent e = some e')
    (hstarting : e'.starting = true) : Still M e := by
  refine ⟨?_, ?_, fun q subs pubs h => ?_⟩
  · intro e'' he s hs
    rw [Option.some.inj (he.symm.trans hevent)] at hs
    cases e' <;> first | exact hs | cases hstarting
  · intro e'' he q t hl
    rw [Option.some.inj (he.symm.trans hevent)] at hl
    rcases hl with hl | rfl
    · cases e' <;> first | exact hl | cases hstarting
    · cases hstarting
  · subst h
    cases hevent

theorem settle_media (h : InStep M.router) {k : ℕ} {outcome : Negotiation}
    (hpending : M.router.negotiating.has k = true) :
    MediaOutcome M (.settle k outcome) (M.route (.settle k outcome)) := by
  have hstill : Still M (.settle k outcome) := still_of_starting rfl rfl
  obtain ⟨call, hcall⟩ := (InsertionMap.has_iff _ _).mp hpending
  have hfits := h.fits k call hcall
  have hfailed : ∀ {R' : Router} {call' : Call} {text : String},
      react M.router (.settle k outcome) = (R', [.rejected call' text]) →
      R'.publishers = M.router.publishers → R'.subscriptions = M.router.subscriptions →
      R'.closed = M.router.closed →
      MediaOutcome M (.settle k outcome) (M.route (.settle k outcome)) := by
    intro R' call' text hres hpubs hsubs hclosed
    refine quiet_of_plainly hstill ?_
    rw [hres]
    refine ⟨hpubs, hsubs, hclosed, fun o ho => ?_⟩
    rw [List.mem_singleton.mp ho]
    trivial
  cases call with
  | publish p s kinds =>
    cases outcome with
    | failed text =>
      have hres : react M.router (.settle k (.failed text)) = Router.settlePublish k p s kinds
          (.failed text) { M.router with negotiating := M.router.negotiating.delete k } := by
        simp [react, Router.settle, hcall]
      exact hfailed hres rfl rfl rfl
    | succeeded sdp =>
      have hres : react M.router (.settle k (.succeeded sdp)) = Router.settlePublish k p s kinds
          (.succeeded sdp) { M.router with negotiating := M.router.negotiating.delete k } := by
        simp [react, Router.settle, hcall]
      unfold MediaPlane.route
      rw [hres]
      exact .published hstill hfits.1 hcall hfits.2 rfl rfl rfl (plain_mustSdp _ _)
  | subscribe p s owner =>
    obtain ⟨hfree, pub, hpub, rfl⟩ := hfits
    cases outcome with
    | failed text =>
      have hres : react M.router (.settle k (.failed text)) = Router.settleSubscribe k p s
          pub.info.ownerPeerId (.failed text)
          { M.router with negotiating := M.router.negotiating.delete k } := by
        simp [react, Router.settle, hcall]
      exact hfailed hres rfl rfl rfl
    | succeeded sdp =>
      have hres : react M.router (.settle k (.succeeded sdp)) = Router.settleSubscribe k p s
          pub.info.ownerPeerId (.succeeded sdp)
          { M.router with negotiating := M.router.negotiating.delete k } := by
        simp [react, Router.settle, hcall]
      unfold MediaPlane.route
      rw [hres]
      exact .subscribed hstill hpub hfree rfl rfl rfl (plain_mustSdp _ _)
  | completeSubscribe p s =>
    have hres : react M.router (.settle k outcome) = Router.settleComplete p s outcome
        { M.router with negotiating := M.router.negotiating.delete k } := by
      simp [react, Router.settle, hcall]
    refine quiet_of_plainly hstill ?_
    rw [hres]
    refine ⟨?_, ?_, ?_, ?_⟩
    · cases outcome <;> rfl
    · cases outcome <;> rfl
    · cases outcome <;> rfl
    · intro o ho
      cases outcome <;> (rw [List.mem_singleton.mp ho]; trivial)

/-! ### Withdrawals of the media plane -/

theorem withdrawn_media {e : MediaEvent} {e' : Event} (hevent : routerEvent e = some e')
    (hwithdrawn : Withdrawn M.router (unpublished M.router e') (Leaves M.router e')
      (react M.router e').1 (react M.router e').2)
    (hclosed : (react M.router e').1.closed = M.router.closed)
    (hreport : ∀ p subs pubs, e ≠ .message p (.statsReport subs pubs))
    (hno : ∀ p, e' ≠ .removePeer p) : MediaOutcome M e (M.route e') :=
  .withdrawn hevent hwithdrawn hclosed hreport (.inr ⟨hno, rfl⟩)

theorem unpublish_media {e : MediaEvent} {s : String}
    (hevent : routerEvent e = some (.unpublish s))
    (hreport : ∀ p subs pubs, e ≠ .message p (.statsReport subs pubs)) :
    MediaOutcome M e (M.route (.unpublish s)) := by
  refine withdrawn_media hevent ?_ (closed_unpublish s M.router) hreport fun p h => by cases h
  refine (withdrawn_unpublish s M.router).congr (fun _ => Iff.rfl) fun p t => ?_
  constructor
  · rintro (h | h)
    · exact h
    · cases h
  · intro h
    exact h.elim

theorem unsubscribe_media {e : MediaEvent} {p : PeerId} {s : String}
    (hevent : routerEvent e = some (.unsubscribe p s))
    (hreport : ∀ p subs pubs, e ≠ .message p (.statsReport subs pubs)) :
    MediaOutcome M e (M.route (.unsubscribe p s)) := by
  refine withdrawn_media hevent ?_ (closed_unsubscribe p s M.router) hreport fun p h => by cases h
  refine (withdrawn_unsubscribe p s M.router).congr (fun _ => Iff.rfl) fun q t => ?_
  constructor
  · rintro (h | h)
    · exact h
    · cases h
  · exact Or.inl

theorem stateChange_media (pc : ℕ) (state : PcState) :
    MediaOutcome M (.stateChange pc state) (M.route (.stateChange pc state)) := by
  have hreport : ∀ p subs pubs, MediaEvent.stateChange pc state ≠
      .message p (.statsReport subs pubs) := fun p subs pubs h => by cases h
  have hno : ∀ p, Event.stateChange pc state ≠ .removePeer p := fun p h => by cases h
  by_cases hact : state.lost = true ∧ (M.router.pcs pc).onState ≠ none
  · obtain ⟨hlost, hsome⟩ := hact
    obtain ⟨handler, hhandler⟩ := Option.ne_none_iff_exists'.mp hsome
    cases handler with
    | unpublish s =>
      have hres : react M.router (.stateChange pc state) =
          (M.router.reported pc state).unpublish s := by
        show M.router.onStateChange pc state = _
        unfold Router.onStateChange
        dsimp only
        rw [if_pos hlost, hhandler]
      refine withdrawn_media rfl ?_ ?_ hreport hno
      · rw [hres]
        refine (withdrawn_unpublish s _).of_reported.congr (fun t => ?_) fun p t => ?_
        · show state.lost = true ∧ (M.router.pcs pc).onState = some (.unpublish t) ↔ t = s
          rw [hhandler, hlost, Option.some.injEq, Handler.unpublish.injEq]
          exact ⟨fun h => h.2.symm, fun h => ⟨rfl, h.symm⟩⟩
        · constructor
          · rintro (⟨-, h⟩ | h)
            · rw [hhandler] at h
              cases h
            · cases h
          · intro h
            exact h.elim
      · rw [hres]
        exact (closed_unpublish s _).trans (closed_reported ..)
    | unsubscribe p s =>
      have hres : react M.router (.stateChange pc state) =
          (M.router.reported pc state).unsubscribe p s := by
        show M.router.onStateChange pc state = _
        unfold Router.onStateChange
        dsimp only
        rw [if_pos hlost, hhandler]
      refine withdrawn_media rfl ?_ ?_ hreport hno
      · rw [hres]
        refine (withdrawn_unsubscribe p s _).of_reported.congr (fun t => ?_) fun q t => ?_
        · show state.lost = true ∧ (M.router.pcs pc).onState = some (.unpublish t) ↔ False
          rw [hhandler]
          simp
        · constructor
          · rintro (⟨-, h⟩ | h)
            · rw [hhandler] at h
              cases h
              exact ⟨rfl, rfl⟩
            · cases h
          · rintro ⟨rfl, rfl⟩
            exact .inl ⟨hlost, hhandler⟩
      · rw [hres]
        exact (closed_unsubscribe p s _).trans (closed_reported ..)
  · have hidle := onStateChange_idle hact
    refine quiet_of_plainly ⟨?_, ?_, hreport⟩ ?_
    · intro e' he s hs
      cases he
      exact hact ⟨hs.1, by rw [hs.2]; exact Option.some_ne_none _⟩
    · intro e' he p s hl
      cases he
      rcases hl with hl | hl
      · exact hact ⟨hl.1, by rw [hl.2]; exact Option.some_ne_none _⟩
      · cases hl
    · show Plainly M.router (M.router.onStateChange pc state)
      rw [hidle]
      exact plainly_reported M.router pc state

theorem peerGone_media (p : PeerId) : MediaOutcome M (.peerGone p) (M.onPeerGone p) := by
  have hevent : routerEvent (.peerGone p) = some (.removePeer p) := rfl
  refine .withdrawn hevent ?_ (closed_removePeer p M.router)
    (fun q subs pubs h => by cases h) (.inl ⟨p, rfl, rfl⟩)
  refine (withdrawn_removePeer p M.router).congr (fun _ => Iff.rfl) fun q t => ?_
  constructor
  · rintro (h | h)
    · exact h.elim
    · cases h
      rfl
  · rintro rfl
    exact .inr rfl

/-- A message that the media plane has no use for. -/
theorem ignored_media {p : PeerId} {body : Body} (hevent : request p body = none)
    (hreport : ∀ subs pubs, body ≠ .statsReport subs pubs) :
    MediaOutcome M (.message p body) (M, []) := by
  have hnone : ∀ e', routerEvent (.message p body) ≠ some e' := by
    intro e' he
    rw [show routerEvent (.message p body) = request p body from rfl, hevent] at he
    cases he
  refine .quiet ⟨fun e' he => absurd he (hnone e'), fun e' he => absurd he (hnone e'), ?_⟩ rfl rfl
    rfl rfl fun q d h => by cases h
  intro q subs pubs heq
  cases heq
  exact hreport subs pubs rfl

theorem message_media (p : PeerId) (body : Body) :
    MediaOutcome M (.message p body) (M.handleMessage p body) := by
  cases body with
  | publishOffer s video audio sdp =>
    have hplain : Plainly M.router (react M.router (.publish p s ⟨video, audio⟩)) :=
      plainly_publish ..
    exact quiet_of_plainly (still_of_starting rfl rfl) hplain
  | subscribe s =>
    have hplain : Plainly M.router (react M.router (.subscribe p s)) := plainly_subscribe ..
    exact quiet_of_plainly (still_of_starting rfl rfl) hplain
  | subscribeAnswer s sdp =>
    have hplain : Plainly M.router (react M.router (.completeSubscribe p s)) :=
      plainly_completeSubscribe ..
    exact quiet_of_plainly (still_of_starting rfl rfl) hplain
  | unpublish s => exact unpublish_media rfl fun q subs pubs h => by cases h
  | unsubscribe s => exact unsubscribe_media rfl fun q subs pubs h => by cases h
  | statsReport subs pubs => exact .reported
  | join => exact ignored_media rfl fun _ _ h => by cases h
  | joined => exact ignored_media rfl fun _ _ h => by cases h
  | hostTransfer => exact ignored_media rfl fun _ _ h => by cases h
  | rosterUpdate => exact ignored_media rfl fun _ _ h => by cases h
  | rejected => exact ignored_media rfl fun _ _ h => by cases h
  | ping => exact ignored_media rfl fun _ _ h => by cases h
  | pong => exact ignored_media rfl fun _ _ h => by cases h
  | bye => exact ignored_media rfl fun _ _ h => by cases h
  | publishAnswer => exact ignored_media rfl fun _ _ h => by cases h
  | subscribeOffer => exact ignored_media rfl fun _ _ h => by cases h
  | streamState => exact ignored_media rfl fun _ _ h => by cases h
  | mediaError => exact ignored_media rfl fun _ _ h => by cases h
  | qualityDirective => exact ignored_media rfl fun _ _ h => by cases h

/-- **Every outcome of an event of the media plane is listed.** -/
theorem media_outcome (h : InStep M.router) {e : MediaEvent} (henabled : MediaEnabled M e) :
    MediaOutcome M e (mediaReact M e) := by
  cases e with
  | message p body => exact message_media p body
  | settle k outcome => exact settle_media h (henabled.1 _ rfl)
  | peerGone p => exact peerGone_media p
  | track pc kind =>
    have hplain : Plainly M.router (react M.router (.track pc kind)) := plainly_track ..
    exact quiet_of_plainly (still_of_starting rfl rfl) hplain
  | stateChange pc state => exact stateChange_media pc state
  | runGovernor => exact .ticked
  | close =>
    have hremoves := removes_close M.router
    exact .closed (fun s => hremoves.publishers_removed s trivial)
      (fun key => hremoves.subscriptions_removed key trivial) (closed_close M.router)
      (onlyEnds_close M.router)

/-! ### The discipline over one event -/

theorem inStep_of_same (h : InStep R) (hnegotiating : R'.negotiating = R.negotiating)
    (hpubs : R'.publishers = R.publishers) (hsubs : R'.subscriptions = R.subscriptions)
    (hclosed : R'.closed = R.closed) : InStep R' where
  fits k call hk := by
    rw [hnegotiating] at hk
    have hfits := h.fits k call hk
    cases call with
    | publish p s kinds =>
      unfold Fits at hfits ⊢
      rw [hclosed, hpubs]
      exact hfits
    | subscribe p s owner =>
      unfold Fits at hfits ⊢
      rw [hpubs, hsubs]
      exact hfits
    | completeSubscribe => trivial
  single k k' call call' hk hk' := by
    rw [hnegotiating] at hk hk'
    exact h.single k k' call call' hk hk'

/-- A removal at a time when no call is in flight. -/
theorem inStep_of_removes {P Q : String → Prop} (hidle : R.negotiating.size = 0)
    (h : Unregisters P Q R R') : InStep R' := by
  refine inStep_of_none fun k => ?_
  rw [h.negotiating]
  exact get_of_size hidle k

theorem inStep_router (h : InStep M.router) {e : MediaEvent} {e' : Event}
    (hevent : routerEvent e = some e') (henabled : MediaEnabled M e) (hseq : Sequential M e) :
    InStep (router.next M.router e') := by
  cases e with
  | message p body =>
    have hidle := hseq trivial
    cases body <;> cases hevent
    · exact inStep_publish hidle _ _ _
    · exact inStep_of_removes hidle (removes_unpublish _ M.router).toUnregisters
    · exact inStep_subscribe hidle _ _
    · exact inStep_completeSubscribe hidle _ _
    · exact inStep_of_removes hidle (removes_unsubscribe _ _ M.router).toUnregisters
  | settle k outcome =>
    cases hevent
    exact inStep_settle h (henabled.1 _ rfl)
  | peerGone p =>
    cases hevent
    exact inStep_of_removes (hseq trivial) (removes_removePeer p M.router).toUnregisters
  | track pc kind =>
    cases hevent
    exact inStep_of_same h rfl rfl rfl rfl
  | stateChange pc state =>
    cases hevent
    by_cases hact : state.lost = true ∧ (M.router.pcs pc).onState ≠ none
    · exact inStep_of_removes (hseq hact) (removes_stateChange hact.1).of_reported
    · show InStep (M.router.onStateChange pc state).1
      rw [onStateChange_idle hact]
      have hsame := (Removes.refl (M.router.reported pc state)).of_reported
      refine inStep_of_same h hsame.negotiating ?_ ?_ (closed_reported ..)
      · exact reported_publishers ..
      · exact reported_subscriptions ..
  | runGovernor => cases hevent
  | close =>
    cases hevent
    exact inStep_of_removes (hseq trivial) (removes_close M.router).toUnregisters

/-- **One event of a sequential run keeps the discipline.** -/
theorem inStep_next (h : InStep M.router) {e : MediaEvent} (henabled : MediaEnabled M e)
    (hseq : Sequential M e) : InStep (mediaPlane.next M e).router := by
  rw [next_router]
  cases hevent : routerEvent e with
  | none => exact h
  | some e' => exact inStep_router h hevent henabled hseq

/-! ### The two tables -/

/-- The governor knows the streams of the router, and their owners. -/
structure Synced (M : MediaPlane) : Prop where
  tracked : ∀ s pub, M.router.publishers.get s = some pub →
    ∃ st, M.governor.streams.get s = some st ∧ st.ownerPeerId = pub.info.ownerPeerId
  known : M.router.closed = false → ∀ s st, M.governor.streams.get s = some st →
    ∃ pub, M.router.publishers.get s = some pub

theorem synced_new (videoBitrateKbps : ℚ) : Synced (.new videoBitrateKbps) where
  tracked s pub h := by cases h
  known _ s st h := by cases h

theorem heardAt_plain {o : Output} (h : o.Plain) (s : String) (st : Option Governor.StreamState) :
    Governor.heardAt s st o = st := by
  cases o with
  | streamLive => exact h.elim
  | streamEnded => exact h.elim
  | demandChanged => exact h.elim
  | answered => rfl
  | resolved => rfl
  | rejected => rfl

theorem plain_last {last : Output} (h : (∃ call sdp, last = .resolved call sdp) ∨
    ∃ call text, last = .rejected call text) : last.Plain := by
  rcases h with ⟨_, _, rfl⟩ | ⟨_, _, rfl⟩ <;> trivial

/-- The entry of a stream that a withdrawal does not end: at most its pause changes. -/
theorem Withdrawn.entry {P : String → Prop} {Q : PeerId → String → Prop} {os : List Output}
    (h : Withdrawn R P Q R' os) {s : String} (hended : Output.streamEnded s ∉ os)
    (st : Option Governor.StreamState) :
    ((∀ owner n, Output.demandChanged s owner n ∉ os) ∧
        os.foldl (Governor.heardAt s) st = st) ∨
      (∃ owner, Output.demandChanged s owner (R'.subscriberCount s) ∈ os) ∧
        os.foldl (Governor.heardAt s) st =
          st.map fun st => { st with paused := R'.subscriberCount s = 0 } := by
  by_cases htold : ∃ owner n, Output.demandChanged s owner n ∈ os
  · obtain ⟨owner, n, hmem⟩ := htold
    obtain ⟨pub, -, -, rfl⟩ := h.demand s owner n hmem
    refine .inr ⟨⟨owner, hmem⟩, foldl_heardAt_told h.only hended ⟨owner, hmem⟩ ?_ st⟩
    intro owner' m hm
    obtain ⟨_, -, -, rfl⟩ := h.demand s owner' m hm
    rfl
  · have huntold : ∀ owner n, Output.demandChanged s owner n ∉ os :=
      fun owner n hmem => htold ⟨owner, n, hmem⟩
    exact .inl ⟨huntold, foldl_heardAt_untold h.only hended huntold st⟩

/-- A stream that is still published has not ended. -/
theorem Withdrawn.not_ended {P : String → Prop} {Q : PeerId → String → Prop} {os : List Output}
    (h : Withdrawn R P Q R' os) {s : String} {pub : Publisher}
    (hpub : R'.publishers.get s = some pub) :
    Output.streamEnded s ∉ os ∧ ¬ P s ∧ R.publishers.get s = some pub := by
  have hP : ¬ P s := by
    intro hs
    rw [h.removes.publishers_removed s hs] at hpub
    cases hpub
  exact ⟨fun hmem => hP ((h.ended s).mp hmem).1, hP,
    (h.removes.publishers_kept s hP).symm.trans hpub⟩

/-- What the governor knows of a stream before the outputs of a withdrawal: at most the samples of
the peer that leaves are gone. -/
theorem get_before {G G₀ : Governor} {e' : Event}
    (hgov : (∃ p, e' = .removePeer p ∧ G₀ = G.dropSubscriber p.text) ∨
      ((∀ p, e' ≠ .removePeer p) ∧ G₀ = G)) (s : String) :
    ∃ f : Governor.StreamState → Governor.StreamState,
      G₀.streams.get s = (G.streams.get s).map f ∧
        ∀ st, (f st).ownerPeerId = st.ownerPeerId ∧ (f st).pub = st.pub ∧
          (f st).level = st.level ∧ (f st).paused = st.paused := by
  rcases hgov with ⟨p, -, rfl⟩ | ⟨-, rfl⟩
  · exact ⟨_, G.get_dropSubscriber p.text s, fun st => ⟨rfl, rfl, rfl, rfl⟩⟩
  · refine ⟨id, ?_, fun st => ⟨rfl, rfl, rfl, rfl⟩⟩
    rw [Option.map_id]
    rfl

theorem synced_withdrawn (h : Synced M) {P : String → Prop} {Q : PeerId → String → Prop}
    {os : List Output} {e' : Event} {G : Governor} (hw : Withdrawn M.router P Q R' os)
    (hclosed : R'.closed = M.router.closed)
    (hgov : (∃ p, e' = .removePeer p ∧ G = M.governor.dropSubscriber p.text) ∨
      ((∀ p, e' ≠ .removePeer p) ∧ G = M.governor)) :
    Synced ({ router := R', governor := G : MediaPlane }.onOutputs os).1 where
  tracked s pub hpub := by
    rw [onOutputs_router] at hpub
    obtain ⟨hended, -, hbefore⟩ := hw.not_ended hpub
    obtain ⟨st, hst, howner⟩ := h.tracked s pub hbefore
    obtain ⟨f, hf, hkeep⟩ := get_before hgov s
    rw [onOutputs_get]
    show ∃ st, os.foldl (Governor.heardAt s) (G.streams.get s) = some st ∧ _
    rcases hw.entry hended (G.streams.get s) with ⟨-, heq⟩ | ⟨-, heq⟩
    · rw [heq, hf, hst]
      exact ⟨f st, rfl, (hkeep st).1.trans howner⟩
    · rw [heq, hf, hst]
      exact ⟨_, rfl, (hkeep st).1.trans howner⟩
  known hopen s st hst := by
    rw [onOutputs_router] at hopen ⊢
    rw [onOutputs_get] at hst
    change os.foldl (Governor.heardAt s) (G.streams.get s) = some st at hst
    obtain ⟨f, hf, -⟩ := get_before hgov s
    have hended : Output.streamEnded s ∉ os := by
      intro hmem
      rw [foldl_heardAt_ended hw.only hmem] at hst
      cases hst
    have hsome : M.governor.streams.get s ≠ none := by
      intro hnone
      rw [hf, hnone] at hst
      have hnone' := foldl_heardAt_none (s := s) hw.only
      rw [Option.map_none, hnone'] at hst
      cases hst
    obtain ⟨st₀, hst₀⟩ := Option.ne_none_iff_exists'.mp hsome
    obtain ⟨pub, hpub⟩ := h.known (hclosed.symm.trans hopen) s st₀ hst₀
    have hP : ¬ P s := fun hs =>
      hended ((hw.ended s).mpr ⟨hs, (InsertionMap.has_iff _ _).mpr ⟨pub, hpub⟩⟩)
    exact ⟨pub, (hw.removes.publishers_kept s hP).trans hpub⟩

/-- Two states with the same streams, published and known, with the same owners. -/
theorem synced_of_same (h : Synced M) {M' : MediaPlane}
    (hpubs : M'.router.publishers = M.router.publishers)
    (hclosed : M'.router.closed = M.router.closed)
    (hnone : ∀ s, M.governor.streams.get s = none → M'.governor.streams.get s = none)
    (hsome : ∀ s st, M.governor.streams.get s = some st →
      ∃ st', M'.governor.streams.get s = some st' ∧ st'.ownerPeerId = st.ownerPeerId) :
    Synced M' where
  tracked s pub hpub := by
    rw [hpubs] at hpub
    obtain ⟨st, hst, howner⟩ := h.tracked s pub hpub
    obtain ⟨st', hst', hsame⟩ := hsome s st hst
    exact ⟨st', hst', hsame.trans howner⟩
  known hopen s st' hst' := by
    rw [hclosed] at hopen
    rw [hpubs]
    cases hst : M.governor.streams.get s with
    | none =>
      rw [hnone s hst] at hst'
      cases hst'
    | some st => exact h.known hopen s st hst

/-- The governor's entries after a stream has gone live. -/
theorem published_get (G : Governor) {info : StreamInfo} {last : Output} (hlast : last.Plain)
    (s : String) :
    [Output.streamLive info, last].foldl (Governor.heardAt s) (G.streams.get s) =
      if s = info.streamId then
        some ((G.streams.get s).getD (Governor.fresh info.ownerPeerId))
      else G.streams.get s := by
  rw [List.foldl_cons, List.foldl_cons, List.foldl_nil, heardAt_plain hlast]
  rfl

/-- The governor's entries after a subscription has begun. -/
theorem subscribed_get (G : Governor) {t owner : String} {n : ℕ} {last : Output}
    (hlast : last.Plain) (s : String) :
    [Output.demandChanged t owner n, last].foldl (Governor.heardAt s) (G.streams.get s) =
      if s = t then (G.streams.get s).map fun st => { st with paused := n = 0 }
      else G.streams.get s := by
  rw [List.foldl_cons, List.foldl_cons, List.foldl_nil, heardAt_plain hlast]
  rfl

/-- **One event keeps the two tables in step.** -/
theorem synced_next (hs : InStep M.router) (h : Synced M) {e : MediaEvent}
    (henabled : MediaEnabled M e) : Synced (mediaPlane.next M e) := by
  have hout := media_outcome hs henabled
  show Synced (mediaReact M e).1
  generalize mediaReact M e = res at hout
  cases hout with
  | quiet hstill hpubs hsubs hclosed hgov hout =>
    refine synced_of_same h hpubs hclosed (fun s hnone => ?_) fun s st hst => ⟨st, ?_, rfl⟩
    · rw [hgov]
      exact hnone
    · rw [hgov]
      exact hst
  | published hstill hopen hcall hfree hpubs hsubs hclosed hlast =>
    rename_i R' k p s kinds last
    refine ⟨fun t pub hpub => ?_, fun hopen' t st hst => ?_⟩
    · rw [onOutputs_router] at hpub
      rw [onOutputs_get, published_get _ (plain_last hlast)]
      change R'.publishers.get t = some pub at hpub
      rw [hpubs, InsertionMap.get_set] at hpub
      split at hpub
      · next heq =>
        cases hpub
        have hnone : M.governor.streams.get t = none := by
          cases hget : M.governor.streams.get t with
          | none => rfl
          | some st =>
            obtain ⟨pub, hpub⟩ := h.known hopen t st hget
            rw [heq, hfree] at hpub
            cases hpub
        rw [if_pos heq, hnone]
        exact ⟨_, rfl, rfl⟩
      · next heq =>
        obtain ⟨st, hst, howner⟩ := h.tracked t pub hpub
        rw [if_neg heq]
        exact ⟨st, hst, howner⟩
    · rw [onOutputs_router]
      rw [onOutputs_get, published_get _ (plain_last hlast)] at hst
      show ∃ pub, R'.publishers.get t = some pub
      rw [hpubs, InsertionMap.get_set]
      split
      · exact ⟨_, rfl⟩
      · next heq =>
        rw [if_neg heq] at hst
        exact h.known hopen t st hst
  | subscribed hstill hpub hfree hpubs hsubs hclosed hlast =>
    refine synced_of_same h ?_ ?_ (fun t hnone => ?_) fun t st hst => ?_
    · rw [onOutputs_router]
      exact hpubs
    · rw [onOutputs_router]
      exact hclosed
    · rw [onOutputs_get, subscribed_get _ (plain_last hlast), hnone]
      split <;> rfl
    · rw [onOutputs_get, subscribed_get _ (plain_last hlast), hst]
      split
      · exact ⟨_, rfl, rfl⟩
      · exact ⟨st, rfl, rfl⟩
  | withdrawn hevent hwithdrawn hclosed hreport hgov =>
    exact synced_withdrawn h hwithdrawn hclosed hgov
  | reported =>
    rename_i p subs pubs
    refine synced_of_same h rfl rfl (fun s hnone => ingest_none M p subs pubs hnone)
      fun s st hst => ?_
    obtain ⟨st', hst', hin⟩ := ingest_get M p subs pubs hst
    exact ⟨st', hst', hin.owner⟩
  | ticked =>
    obtain ⟨-, hevolve, -⟩ := M.governor.evaluate_spec
    refine synced_of_same h rfl rfl (fun s hnone => ?_) fun s st hst => ?_
    · rcases hevolve s with ⟨-, hnone'⟩ | ⟨st, _, hst, -, -⟩
      · exact hnone'
      · rw [hnone] at hst
        cases hst
    · rcases hevolve s with ⟨hnone, -⟩ | ⟨u, st', hu, hst', hev⟩
      · rw [hst] at hnone
        cases hnone
      · have heq : u = st := Option.some.inj (hu.symm.trans hst)
        subst heq
        exact ⟨st', hst', hev.owner⟩
  | closed hpubs hsubs hclosed hends =>
    refine ⟨fun s pub hpub => ?_, fun hopen => ?_⟩
    · rw [onOutputs_router] at hpub
      cases (hpubs s).symm.trans hpub
    · rw [onOutputs_router] at hopen
      cases hclosed.symm.trans hopen

end ScreenSharing.Sfu
