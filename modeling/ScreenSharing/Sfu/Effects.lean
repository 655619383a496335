import ScreenSharing.Sfu.Router

/-!
# What the router's removals do

`unpublish`, `unsubscribe`, `removePeer` and `close` only take registrations away.  `Removes P Q`
says so once for all of them: a step removes exactly the publishers whose stream id satisfies `P`
and the subscriptions whose key satisfies `Q` (`Unregisters`), closes the connections of what it
removes, detaches the forwards of a removed subscription, and leaves every other connection alone.

* `removes_dropWhere` — the loop over the subscriptions;
* `Removes.comp` — one removal after another;
* `removes_unpublish`, `removes_unsubscribe`, `removes_removePeer`, `removes_close` — the four
  operations.

Everything proved later about removals uses these, and never the loops.
-/

namespace ScreenSharing.Sfu

open Lib

/-- The step from `R` to `R'` takes exactly the publishers in `P` and the subscriptions in `Q` out of
the tables. -/
structure Unregisters (P Q : String → Prop) (R R' : Router) : Prop where
  publishers_removed : ∀ s, P s → R'.publishers.get s = none
  publishers_kept : ∀ s, ¬ P s → R'.publishers.get s = R.publishers.get s
  subscriptions_removed : ∀ key, Q key → R'.subscriptions.get key = none
  subscriptions_kept : ∀ key, ¬ Q key → R'.subscriptions.get key = R.subscriptions.get key
  negotiating : R'.negotiating = R.negotiating
  nextCall : R'.nextCall = R.nextCall

/-- The step from `R` to `R'` removes exactly the publishers in `P` and the subscriptions
in `Q`. -/
structure Removes (P Q : String → Prop) (R R' : Router) : Prop extends Unregisters P Q R R' where
  publisher_closed : ∀ s pub, P s → R.publishers.get s = some pub →
    (R'.pcs pub.pc).closed = true
  subscription_shut : ∀ key sub, Q key → R.subscriptions.get key = some sub →
    (R'.pcs sub.pc).closed = true ∧ (R'.pcs sub.pc).forwards = []
  pcs_kept : ∀ k, (∀ s pub, P s → R.publishers.get s = some pub → pub.pc ≠ k) →
    (∀ key sub, Q key → R.subscriptions.get key = some sub → sub.pc ≠ k) → R'.pcs k = R.pcs k
  closed_mono : ∀ k, (R.pcs k).closed = true → (R'.pcs k).closed = true
  forwards : ∀ k, (R'.pcs k).forwards = (R.pcs k).forwards ∨ (R'.pcs k).forwards = []
  onState : ∀ k, (R'.pcs k).onState = (R.pcs k).onState

variable {P P' Q Q' : String → Prop} {R R₁ R₂ R' : Router}

theorem Removes.refl (R : Router) : Removes (fun _ => False) (fun _ => False) R R where
  publishers_removed := by intro s h; exact h.elim
  publishers_kept := by intro s h; rfl
  subscriptions_removed := by intro key h; exact h.elim
  subscriptions_kept := by intro key h; rfl
  publisher_closed := by intro s pub h; exact h.elim
  subscription_shut := by intro key sub h; exact h.elim
  pcs_kept := by intro k _ _; rfl
  closed_mono := by intro k h; exact h
  forwards := by intro k; exact .inl rfl
  onState := by intro k; rfl
  negotiating := rfl
  nextCall := rfl

/-- **One removal after another.** -/
theorem Removes.comp (h₁ : Removes P Q R R₁) (h₂ : Removes P' Q' R₁ R₂) :
    Removes (fun s => P s ∨ P' s) (fun key => Q key ∨ Q' key) R R₂ where
  publishers_removed := by
    intro s hs
    by_cases h' : P' s
    · exact h₂.publishers_removed s h'
    · rw [h₂.publishers_kept s h']
      exact h₁.publishers_removed s (hs.resolve_right h')
  publishers_kept := by
    intro s hs
    obtain ⟨hP, hP'⟩ := not_or.mp hs
    rw [h₂.publishers_kept s hP', h₁.publishers_kept s hP]
  subscriptions_removed := by
    intro key hkey
    by_cases h' : Q' key
    · exact h₂.subscriptions_removed key h'
    · rw [h₂.subscriptions_kept key h']
      exact h₁.subscriptions_removed key (hkey.resolve_right h')
  subscriptions_kept := by
    intro key hkey
    obtain ⟨hQ, hQ'⟩ := not_or.mp hkey
    rw [h₂.subscriptions_kept key hQ', h₁.subscriptions_kept key hQ]
  publisher_closed := by
    intro s pub hs hpub
    by_cases hP : P s
    · exact h₂.closed_mono _ (h₁.publisher_closed s pub hP hpub)
    · have hpub₁ : R₁.publishers.get s = some pub := (h₁.publishers_kept s hP).trans hpub
      exact h₂.publisher_closed s pub (hs.resolve_left hP) hpub₁
  subscription_shut := by
    intro key sub hkey hsub
    by_cases hQ : Q key
    · obtain ⟨hclosed, hforwards⟩ := h₁.subscription_shut key sub hQ hsub
      refine ⟨h₂.closed_mono _ hclosed, ?_⟩
      rcases h₂.forwards sub.pc with h | h
      · rw [h, hforwards]
      · exact h
    · have hsub₁ : R₁.subscriptions.get key = some sub := (h₁.subscriptions_kept key hQ).trans hsub
      exact h₂.subscription_shut key sub (hkey.resolve_left hQ) hsub₁
  pcs_kept := by
    intro k hpub hsub
    have hstep₁ : R₁.pcs k = R.pcs k :=
      h₁.pcs_kept k (fun s pub hs => hpub s pub (.inl hs))
        (fun key sub hk => hsub key sub (.inl hk))
    refine Eq.trans (h₂.pcs_kept k ?_ ?_) hstep₁
    · intro s pub hs hget
      by_cases hP : P s
      · rw [h₁.publishers_removed s hP] at hget
        cases hget
      · exact hpub s pub (.inr hs) ((h₁.publishers_kept s hP).symm.trans hget)
    · intro key sub hk hget
      by_cases hQ : Q key
      · rw [h₁.subscriptions_removed key hQ] at hget
        cases hget
      · exact hsub key sub (.inr hk) ((h₁.subscriptions_kept key hQ).symm.trans hget)
  closed_mono := by
    intro k h
    exact h₂.closed_mono k (h₁.closed_mono k h)
  forwards := by
    intro k
    rcases h₂.forwards k with h | h
    · rcases h₁.forwards k with h' | h'
      · exact .inl (h.trans h')
      · exact .inr (h.trans h')
    · exact .inr h
  onState := by
    intro k
    rw [h₂.onState, h₁.onState]
  negotiating := h₂.negotiating.trans h₁.negotiating
  nextCall := h₂.nextCall.trans h₁.nextCall

/-- Closing a connection touches no table. -/
theorem Unregisters.of_closePc {k : ℕ} (h : Unregisters P Q (R.closePc k) R') :
    Unregisters P Q R R' :=
  ⟨h.publishers_removed, h.publishers_kept, h.subscriptions_removed, h.subscriptions_kept,
    h.negotiating, h.nextCall⟩

@[simp] theorem reported_publishers (k : ℕ) (state : PcState) :
    (R.reported k state).publishers = R.publishers := by
  unfold Router.reported
  split <;> rfl

@[simp] theorem reported_subscriptions (k : ℕ) (state : PcState) :
    (R.reported k state).subscriptions = R.subscriptions := by
  unfold Router.reported
  split <;> rfl

theorem Unregisters.of_reported {k : ℕ} {state : PcState}
    (h : Unregisters P Q (R.reported k state) R') : Unregisters P Q R R' := by
  unfold Router.reported at h
  split at h
  · exact h.of_closePc
  · exact h

/-- The same removal under another description of what is removed. -/
theorem Removes.congr (h : Removes P Q R R') (hP : ∀ s, P' s ↔ P s) (hQ : ∀ key, Q' key ↔ Q key) :
    Removes P' Q' R R' := by
  have heqP : P' = P := funext fun s => propext (hP s)
  have heqQ : Q' = Q := funext fun key => propext (hQ key)
  rw [heqP, heqQ]
  exact h

/-! ### Dropping subscriptions -/

theorem removes_dropSubscription {key : String} {sub : Subscription}
    (hsub : R.subscriptions.get key = some sub) :
    Removes (fun _ => False) (fun key' => key' = key) R (R.dropSubscription key sub) where
  publishers_removed := by intro s h; exact h.elim
  publishers_kept := by intro s _; rfl
  subscriptions_removed := by
    rintro key' rfl
    exact InsertionMap.get_delete_self _ _
  subscriptions_kept := by
    intro key' hne
    exact InsertionMap.get_delete_ne _ hne
  publisher_closed := by intro s pub h; exact h.elim
  subscription_shut := by
    rintro key' sub' rfl hsub'
    have heq : sub' = sub := Option.some.inj (hsub'.symm.trans hsub)
    subst heq
    simp [Router.dropSubscription, Pc.shut]
  pcs_kept := by
    intro k _ hk
    have hne : k ≠ sub.pc := fun he => hk key sub rfl hsub he.symm
    exact Function.update_of_ne hne _ _
  closed_mono := by
    intro k h
    by_cases hk : k = sub.pc
    · subst hk
      simp [Router.dropSubscription, Pc.shut]
    · simpa [Router.dropSubscription, Function.update_of_ne hk] using h
  forwards := by
    intro k
    by_cases hk : k = sub.pc
    · subst hk
      simp [Router.dropSubscription, Pc.shut]
    · simp [Router.dropSubscription, Function.update_of_ne hk]
  onState := by
    intro k
    by_cases hk : k = sub.pc
    · subst hk
      simp [Router.dropSubscription, Pc.shut]
    · simp [Router.dropSubscription, Function.update_of_ne hk]
  negotiating := rfl
  nextCall := rfl

/-- **The loop over the subscriptions** removes those whose key passes the test, as long as the
entries it runs over are entries of the table with distinct keys. -/
theorem removes_dropWhere_entries (p : String → Bool) (es : List (String × Subscription)) :
    ∀ R : Router, (es.map Prod.fst).Nodup → (∀ key sub, (key, sub) ∈ es →
      R.subscriptions.get key = some sub) →
      Removes (fun _ => False) (fun key => p key = true ∧ key ∈ es.map Prod.fst) R
        (Router.dropWhere p es R) := by
  induction es with
  | nil =>
    intro R _ _
    exact (Removes.refl R).congr (fun _ => Iff.rfl) (fun key => by simp)
  | cons e es ih =>
    intro R hnodup hmem
    obtain ⟨key, sub⟩ := e
    rw [List.map_cons, List.nodup_cons] at hnodup
    have hsub : R.subscriptions.get key = some sub := hmem key sub List.mem_cons_self
    by_cases hp : p key = true
    · have hrest : ∀ key' sub', (key', sub') ∈ es →
          (R.dropSubscription key sub).subscriptions.get key' = some sub' := by
        intro key' sub' hin
        have hne : key' ≠ key := by
          rintro rfl
          exact hnodup.1 (List.mem_map.mpr ⟨(key', sub'), hin, rfl⟩)
        exact (InsertionMap.get_delete_ne _ hne).trans (hmem key' sub' (List.mem_cons_of_mem _ hin))
      have hstep := (removes_dropSubscription hsub).comp (ih _ hnodup.2 hrest)
      have hunfold : Router.dropWhere p ((key, sub) :: es) R
          = Router.dropWhere p es (R.dropSubscription key sub) := by
        rw [Router.dropWhere, if_pos hp]
      rw [hunfold]
      refine hstep.congr (fun s => by simp) (fun key' => ?_)
      rw [List.map_cons, List.mem_cons]
      constructor
      · rintro ⟨hpk, rfl | hin⟩
        · exact .inl rfl
        · exact .inr ⟨hpk, hin⟩
      · rintro (rfl | ⟨hpk, hin⟩)
        · exact ⟨hp, .inl rfl⟩
        · exact ⟨hpk, .inr hin⟩
    · have hstep := ih R hnodup.2 fun key' sub' hin => hmem key' sub' (List.mem_cons_of_mem _ hin)
      have hunfold : Router.dropWhere p ((key, sub) :: es) R = Router.dropWhere p es R := by
        rw [Router.dropWhere, if_neg hp]
      rw [hunfold]
      refine hstep.congr (fun _ => Iff.rfl) (fun key' => ?_)
      rw [List.map_cons, List.mem_cons]
      constructor
      · rintro ⟨hpk, rfl | hin⟩
        · exact absurd hpk hp
        · exact ⟨hpk, hin⟩
      · rintro ⟨hpk, hin⟩
        exact ⟨hpk, .inr hin⟩

theorem removes_dropWhere (p : String → Bool) (R : Router) :
    Removes (fun _ => False) (fun key => p key = true ∧ ∃ sub, R.subscriptions.get key = some sub) R
      (Router.dropWhere p R.subscriptions.entries R) := by
  refine (removes_dropWhere_entries p R.subscriptions.entries R R.subscriptions.nodup ?_).congr
    (fun _ => Iff.rfl) (fun key => ?_)
  · intro key sub hin
    exact (InsertionMap.mem_entries _ _ _).mp hin
  · exact and_congr_right fun _ => (InsertionMap.mem_keys R.subscriptions key).symm

/-- A removal may also claim what is not there: `P` and `Q` matter only where something is
registered. -/
theorem Removes.widen (h : Removes P Q R R')
    (hP : ∀ s, P' s ↔ P s ∨ (P' s ∧ R.publishers.get s = none))
    (hQ : ∀ key, Q' key ↔ Q key ∨ (Q' key ∧ R.subscriptions.get key = none)) :
    Removes P' Q' R R' where
  publishers_removed := by
    intro s hs
    by_cases h' : P s
    · exact h.publishers_removed s h'
    · rw [h.publishers_kept s h']
      exact (((hP s).mp hs).resolve_left h').2
  publishers_kept := by
    intro s hs
    exact h.publishers_kept s fun h' => hs ((hP s).mpr (.inl h'))
  subscriptions_removed := by
    intro key hkey
    by_cases h' : Q key
    · exact h.subscriptions_removed key h'
    · rw [h.subscriptions_kept key h']
      exact (((hQ key).mp hkey).resolve_left h').2
  subscriptions_kept := by
    intro key hkey
    exact h.subscriptions_kept key fun h' => hkey ((hQ key).mpr (.inl h'))
  publisher_closed := by
    intro s pub hs hpub
    rcases (hP s).mp hs with h' | ⟨-, hnone⟩
    · exact h.publisher_closed s pub h' hpub
    · rw [hnone] at hpub
      cases hpub
  subscription_shut := by
    intro key sub hkey hsub
    rcases (hQ key).mp hkey with h' | ⟨-, hnone⟩
    · exact h.subscription_shut key sub h' hsub
    · rw [hnone] at hsub
      cases hsub
  pcs_kept := by
    intro k hpub hsub
    exact h.pcs_kept k (fun s pub hs => hpub s pub ((hP s).mpr (.inl hs)))
      (fun key sub hk => hsub key sub ((hQ key).mpr (.inl hk)))
  closed_mono := h.closed_mono
  forwards := h.forwards
  onState := h.onState
  negotiating := h.negotiating
  nextCall := h.nextCall

/-! ### `unsubscribe` -/

/-- **`unsubscribe` removes exactly its own subscription.** -/
theorem removes_unsubscribe (p : PeerId) (s : String) (R : Router) :
    Removes (fun _ => False) (fun key => key = subKey p s) R (R.unsubscribe p s).1 := by
  unfold Router.unsubscribe
  dsimp only
  split
  · next hnone =>
    refine (Removes.refl R).widen (fun _ => by simp) (fun key => ?_)
    constructor
    · rintro rfl
      exact .inr ⟨rfl, hnone⟩
    · rintro (h | h)
      · exact h.elim
      · exact h.1
  · next sub hsub => exact removes_dropSubscription hsub

/-! ### `unpublish` -/

/-- The part of `unpublish` that is about the publisher. -/
def dropPublisher (s : String) (pub : Publisher) (R : Router) : Router :=
  { R with
    publishers := R.publishers.delete s
    pcs := Function.update R.pcs pub.pc (R.pcs pub.pc).close }

theorem removes_dropPublisher {s : String} {pub : Publisher}
    (hpub : R.publishers.get s = some pub) :
    Removes (fun t => t = s) (fun _ => False) R (dropPublisher s pub R) where
  publishers_removed := by
    rintro t rfl
    exact InsertionMap.get_delete_self _ _
  publishers_kept := by
    intro t hne
    exact InsertionMap.get_delete_ne _ hne
  subscriptions_removed := by intro key h; exact h.elim
  subscriptions_kept := by intro key _; rfl
  publisher_closed := by
    rintro t pub' rfl hpub'
    have heq : pub' = pub := Option.some.inj (hpub'.symm.trans hpub)
    subst heq
    simp [dropPublisher, Pc.close]
  subscription_shut := by intro key sub h; exact h.elim
  pcs_kept := by
    intro k hk _
    have hne : k ≠ pub.pc := fun he => hk s pub rfl hpub he.symm
    exact Function.update_of_ne hne _ _
  closed_mono := by
    intro k h
    by_cases hk : k = pub.pc
    · subst hk
      simp [dropPublisher, Pc.close]
    · simpa [dropPublisher, Function.update_of_ne hk] using h
  forwards := by
    intro k
    by_cases hk : k = pub.pc
    · subst hk
      simp [dropPublisher, Pc.close]
    · simp [dropPublisher, Function.update_of_ne hk]
  onState := by
    intro k
    by_cases hk : k = pub.pc
    · subst hk
      simp [dropPublisher, Pc.close]
    · simp [dropPublisher, Function.update_of_ne hk]
  negotiating := rfl
  nextCall := rfl

/-- Closing a connection and dropping a subscription can be swapped. -/
theorem closePc_dropSubscription (k : ℕ) (key : String) (sub : Subscription) (R : Router) :
    (R.dropSubscription key sub).closePc k = (R.closePc k).dropSubscription key sub := by
  have hpcs : ((R.dropSubscription key sub).closePc k).pcs
      = ((R.closePc k).dropSubscription key sub).pcs := by
    funext j
    by_cases hk : k = sub.pc
    · subst hk
      by_cases hj : j = sub.pc
      · subst hj
        simp [Router.closePc, Router.dropSubscription, Pc.close, Pc.shut]
      · simp [Router.closePc, Router.dropSubscription, Function.update_of_ne hj]
    · by_cases hj : j = k
      · subst hj
        simp [Router.closePc, Router.dropSubscription, Function.update_of_ne hk]
      · by_cases hj' : j = sub.pc
        · subst hj'
          simp [Router.closePc, Router.dropSubscription, Function.update_of_ne hj]
        · simp [Router.closePc, Router.dropSubscription, Function.update_of_ne hj,
            Function.update_of_ne hj']
  show Router.mk _ _ _ _ ((R.dropSubscription key sub).closePc k).pcs _ = _
  rw [hpcs]
  rfl

theorem closePc_dropWhere (k : ℕ) (p : String → Bool) (es : List (String × Subscription)) :
    ∀ R : Router, (Router.dropWhere p es R).closePc k = Router.dropWhere p es (R.closePc k) := by
  induction es with
  | nil => intro R; rfl
  | cons e es ih =>
    intro R
    rw [Router.dropWhere, Router.dropWhere, ih]
    by_cases hp : p e.1 = true
    · rw [if_pos hp, if_pos hp, closePc_dropSubscription]
    · rw [if_neg hp, if_neg hp]

/-- `unpublish` of a published stream, publisher first. -/
theorem unpublish_eq {s : String} {pub : Publisher} (hpub : R.publishers.get s = some pub) :
    (R.unpublish s).1 = Router.dropWhere (fun key => endsWith key ("::" ++ s))
      R.subscriptions.entries (dropPublisher s pub R) := by
  simp only [Router.unpublish, hpub]
  rw [closePc_dropWhere]
  rfl

/-- **`unpublish` removes the stream, and every subscription whose key ends with it.**  When the
stream is not published it removes nothing. -/
theorem removes_unpublish (s : String) (R : Router) :
    Removes (fun t => t = s)
      (fun key => R.publishers.has s = true ∧ endsWith key ("::" ++ s) = true) R
      (R.unpublish s).1 := by
  cases hget : R.publishers.get s with
  | none =>
    have hhas : R.publishers.has s = false := (InsertionMap.has_eq_false _ _).mpr hget
    have hid : (R.unpublish s).1 = R := by simp [Router.unpublish, hget]
    rw [hid]
    refine (Removes.refl R).widen (fun t => ?_) (fun key => by simp [hhas])
    constructor
    · rintro rfl
      exact .inr ⟨rfl, hget⟩
    · rintro (h | h)
      · exact h.elim
      · exact h.1
  | some pub =>
    have hhas : R.publishers.has s = true := (InsertionMap.has_iff _ _).mpr ⟨pub, hget⟩
    rw [unpublish_eq hget]
    have hloop := removes_dropWhere (fun key => endsWith key ("::" ++ s)) (dropPublisher s pub R)
    refine ((removes_dropPublisher hget).comp hloop).widen (fun t => by tauto) (fun key => ?_)
    show _ ↔ (False ∨ _ ∧ ∃ sub, R.subscriptions.get key = some sub) ∨ _
    rw [hhas]
    cases R.subscriptions.get key with
    | none => simp
    | some sub => simp

/-! ### `removePeer` -/

theorem removes_unpublishAll (ss : List String) : ∀ R : Router,
    Removes (fun t => t ∈ ss)
      (fun key => ∃ s ∈ ss, R.publishers.has s = true ∧ endsWith key ("::" ++ s) = true) R
      (R.unpublishAll ss).1 := by
  induction ss with
  | nil =>
    intro R
    exact (Removes.refl R).congr (fun t => by simp) (fun key => by simp)
  | cons s ss ih =>
    intro R
    have hfirst := removes_unpublish s R
    refine (hfirst.comp (ih (R.unpublish s).1)).congr (fun t => List.mem_cons) (fun key => ?_)
    have hhas : ∀ t, t ≠ s → (R.unpublish s).1.publishers.has t = R.publishers.has t := by
      intro t ht
      show ((R.unpublish s).1.publishers.get t).isSome = (R.publishers.get t).isSome
      rw [hfirst.publishers_kept t ht]
    constructor
    · rintro ⟨t, hmem, hpub, hend⟩
      by_cases ht : t = s
      · subst ht
        exact .inl ⟨hpub, hend⟩
      · exact .inr ⟨t, (List.mem_cons.mp hmem).resolve_left ht, by rw [hhas t ht]; exact hpub, hend⟩
    · rintro (⟨hpub, hend⟩ | ⟨t, hmem, hpub, hend⟩)
      · exact ⟨s, List.mem_cons_self, hpub, hend⟩
      · have ht : t ≠ s := by
          rintro rfl
          have hnone : (R.unpublish t).1.publishers.has t = false :=
            (InsertionMap.has_eq_false _ _).mpr (hfirst.publishers_removed t rfl)
          rw [hnone] at hpub
          cases hpub
        exact ⟨t, List.mem_cons_of_mem _ hmem, by rw [← hhas t ht]; exact hpub, hend⟩

theorem mem_ownedBy {p : PeerId} {s : String} :
    s ∈ R.ownedBy p ↔ ∃ pub, R.publishers.get s = some pub ∧ pub.info.ownerPeerId = p.text := by
  simp [Router.ownedBy, InsertionMap.mem_entries]

/-- **`removePeer` removes the peer's publications, the subscriptions that end with one of them, and
every subscription whose key starts with the peer's id.** -/
theorem removes_removePeer (p : PeerId) (R : Router) :
    Removes (fun s => s ∈ R.ownedBy p)
      (fun key => (∃ s ∈ R.ownedBy p, endsWith key ("::" ++ s) = true) ∨
        startsWith key (p.text ++ "::") = true) R (R.removePeer p).1 := by
  have hpubs := removes_unpublishAll (R.ownedBy p) R
  have hsubs := removes_dropWhere (fun key => startsWith key (p.text ++ "::"))
    (R.unpublishAll (R.ownedBy p)).1
  refine (hpubs.comp hsubs).widen (fun s => by tauto) (fun key => ?_)
  have hhas : ∀ s ∈ R.ownedBy p, R.publishers.has s = true := by
    intro s hs
    obtain ⟨pub, hpub, -⟩ := mem_ownedBy.mp hs
    exact (InsertionMap.has_iff _ _).mpr ⟨pub, hpub⟩
  constructor
  · rintro (⟨s, hs, hend⟩ | hstart)
    · exact .inl (.inl ⟨s, hs, hhas s hs, hend⟩)
    · by_cases hQ : ∃ s ∈ R.ownedBy p, R.publishers.has s = true ∧ endsWith key ("::" ++ s) = true
      · exact .inl (.inl hQ)
      · cases hget : R.subscriptions.get key with
        | none => exact .inr ⟨.inr hstart, rfl⟩
        | some sub =>
          exact .inl (.inr ⟨hstart, sub, (hpubs.subscriptions_kept key hQ).trans hget⟩)
  · rintro ((⟨s, hs, -, hend⟩ | ⟨hstart, -⟩) | ⟨h, -⟩)
    · exact .inl ⟨s, hs, hend⟩
    · exact .inr hstart
    · exact h

/-! ### `close` -/

/-- What the loop of `close` may do to the router `R` it started in, when nobody is subscribed: some
publishers are gone, and some of their connections closed. -/
structure Fades (R R' : Router) : Prop where
  publishers : ∀ s pub, R'.publishers.get s = some pub → R.publishers.get s = some pub
  subscriptions : R'.subscriptions = R.subscriptions
  closed : R'.closed = R.closed
  negotiating : R'.negotiating = R.negotiating
  nextCall : R'.nextCall = R.nextCall
  pcs : ∀ k, R'.pcs k = R.pcs k ∨
    R'.pcs k = (R.pcs k).close ∧ ∃ s pub, R.publishers.get s = some pub ∧ pub.pc = k

theorem Fades.refl (R : Router) : Fades R R :=
  ⟨fun _ _ h => h, rfl, rfl, rfl, rfl, fun _ => .inl rfl⟩

theorem Fades.trans (h₁ : Fades R R₁) (h₂ : Fades R₁ R₂) : Fades R R₂ where
  publishers s pub hget := h₁.publishers s pub (h₂.publishers s pub hget)
  subscriptions := h₂.subscriptions.trans h₁.subscriptions
  closed := h₂.closed.trans h₁.closed
  negotiating := h₂.negotiating.trans h₁.negotiating
  nextCall := h₂.nextCall.trans h₁.nextCall
  pcs k := by
    rcases h₂.pcs k with heq | ⟨heq, s, pub, hpub, hpc⟩
    · rw [heq]
      exact h₁.pcs k
    · right
      refine ⟨?_, s, pub, h₁.publishers s pub hpub, hpc⟩
      rcases h₁.pcs k with heq' | ⟨heq', -⟩
      · rw [heq, heq']
      · rw [heq, heq']
        rfl

theorem Fades.closed_mono (h : Fades R R') {k : ℕ} (hk : (R.pcs k).closed = true) :
    (R'.pcs k).closed = true := by
  rcases h.pcs k with heq | ⟨heq, -⟩
  · rw [heq]
    exact hk
  · rw [heq]
    rfl

theorem fades_closePc {s : String} {pub : Publisher} (hpub : R.publishers.get s = some pub) :
    Fades R (R.closePc pub.pc) := by
  refine ⟨fun _ _ h => h, rfl, rfl, rfl, rfl, fun k => ?_⟩
  by_cases hk : k = pub.pc
  · subst hk
    exact .inr ⟨Function.update_self .., s, pub, hpub, rfl⟩
  · exact .inl (Function.update_of_ne hk ..)

theorem fades_dropPublisher {s : String} {pub : Publisher} (hpub : R.publishers.get s = some pub) :
    Fades R (dropPublisher s pub R) :=
  { fades_closePc hpub with publishers := fun _ _ h => (InsertionMap.get_of_get_delete h).1 }

/-- When nobody is subscribed, `unpublish` is about the publisher only. -/
theorem unpublish_of_no_subscriptions (hnone : R.subscriptions.entries = []) {s : String}
    {pub : Publisher} (hpub : R.publishers.get s = some pub) :
    R.unpublish s = (dropPublisher s pub R, [.streamEnded s]) := by
  simp only [Router.unpublish, hpub, hnone]
  rfl

theorem unsubscribe_of_no_subscriptions (hnone : R.subscriptions.entries = []) (p : PeerId)
    (s : String) : R.unsubscribe p s = (R, []) := by
  have hget : R.subscriptions.get (subKey p s) = none := by
    cases hget : R.subscriptions.get (subKey p s) with
    | none => rfl
    | some sub =>
      have hmem := (InsertionMap.mem_entries _ _ _).mpr hget
      rw [hnone] at hmem
      cases hmem
  simp only [Router.unsubscribe, hget]

/-- Nothing is emitted but that streams end which are published in `R`. -/
def OnlyEnds (R : Router) (out : List Output) : Prop :=
  ∀ o ∈ out, ∃ s pub, o = .streamEnded s ∧ R.publishers.get s = some pub

theorem onlyEnds_nil (R : Router) : OnlyEnds R [] := fun _ ho => by cases ho

theorem OnlyEnds.of_fades {out : List Output} (hout : OnlyEnds R₁ out) (h : Fades R R₁) :
    OnlyEnds R out := by
  intro o ho
  obtain ⟨s, pub, heq, hpub⟩ := hout o ho
  exact ⟨s, pub, heq, h.publishers s pub hpub⟩

/-- A connection closes, and its handler runs. -/
theorem fades_onStateChange (hnone : R.subscriptions.entries = []) (pc : ℕ) :
    Fades (R.closePc pc) (R.onStateChange pc .closed).1 ∧
      OnlyEnds R (R.onStateChange pc .closed).2 := by
  have hnone' : (R.closePc pc).subscriptions.entries = [] := hnone
  cases hhandler : (R.pcs pc).onState with
  | none =>
    have hreport : R.onStateChange pc .closed = (R.closePc pc, []) := by
      simp only [Router.onStateChange, hhandler]
      rfl
    rw [hreport]
    exact ⟨.refl _, onlyEnds_nil R⟩
  | some handler =>
    cases handler with
    | unpublish s =>
      have hreport : R.onStateChange pc .closed = (R.closePc pc).unpublish s := by
        simp only [Router.onStateChange, hhandler]
        rfl
      rw [hreport]
      cases hget : (R.closePc pc).publishers.get s with
      | none =>
        have hidle : (R.closePc pc).unpublish s = (R.closePc pc, []) := by
          simp only [Router.unpublish, hget]
        rw [hidle]
        exact ⟨.refl _, onlyEnds_nil R⟩
      | some pub =>
        rw [unpublish_of_no_subscriptions hnone' hget]
        exact ⟨fades_dropPublisher hget, fun o ho => ⟨s, pub, List.mem_singleton.mp ho, hget⟩⟩
    | unsubscribe p s =>
      have hreport : R.onStateChange pc .closed = (R.closePc pc).unsubscribe p s := by
        simp only [Router.onStateChange, hhandler]
        rfl
      rw [hreport, unsubscribe_of_no_subscriptions hnone']
      exact ⟨.refl _, onlyEnds_nil R⟩

theorem closed_closePc (pc k : ℕ) :
    ((R.closePc pc).pcs k).closed = true ↔ (R.pcs k).closed = true ∨ k = pc := by
  by_cases hk : k = pc
  · subst hk
    simp [Router.closePc, Pc.close]
  · simp [Router.closePc, hk]

theorem Fades.closePublisher (h : Fades R R₁) (hnone : R.subscriptions.entries = []) {s : String}
    {pub : Publisher} (hpub : R.publishers.get s = some pub) :
    Fades R (R₁.closePublisher pub).1 ∧ OnlyEnds R (R₁.closePublisher pub).2 ∧
      ∀ k, (R₁.pcs k).closed = true ∨ k = pub.pc →
        ((R₁.closePublisher pub).1.pcs k).closed = true := by
  unfold Router.closePublisher
  split
  · next hclosed =>
    refine ⟨h, onlyEnds_nil R, fun k hk => ?_⟩
    rcases hk with hk | rfl
    · exact hk
    · exact hclosed
  · obtain ⟨hfades, hout⟩ := fades_onStateChange (h.subscriptions ▸ hnone) pub.pc
    refine ⟨?_, hout.of_fades h, fun k hk => hfades.closed_mono ((closed_closePc pub.pc k).mpr hk)⟩
    -- the publisher may be gone by now, but it was there when the loop started
    have hshut : Fades R (R₁.closePc pub.pc) := by
      refine ⟨h.publishers, h.subscriptions, h.closed, h.negotiating, h.nextCall, fun k => ?_⟩
      by_cases hk : k = pub.pc
      · subst hk
        refine .inr ⟨(Function.update_self ..).trans ?_, s, pub, hpub, rfl⟩
        rcases h.pcs pub.pc with heq | ⟨heq, -⟩
        · rw [heq]
        · rw [heq]
          rfl
      · have hsame : (R₁.closePc pub.pc).pcs k = R₁.pcs k := Function.update_of_ne hk ..
        rw [hsame]
        exact h.pcs k
    exact hshut.trans hfades

/-- **The loop of `close`**, in a router where nobody is subscribed. -/
theorem fades_closePublishers (hnone : R.subscriptions.entries = []) (pubs : List Publisher) :
    ∀ R₁ : Router, Fades R R₁ → (∀ pub ∈ pubs, ∃ s, R.publishers.get s = some pub) →
      Fades R (R₁.closePublishers pubs).1 ∧ OnlyEnds R (R₁.closePublishers pubs).2 ∧
        ∀ k, (R₁.pcs k).closed = true ∨ k ∈ pubs.map Publisher.pc →
          ((R₁.closePublishers pubs).1.pcs k).closed = true := by
  induction pubs with
  | nil =>
    intro R₁ h _
    exact ⟨h, onlyEnds_nil R, fun k hk => hk.elim id fun hmem => by cases hmem⟩
  | cons pub pubs ih =>
    intro R₁ h hpubs
    obtain ⟨s, hpub⟩ := hpubs pub List.mem_cons_self
    obtain ⟨hfirst, hout, hclosed⟩ := h.closePublisher hnone hpub
    obtain ⟨hrest, hout', hclosed'⟩ :=
      ih _ hfirst fun pub' hmem => hpubs pub' (List.mem_cons_of_mem _ hmem)
    refine ⟨hrest, fun o ho => ?_, fun k hk => ?_⟩
    · exact (List.mem_append.mp ho).elim (hout o) (hout' o)
    · rw [List.map_cons, List.mem_cons] at hk
      rcases hk with hk | hk | hk
      · exact hclosed' k (.inl (hclosed k (.inl hk)))
      · exact hclosed' k (.inl (hclosed k (.inr hk)))
      · exact hclosed' k (.inr hk)

theorem entries_eq_nil {m : InsertionMap String Subscription} (h : ∀ key, m.get key = none) :
    m.entries = [] := by
  refine List.eq_nil_iff_forall_not_mem.mpr fun ⟨key, sub⟩ hmem => ?_
  rw [InsertionMap.mem_entries, h key] at hmem
  cases hmem

/-- The router in which the loop of `close` over the publishers starts. -/
def withoutSubscriptions (R : Router) : Router :=
  Router.dropWhere (fun _ => true) R.subscriptions.entries { R with closed := true }

theorem removes_withoutSubscriptions (R : Router) :
    Removes (fun _ => False) (fun _ => True) R (withoutSubscriptions R) := by
  have hclosed : Removes (fun _ => False) (fun _ => False) R { R with closed := true } :=
    { Removes.refl R with }
  refine (hclosed.comp (removes_dropWhere (fun _ => true) { R with closed := true })).widen
    (fun s => by simp) (fun key => ?_)
  show _ ↔ (False ∨ _ ∧ ∃ sub, R.subscriptions.get key = some sub) ∨ _
  cases R.subscriptions.get key with
  | none => simp
  | some sub => simp

theorem no_subscriptions (R : Router) : (withoutSubscriptions R).subscriptions.entries = [] :=
  entries_eq_nil fun key => (removes_withoutSubscriptions R).subscriptions_removed key trivial

/-- What the loop of `close` does, and that it closes the connection of every publisher. -/
theorem close_loop (R : Router) :
    Fades (withoutSubscriptions R) ((withoutSubscriptions R).closePublishers
        (withoutSubscriptions R).publishers.values).1 ∧ OnlyEnds (withoutSubscriptions R) R.close.2 ∧
      ∀ s pub, (withoutSubscriptions R).publishers.get s = some pub →
        (R.close.1.pcs pub.pc).closed = true := by
  obtain ⟨hfades, hout, hclosed⟩ := fades_closePublishers (no_subscriptions R)
    (withoutSubscriptions R).publishers.values _ (.refl _)
    fun pub hmem => (InsertionMap.mem_values _ _).mp hmem
  refine ⟨hfades, hout, fun s pub hpub => hclosed pub.pc (.inr ?_)⟩
  exact List.mem_map_of_mem ((InsertionMap.mem_values _ _).mpr ⟨s, hpub⟩)

/-- The part of `close` that is about the publishers. -/
theorem removes_closePublishers (R : Router) :
    Removes (fun _ => True) (fun _ => False) (withoutSubscriptions R) R.close.1 := by
  obtain ⟨hfades, -, hclosed⟩ := close_loop R
  have hpcs : ∀ k, (R.close.1.pcs k) = (withoutSubscriptions R).pcs k ∨
      R.close.1.pcs k = ((withoutSubscriptions R).pcs k).close := fun k => (hfades.pcs k).imp_right And.left
  exact {
    publishers_removed := fun s _ => rfl
    publishers_kept := fun s h => absurd trivial h
    subscriptions_removed := fun key h => h.elim
    subscriptions_kept := fun key _ => congrArg (·.get key) hfades.subscriptions
    publisher_closed := fun s pub _ hpub => hclosed s pub hpub
    subscription_shut := fun key sub h => h.elim
    pcs_kept := fun k hk _ => by
      refine (hfades.pcs k).resolve_right ?_
      rintro ⟨-, s, pub, hpub, hpc⟩
      exact hk s pub trivial hpub hpc
    closed_mono := fun k h => hfades.closed_mono h
    forwards := fun k => by
      left
      rcases hpcs k with heq | heq <;> rw [heq]
      rfl
    onState := fun k => by
      rcases hpcs k with heq | heq <;> rw [heq]
      rfl
    negotiating := hfades.negotiating
    nextCall := hfades.nextCall }

/-- **`close` removes everything.** -/
theorem removes_close (R : Router) :
    Removes (fun _ => True) (fun _ => True) R R.close.1 :=
  ((removes_withoutSubscriptions R).comp (removes_closePublishers R)).congr (fun s => by simp)
    (fun key => by simp)

theorem onlyEnds_close (R : Router) : OnlyEnds R R.close.2 := by
  intro o ho
  obtain ⟨s, pub, heq, hpub⟩ := (close_loop R).2.1 o ho
  exact ⟨s, pub, heq, ((removes_withoutSubscriptions R).publishers_kept s id).symm.trans hpub⟩

/-! ### The flag of `close` -/

theorem closed_dropWhere (p : String → Bool) (entries : List (String × Subscription)) :
    ∀ R : Router, (R.dropWhere p entries).closed = R.closed := by
  induction entries with
  | nil => intro R; rfl
  | cons entry entries ih =>
    intro R
    obtain ⟨key, sub⟩ := entry
    show (Router.dropWhere p entries (if p key then R.dropSubscription key sub else R)).closed = _
    rw [ih]
    split <;> rfl

theorem closed_unpublish (s : String) (R : Router) : (R.unpublish s).1.closed = R.closed := by
  unfold Router.unpublish
  split
  · rfl
  · exact closed_dropWhere _ _ _

theorem closed_unsubscribe (p : PeerId) (s : String) (R : Router) :
    (R.unsubscribe p s).1.closed = R.closed := by
  unfold Router.unsubscribe
  dsimp only
  split <;> rfl

theorem closed_unpublishAll (ss : List String) : ∀ R : Router, (R.unpublishAll ss).1.closed = R.closed := by
  induction ss with
  | nil => intro R; rfl
  | cons s ss ih =>
    intro R
    show ((R.unpublish s).1.unpublishAll ss).1.closed = _
    rw [ih, closed_unpublish]

theorem closed_removePeer (p : PeerId) (R : Router) : (R.removePeer p).1.closed = R.closed := by
  show (Router.dropWhere _ _ (R.unpublishAll (R.ownedBy p)).1).closed = _
  rw [closed_dropWhere, closed_unpublishAll]

theorem closed_reported (pc : ℕ) (state : PcState) (R : Router) :
    (R.reported pc state).closed = R.closed := by
  unfold Router.reported
  split <;> rfl

theorem closed_close (R : Router) : R.close.1.closed = true :=
  (close_loop R).1.closed.trans (closed_dropWhere _ _ { R with closed := true })

end ScreenSharing.Sfu
