import ScreenSharing.Sfu.Separation

/-!
# What the end of a connection ends

The state handler of a connection keeps the ids that it was made for, and not the connection.  When two
publishes of one stream overlap, the connection that is registered last carries it; the other one stays
open, and when it reports that it is lost, its handler ends the stream that goes by the same id now.

`Spares` says of a report that it ends nothing but what its connection carries, and `ItsOwn` that the ids
of its handler are registered for that very connection, or free.  `spares_iff_itsOwn` shows that a run
has the one at every report exactly if it has the other.
-/

namespace ScreenSharing.Sfu

open Lib

variable {R : Router}

/-- The stream comes in over this connection. -/
def CarriesStream (R : Router) (pc : ℕ) (s : String) : Prop :=
  ∃ pub, R.publishers.get s = some pub ∧ pub.pc = pc

/-- The subscription goes out over this connection, or its stream comes in over it. -/
def CarriesSubscription (R : Router) (pc : ℕ) (p : PeerId) (s : String) : Prop :=
  R.subscriptions.get (subKey p s) = some ⟨pc⟩ ∨ CarriesStream R pc s

/-- **A report ends only what its connection carries.** -/
def Spares (R : Router) : Event → Prop
  | .stateChange pc state =>
    (∀ s pub, R.publishers.get s = some pub → ¬ CarriesStream R pc s →
      (R.onStateChange pc state).1.publishers.get s = some pub) ∧
    ∀ p s sub, R.subscriptions.get (subKey p s) = some sub → ¬ CarriesSubscription R pc p s →
      (R.onStateChange pc state).1.subscriptions.get (subKey p s) = some sub
  | _ => True

/-- What is registered under the ids of a handler is the connection itself; and of a stream, nobody views
one whose id is confused with it. -/
def Handler.ItsOwn (R : Router) (pc : ℕ) : Handler → Prop
  | .unpublish s => ∀ pub, R.publishers.get s = some pub → pub.pc = pc ∧ Unconfused R s
  | .unsubscribe p s => ∀ sub, R.subscriptions.get (subKey p s) = some sub → sub.pc = pc

/-- The condition on a report: the connection is lost, and its handler acts. -/
def ItsOwn (R : Router) : Event → Prop
  | .stateChange pc state => state.lost = true → ∀ handler ∈ (R.pcs pc).onState, handler.ItsOwn R pc
  | _ => True

/-! ### One report -/

theorem spares_unpublish_iff (h : Wf R) {pc : ℕ} {s : String}
    (hstate : (R.pcs pc).onState = some (.unpublish s)) {state : PcState} (hlost : state.lost = true) :
    Spares R (.stateChange pc state) ↔ (Handler.unpublish s).ItsOwn R pc := by
  have hreport : R.onStateChange pc state = (R.reported pc state).unpublish s := by
    simp [Router.onStateChange, hlost, hstate]
  have hremoves := (removes_unpublish s (R.reported pc state)).of_reported
  rw [reported_publishers, ← hreport] at hremoves
  simp only [Spares, Handler.ItsOwn]
  constructor
  · rintro ⟨hpubs, hsubs⟩ pub hpub
    have hpc : pub.pc = pc := by
      by_contra hne
      have hcarries : ¬ CarriesStream R pc s := by
        rintro ⟨pub', hpub', hpc⟩
        rw [hpub] at hpub'
        cases hpub'
        exact hne hpc
      have hstays := hpubs s pub hpub hcarries
      rw [hremoves.publishers_removed s rfl] at hstays
      cases hstays
    refine ⟨hpc, fun q t hviews hconfused => ?_⟩
    obtain ⟨sub, hsub⟩ := (InsertionMap.has_iff _ _).mp hviews
    have hhas : R.publishers.has s = true := (InsertionMap.has_iff _ _).mpr ⟨pub, hpub⟩
    have hstays := hsubs q t sub hsub ?_
    · rw [hremoves.subscriptions_removed _ ⟨hhas, (endsWith_subKey_iff q t s).mpr (.inr hconfused)⟩]
        at hstays
      cases hstays
    · -- a connection has one handler, so it carries nothing else
      rintro (hcarried | ⟨pub', hpub', rfl⟩)
      · obtain ⟨_, _, _, hother⟩ := h.subscription _ _ hcarried
        rw [hstate] at hother
        cases hother
      · have hother := (h.publisher t pub' hpub').1
        rw [hstate] at hother
        cases hother
        exact hconfused.ne rfl
  · intro hown
    constructor
    · intro t pub hpub hcarries
      rw [hremoves.publishers_kept t ?_]
      · exact hpub
      · rintro rfl
        exact hcarries ⟨pub, hpub, (hown pub hpub).1⟩
    · intro p t sub hsub hcarries
      rw [hremoves.subscriptions_kept _ ?_]
      · exact hsub
      · rintro ⟨hhas, hends⟩
        obtain ⟨pub, hpub⟩ := (InsertionMap.has_iff _ _).mp hhas
        obtain ⟨hpc, hclear⟩ := hown pub hpub
        rcases (endsWith_subKey_iff p t s).mp hends with rfl | hconfused
        · exact hcarries (.inr ⟨pub, hpub, hpc⟩)
        · exact hclear p t ((InsertionMap.has_iff _ _).mpr ⟨sub, hsub⟩) hconfused

theorem spares_unsubscribe_iff {pc : ℕ} {p : PeerId} {s : String}
    (hstate : (R.pcs pc).onState = some (.unsubscribe p s)) (h : Wf R) {state : PcState}
    (hlost : state.lost = true) :
    Spares R (.stateChange pc state) ↔ (Handler.unsubscribe p s).ItsOwn R pc := by
  have hreport : R.onStateChange pc state = (R.reported pc state).unsubscribe p s := by
    simp [Router.onStateChange, hlost, hstate]
  have hremoves := (removes_unsubscribe p s (R.reported pc state)).of_reported
  rw [← hreport] at hremoves
  simp only [Spares, Handler.ItsOwn]
  constructor
  · rintro ⟨-, hsubs⟩ sub hsub
    by_contra hne
    have hstays := hsubs p s sub hsub ?_
    · rw [hremoves.subscriptions_removed _ rfl] at hstays
      cases hstays
    · rintro (hcarried | ⟨pub, hpub, rfl⟩)
      · rw [hsub] at hcarried
        cases hcarried
        exact hne rfl
      · have hother := (h.publisher s pub hpub).1
        rw [hstate] at hother
        cases hother
  · intro hown
    constructor
    · intro t pub hpub _
      rw [hremoves.publishers_kept t fun h => h]
      exact hpub
    · intro q t sub hsub hcarries
      rw [hremoves.subscriptions_kept _ ?_]
      · exact hsub
      · intro hkey
        rw [hkey] at hsub
        refine hcarries (.inl ?_)
        rw [hkey, hsub, ← hown sub hsub]

/-- **One event.** -/
theorem spares_iff (h : Wf R) (e : Event) : Spares R e ↔ ItsOwn R e := by
  cases e with
  | stateChange pc state =>
    by_cases hlost : state.lost = true
    · cases hstate : (R.pcs pc).onState with
      | none =>
        have hreport : R.onStateChange pc state = (R.reported pc state, []) := by
          simp [Router.onStateChange, hlost, hstate]
        have hsame := (Removes.refl (R.reported pc state)).of_reported
        simp only [Spares, ItsOwn, hreport, hstate]
        refine iff_of_true ⟨fun t pub hpub _ => ?_, fun q t sub hsub _ => ?_⟩ fun _ _ hnone =>
          (by cases hnone)
        · exact (hsame.publishers_kept t id).trans hpub
        · exact (hsame.subscriptions_kept _ id).trans hsub
      | some handler =>
        have hown : ItsOwn R (.stateChange pc state) ↔ handler.ItsOwn R pc := by
          simp [ItsOwn, hlost, hstate]
        rw [hown]
        cases handler with
        | unpublish s => exact spares_unpublish_iff h hstate hlost
        | unsubscribe p s => exact spares_unsubscribe_iff hstate h hlost
    · have hreport : R.onStateChange pc state = (R, []) := onStateChange_of_not_lost hlost
      simp only [Spares, ItsOwn, hreport]
      exact iff_of_true ⟨fun _ _ hpub _ => hpub, fun _ _ _ hsub _ => hsub⟩ fun h => absurd h hlost
  | _ => exact Iff.rfl

/-! ### Runs -/

/-- **Reports spare what they should exactly if they are about their own.**  In every run of the router,
whatever the connections report and whenever, each report ends only what its connection carries if and only
if each lost connection finds itself registered under the ids of its handler, or nothing. -/
theorem spares_iff_itsOwn {es : List Event} (hvalid : router.Valid .new es) :
    router.Along Spares .new es ↔ router.Along ItsOwn .new es :=
  Machine.along_congr (I := Wf) (fun _ e h henabled => wf_next h e henabled)
    (fun _ e h _ => spares_iff h e) hvalid wf_new

/-- Two publishes of one stream overlap, so that the second connection takes the place of the first,
which stays open; then the first one fails. -/
def lateReportRun : List Event := overlapRun ++ [.stateChange 0 .failed]

/-- The report of the first connection ends the publication that the second one carries. -/
theorem late_report_ends_newer :
    ¬ ∀ es : List Event, router.Valid .new es → router.Along Spares .new es := by
  intro h
  have hspares := Machine.along_iff_split.mp (h lateReportRun (by decide +kernel)) overlapRun
    (.stateChange 0 .failed) [] rfl
  have hstays := hspares.1 "screen" ⟨1, "screen", alice.text, true, false⟩ (by decide +kernel) (by
    rintro ⟨pub, hpub, hpc⟩
    have hone : (router.exec .new overlapRun).publishers.get "screen" =
        some ⟨1, "screen", alice.text, true, false⟩ := by decide +kernel
    rw [hone] at hpub
    cases hpub
    cases hpc)
  revert hstays
  decide +kernel

/-- The new connection reports, and ends what it carries. -/
theorem spares_iff_itsOwn_republishRun :
    router.Along Spares .new (republishRun ++ [.stateChange 1 .failed]) ↔
      router.Along ItsOwn .new (republishRun ++ [.stateChange 1 .failed]) :=
  spares_iff_itsOwn (by decide +kernel)

end ScreenSharing.Sfu
