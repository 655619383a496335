import ScreenSharing.Sfu.Operations
import ScreenSharing.Sfu.Ownership

/-!
# Whom the governor listens to

The governor files the samples of a report under the stream each of them names and under the peer
that sent the report.  Nobody asks whether that peer watches the stream, or owns it; and when a
subscription ends the sample stays, unless its peer leaves the room altogether.

`observed` is the media plane together with who last reported on each stream as a publisher, which
the governor does not record.  `Listens` says that every sample comes from a current viewer and every
publisher sample from the owner.  `heeds_of_listens` and `listens_of_heeds` show that one operation
keeps this exactly under three conditions, and `listens_iff_heeds` that it holds in every state of a
run exactly when every step meets them.
-/

namespace ScreenSharing.Sfu

open Lib

/-- The media plane, and who last reported on each stream as its publisher. -/
structure Observed where
  plane : MediaPlane
  reporter : String → Option String

def Observed.new (videoBitrateKbps : ℚ) : Observed := ⟨.new videoBitrateKbps, fun _ => none⟩

def reporterAfter (reporter : String → Option String) : MediaEvent → String → Option String
  | .message p (.statsReport _ pubs), s =>
    if s ∈ pubs.map PublicationStats.streamId then some p.text else reporter s
  | _, s => reporter s

/-- The media plane as a machine, with the reporters recorded. -/
def observed : Machine Observed MediaEvent MediaOutput where
  enabled O e := MediaEnabled O.plane e
  step O e := (⟨(mediaReact O.plane e).1, reporterAfter O.reporter e⟩, (mediaReact O.plane e).2)

instance (O : Observed) (e : MediaEvent) : Decidable (observed.enabled O e) :=
  inferInstanceAs (Decidable (MediaEnabled O.plane e))

@[simp] theorem observed_plane (O : Observed) (e : MediaEvent) :
    (observed.next O e).plane = mediaPlane.next O.plane e := rfl

@[simp] theorem observed_reporter (O : Observed) (e : MediaEvent) :
    (observed.next O e).reporter = reporterAfter O.reporter e := rfl

variable {R R' : Router} {M : MediaPlane} {O : Observed}

/-- Peer `p` has a subscription to stream `s`. -/
def Views (R : Router) (p : PeerId) (s : String) : Prop :=
  R.subscriptions.has (subKey p s) = true

/-- Peer `p` publishes stream `s`. -/
def Owns (R : Router) (p : PeerId) (s : String) : Prop :=
  ∃ pub, R.publishers.get s = some pub ∧ pub.info.ownerPeerId = p.text

/-- Every sample the governor holds comes from a current viewer of the stream, and its publisher
sample from the owner. -/
structure Listens (O : Observed) : Prop where
  viewers : ∀ s st q, O.plane.governor.streams.get s = some st → st.subs.has q = true →
    ∃ p : PeerId, p.text = q ∧ Views O.plane.router p s
  owner : ∀ s st, O.plane.governor.streams.get s = some st → st.pub ≠ none →
    ∃ pub, O.plane.router.publishers.get s = some pub ∧
      O.reporter s = some pub.info.ownerPeerId

/-- The conditions on an event: a report names, among the live streams, only some that its sender
watches, and only its own as a publisher; and whoever's sample is held for a stream that stays live
does not lose his subscription to it, other than by leaving. -/
structure Heeds (M : MediaPlane) (e : MediaEvent) : Prop where
  watched : ∀ p subs pubs s, e = .message p (.statsReport subs pubs) →
    s ∈ subs.map SubscriptionStats.streamId → M.router.publishers.has s = true →
    Views M.router p s
  owned : ∀ p subs pubs s, e = .message p (.statsReport subs pubs) →
    s ∈ pubs.map PublicationStats.streamId → M.router.publishers.has s = true →
    Owns M.router p s
  kept : ∀ e' p s st, routerEvent e = some e' → dropped M.router e' (subKey p s) →
    ¬ unpublished M.router e' s → e' ≠ .removePeer p → M.router.publishers.has s = true →
    M.governor.streams.get s = some st → st.subs.has p.text = false

/-- The runs the property is about: the room has not closed, and operations come one after
another. -/
def OneByOne (O : Observed) (e : MediaEvent) : Prop :=
  MediaEnabled O.plane e ∧ Sequential O.plane e ∧ e ≠ .close

instance decidableIsClose : ∀ e : MediaEvent, Decidable (e = .close)
  | .close => isTrue rfl
  | .message _ _ => isFalse fun h => by cases h
  | .settle _ _ => isFalse fun h => by cases h
  | .peerGone _ => isFalse fun h => by cases h
  | .track _ _ => isFalse fun h => by cases h
  | .stateChange _ _ => isFalse fun h => by cases h
  | .runGovernor => isFalse fun h => by cases h

instance (O : Observed) (e : MediaEvent) : Decidable (OneByOne O e) :=
  inferInstanceAs (Decidable (MediaEnabled O.plane e ∧ Sequential O.plane e ∧ e ≠ .close))

/-- What holds in all of them. -/
structure Tracked (O : Observed) : Prop where
  inStep : InStep O.plane.router
  synced : Synced O.plane
  isOpen : O.plane.router.closed = false

theorem tracked_new (videoBitrateKbps : ℚ) : Tracked (.new videoBitrateKbps) :=
  ⟨inStep_new, synced_new videoBitrateKbps, rfl⟩

theorem tracked_next (h : Tracked O) {e : MediaEvent} (hone : OneByOne O e) :
    Tracked (observed.next O e) where
  inStep := inStep_next h.inStep hone.1 hone.2.1
  synced := synced_next h.inStep h.synced hone.1
  isOpen := by
    have hout := media_outcome h.inStep hone.1
    show (mediaReact O.plane e).1.router.closed = false
    generalize mediaReact O.plane e = res at hout
    cases hout with
    | quiet hstill hpubs hsubs hclosed hgov hout => exact hclosed.trans h.isOpen
    | published hstill hopen hcall hfree hpubs hsubs hclosed hlast =>
      rw [onOutputs_router]
      exact hclosed.trans h.isOpen
    | subscribed hstill hpub hfree hpubs hsubs hclosed hlast =>
      rw [onOutputs_router]
      exact hclosed.trans h.isOpen
    | withdrawn hevent hwithdrawn hclosed hreport hgov =>
      rw [onOutputs_router]
      exact hclosed.trans h.isOpen
    | reported => exact h.isOpen
    | ticked => exact h.isOpen
    | closed => exact absurd rfl hone.2.2

theorem reporterAfter_eq {reporter : String → Option String} {e : MediaEvent}
    (h : ∀ p subs pubs, e ≠ .message p (.statsReport subs pubs)) :
    reporterAfter reporter e = reporter := by
  funext s
  unfold reporterAfter
  split
  · next p subs pubs => exact absurd rfl (h p subs pubs)
  · rfl

/-! ### What a step that is no report may do to `Listens` -/

/-- Samples and publisher samples of before, viewers and publishers not fewer, reporters the same. -/
theorem listens_of_fewer (h : Listens O) {O' : Observed} (hreporter : O'.reporter = O.reporter)
    (hentries : ∀ s st', O'.plane.governor.streams.get s = some st' →
      (∀ q, st'.subs.has q = false) ∧ st'.pub = none ∨
      ∃ st, O.plane.governor.streams.get s = some st ∧
        (∀ q, st'.subs.has q = true → st.subs.has q = true) ∧ (st'.pub ≠ none → st.pub ≠ none))
    (hviews : ∀ s st' p, O'.plane.governor.streams.get s = some st' →
      st'.subs.has p.text = true → Views O.plane.router p s → Views O'.plane.router p s)
    (hpubs : ∀ s st' pub, O'.plane.governor.streams.get s = some st' →
      O.plane.router.publishers.get s = some pub →
      ∃ pub', O'.plane.router.publishers.get s = some pub' ∧
        pub'.info.ownerPeerId = pub.info.ownerPeerId) : Listens O' where
  viewers s st' q hst' hq := by
    rcases hentries s st' hst' with ⟨hnone, -⟩ | ⟨st, hst, hsubs, -⟩
    · rw [hnone q] at hq
      cases hq
    · obtain ⟨p, rfl, hviewing⟩ := h.viewers s st q hst (hsubs q hq)
      exact ⟨p, rfl, hviews s st' p hst' hq hviewing⟩
  owner s st' hst' hpub := by
    rcases hentries s st' hst' with ⟨-, hnone⟩ | ⟨st, hst, -, hsome⟩
    · exact absurd hnone hpub
    · obtain ⟨pub, hget, hreported⟩ := h.owner s st hst (hsome hpub)
      obtain ⟨pub', hget', howner⟩ := hpubs s st' pub hst' hget
      exact ⟨pub', hget', by rw [hreporter, hreported, howner]⟩

theorem views_of_removes {P Q : String → Prop} (h : Unregisters P Q R R') {p : PeerId} {s : String}
    (hkept : ¬ Q (subKey p s)) (hviews : Views R p s) : Views R' p s := by
  unfold Views InsertionMap.has at hviews ⊢
  rw [h.subscriptions_kept _ hkept]
  exact hviews

/-- The keys a withdrawal drops, told as `Leaves` tells it. -/
theorem dropped_iff {e' : Event} {key : String} :
    dropped R e' key ↔
      (∃ s, unpublished R e' s ∧ R.publishers.has s = true ∧ endsWith key ("::" ++ s) = true) ∨
        ∃ p s, Leaves R e' p s ∧ key = subKey p s := by
  unfold dropped Leaves
  refine or_congr_right ?_
  constructor
  · rintro (⟨p, s, h, rfl⟩ | ⟨p, rfl, hstart⟩)
    · exact ⟨p, s, .inl h, rfl⟩
    · obtain ⟨s, rfl⟩ := (startsWith_iff_subKey p key).mp hstart
      exact ⟨p, s, .inr rfl, rfl⟩
  · rintro ⟨p, s, h | rfl, rfl⟩
    · exact .inl ⟨p, s, h, rfl⟩
    · exact .inr ⟨p, rfl, (startsWith_iff_subKey p _).mpr ⟨s, rfl⟩⟩

/-! ### What a report does -/

/-- After a report of `p`, the samples are those of before and those of `p`. -/
theorem listens_reported (h : Listens O) (hs : Synced O.plane)
    (hopen : O.plane.router.closed = false) {p : PeerId}
    {subs : List SubscriptionStats} {pubs : List PublicationStats}
    (hwatched : ∀ s ∈ subs.map SubscriptionStats.streamId,
      O.plane.router.publishers.has s = true → Views O.plane.router p s)
    (howned : ∀ s ∈ pubs.map PublicationStats.streamId,
      O.plane.router.publishers.has s = true → Owns O.plane.router p s) :
    Listens (observed.next O (.message p (.statsReport subs pubs))) := by
  have hentry : ∀ s st', (O.plane.ingest p subs pubs).governor.streams.get s = some st' →
      ∃ st, O.plane.governor.streams.get s = some st ∧ Ingested p s subs pubs st st' ∧
        ∃ pub, O.plane.router.publishers.get s = some pub := by
    intro s st' hst'
    cases hst : O.plane.governor.streams.get s with
    | none =>
      rw [ingest_none _ _ _ _ hst] at hst'
      cases hst'
    | some st =>
      obtain ⟨u, hu, hin⟩ := ingest_get O.plane p subs pubs hst
      rw [hst'] at hu
      cases hu
      exact ⟨st, rfl, hin, hs.known hopen s st hst⟩
  refine ⟨fun s st' q hst' hq => ?_, fun s st' hst' hpub => ?_⟩
  · obtain ⟨st, hst, hin, pub, hget⟩ := hentry s st' hst'
    show ∃ q' : PeerId, q'.text = q ∧ Views O.plane.router q' s
    rcases (hin.subs q).mp hq with hold | ⟨rfl, hnamed⟩
    · exact h.viewers s st q hst hold
    · exact ⟨p, rfl, hwatched s hnamed ((InsertionMap.has_iff _ _).mpr ⟨pub, hget⟩)⟩
  · obtain ⟨st, hst, hin, pub, hget⟩ := hentry s st' hst'
    show ∃ pub, O.plane.router.publishers.get s = some pub ∧
      (if s ∈ pubs.map PublicationStats.streamId then some p.text else O.reporter s) =
        some pub.info.ownerPeerId
    by_cases hnamed : s ∈ pubs.map PublicationStats.streamId
    · obtain ⟨pub', hget', howner⟩ :=
        howned s hnamed ((InsertionMap.has_iff _ _).mpr ⟨pub, hget⟩)
      exact ⟨pub', hget', by rw [if_pos hnamed, howner]⟩
    · have hold : st.pub ≠ none := fun hnone => hpub (hin.pub.mpr ⟨hnone, hnamed⟩)
      rw [if_neg hnamed]
      exact h.owner s st hst hold

/-- If the samples are good after a report, it named what its sender watches and publishes. -/
theorem named_of_listens_reported (hs : Synced O.plane) {p : PeerId}
    {subs : List SubscriptionStats} {pubs : List PublicationStats}
    (h : Listens (observed.next O (.message p (.statsReport subs pubs)))) {s : String}
    (hlive : O.plane.router.publishers.has s = true) :
    (s ∈ subs.map SubscriptionStats.streamId → Views O.plane.router p s) ∧
      (s ∈ pubs.map PublicationStats.streamId → Owns O.plane.router p s) := by
  obtain ⟨pub, hpub⟩ := (InsertionMap.has_iff _ _).mp hlive
  obtain ⟨st, hst, -⟩ := hs.tracked s pub hpub
  obtain ⟨st', hst', hin⟩ := ingest_get O.plane p subs pubs hst
  constructor
  · intro hnamed
    obtain ⟨q, hq, hviews⟩ := h.viewers s st' p.text hst' ((hin.subs _).mpr (.inr ⟨rfl, hnamed⟩))
    rw [PeerId.ext_text hq] at hviews
    exact hviews
  · intro hnamed
    obtain ⟨pub', hpub', hreported⟩ := h.owner s st' hst' fun hnone => (hin.pub.mp hnone).2 hnamed
    have hself : reporterAfter O.reporter (.message p (.statsReport subs pubs)) s = some p.text :=
      if_pos hnamed
    change reporterAfter O.reporter (.message p (.statsReport subs pubs)) s = _ at hreported
    rw [hself, Option.some.injEq] at hreported
    exact ⟨pub', hpub', hreported.symm⟩

/-! ### What a withdrawal does -/

section Withdrawal

variable {e : MediaEvent} {e' : Event} {os : List Output} {G : Governor}

/-- The entry of a stream after a withdrawal has the samples of before, except those of a peer that
departed. -/
theorem entry_withdrawn
    (hw : Withdrawn O.plane.router (unpublished O.plane.router e') (Leaves O.plane.router e') R' os)
    (hgov : (∃ p, e' = .removePeer p ∧ G = O.plane.governor.dropSubscriber p.text) ∨
      ((∀ p, e' ≠ .removePeer p) ∧ G = O.plane.governor))
    {s : String} {st' : Governor.StreamState}
    (hst' : ({ router := R', governor := G : MediaPlane }.onOutputs os).1.governor.streams.get s =
      some st') :
    Output.streamEnded s ∉ os ∧ ∃ st, O.plane.governor.streams.get s = some st ∧
      st'.pub = st.pub ∧ ∀ q, st'.subs.has q = true ↔
        st.subs.has q = true ∧ ∀ p, e' = .removePeer p → p.text ≠ q := by
  rw [onOutputs_get] at hst'
  change os.foldl (Governor.heardAt s) (G.streams.get s) = some st' at hst'
  have hended : Output.streamEnded s ∉ os := by
    intro hmem
    rw [foldl_heardAt_ended hw.only hmem] at hst'
    cases hst'
  refine ⟨hended, ?_⟩
  have hbefore : ∃ st₀, G.streams.get s = some st₀ ∧ st'.subs = st₀.subs ∧ st'.pub = st₀.pub := by
    rcases hw.entry hended (G.streams.get s) with ⟨-, heq⟩ | ⟨-, heq⟩
    · rw [heq] at hst'
      exact ⟨st', hst', rfl, rfl⟩
    · rw [heq, Option.map_eq_some_iff] at hst'
      obtain ⟨st₀, hst₀, rfl⟩ := hst'
      exact ⟨st₀, hst₀, rfl, rfl⟩
  obtain ⟨st₀, hst₀, hsubs, hpub⟩ := hbefore
  rcases hgov with ⟨p, rfl, rfl⟩ | ⟨hno, rfl⟩
  · rw [Governor.get_dropSubscriber, Option.map_eq_some_iff] at hst₀
    obtain ⟨st, hst, rfl⟩ := hst₀
    refine ⟨st, hst, hpub, fun q => ?_⟩
    rw [hsubs]
    show (st.subs.delete p.text).has q = true ↔ _
    rw [InsertionMap.has, InsertionMap.get_delete]
    by_cases hq : q = p.text
    · rw [if_pos hq]
      constructor
      · intro h
        cases h
      · rintro ⟨-, h⟩
        exact absurd hq.symm (h p rfl)
    · rw [if_neg hq]
      constructor
      · intro h
        refine ⟨h, ?_⟩
        rintro p' heq rfl
        cases heq
        exact hq rfl
      · exact And.left
  · refine ⟨st₀, hst₀, hpub, fun q => ?_⟩
    rw [hsubs]
    exact ⟨fun h => ⟨h, fun p heq => absurd heq (hno p)⟩, And.left⟩

theorem listens_withdrawn (h : Listens O) (ht : Tracked O) {reporter : String → Option String}
    (hreporter : reporter = O.reporter) (hevent : routerEvent e = some e')
    (hw : Withdrawn O.plane.router (unpublished O.plane.router e') (Leaves O.plane.router e') R' os)
    (hgov : (∃ p, e' = .removePeer p ∧ G = O.plane.governor.dropSubscriber p.text) ∨
      ((∀ p, e' ≠ .removePeer p) ∧ G = O.plane.governor))
    (hheeds : Heeds O.plane e) :
    Listens ⟨({ router := R', governor := G : MediaPlane }.onOutputs os).1, reporter⟩ := by
  -- a stream with an entry is live, and the event does not unpublish it
  have hlive : ∀ s st, O.plane.governor.streams.get s = some st → Output.streamEnded s ∉ os →
      O.plane.router.publishers.has s = true ∧ ¬ unpublished O.plane.router e' s := by
    intro s st hst hended
    obtain ⟨pub, hpub⟩ := ht.synced.known ht.isOpen s st hst
    have hhas := (InsertionMap.has_iff _ _).mpr ⟨pub, hpub⟩
    exact ⟨hhas, fun hun => hended ((hw.ended s).mpr ⟨hun, hhas⟩)⟩
  refine listens_of_fewer h hreporter (fun s st' hst' => ?_) (fun s st' p hst' hq hviews => ?_)
    fun s st' pub hst' hpub => ?_
  · obtain ⟨-, st, hst, hpub, hsubs⟩ := entry_withdrawn hw hgov hst'
    refine .inr ⟨st, hst, fun q hq => ((hsubs q).mp hq).1, fun hne => ?_⟩
    rw [hpub] at hne
    exact hne
  · obtain ⟨hended, st, hst, -, hsubs⟩ := entry_withdrawn hw hgov hst'
    obtain ⟨hold, hstays⟩ := (hsubs _).mp hq
    obtain ⟨hhas, hun⟩ := hlive s st hst hended
    show Views (MediaPlane.onOutputs os _).1.router p s
    rw [onOutputs_router]
    refine views_of_removes hw.removes (fun hkey => ?_) hviews
    have hnone := hheeds.kept e' p s st hevent (dropped_iff.mpr hkey) hun
      (fun heq => hstays p heq rfl) hhas hst
    rw [hnone] at hold
    cases hold
  · obtain ⟨hended, st, hst, -⟩ := entry_withdrawn hw hgov hst'
    refine ⟨pub, ?_, rfl⟩
    show (MediaPlane.onOutputs os _).1.router.publishers.get s = some pub
    rw [onOutputs_router]
    exact (hw.removes.publishers_kept s (hlive s st hst hended).2).trans hpub

/-- If the samples are good after a withdrawal, none was held of a viewer that was taken away. -/
theorem kept_of_listens_withdrawn {reporter : String → Option String}
    (hw : Withdrawn O.plane.router (unpublished O.plane.router e') (Leaves O.plane.router e') R' os)
    (hgov : (∃ p, e' = .removePeer p ∧ G = O.plane.governor.dropSubscriber p.text) ∨
      ((∀ p, e' ≠ .removePeer p) ∧ G = O.plane.governor))
    (h : Listens ⟨({ router := R', governor := G : MediaPlane }.onOutputs os).1, reporter⟩)
    {p : PeerId} {s : String} {st : Governor.StreamState}
    (hdropped : dropped O.plane.router e' (subKey p s))
    (hun : ¬ unpublished O.plane.router e' s) (hstays : e' ≠ .removePeer p)
    (hhas : O.plane.router.publishers.has s = true)
    (hst : O.plane.governor.streams.get s = some st) : st.subs.has p.text = false := by
  obtain ⟨pub, hpub⟩ := (InsertionMap.has_iff _ _).mp hhas
  have hafter : R'.publishers.get s = some pub := (hw.removes.publishers_kept s hun).trans hpub
  have hsynced : ∃ st', ({ router := R', governor := G : MediaPlane }.onOutputs
      os).1.governor.streams.get s = some st' := by
    rw [onOutputs_get]
    show ∃ st', os.foldl (Governor.heardAt s) (G.streams.get s) = some st'
    obtain ⟨f, hf, -⟩ := get_before hgov s
    rcases hw.entry (hw.not_ended hafter).1 (G.streams.get s) with ⟨-, heq⟩ | ⟨-, heq⟩
    · rw [heq, hf, hst]
      exact ⟨_, rfl⟩
    · rw [heq, hf, hst]
      exact ⟨_, rfl⟩
  obtain ⟨st', hst'⟩ := hsynced
  obtain ⟨-, u, hu, -, hsubs⟩ := entry_withdrawn hw hgov hst'
  rw [hst] at hu
  cases hu
  by_contra hheld
  rw [Bool.not_eq_false] at hheld
  have hstill : st'.subs.has p.text = true := by
    refine (hsubs _).mpr ⟨hheld, fun p' heq htext => hstays ?_⟩
    rw [heq, PeerId.ext_text htext]
  obtain ⟨q, hq, hviews⟩ := h.viewers s st' p.text hst' hstill
  rw [PeerId.ext_text hq] at hviews
  change (MediaPlane.onOutputs os _).1.router.subscriptions.has (subKey p s) = true at hviews
  rw [onOutputs_router, InsertionMap.has] at hviews
  have hgone : R'.subscriptions.get (subKey p s) = none :=
    hw.removes.subscriptions_removed _ (dropped_iff.mp hdropped)
  change (R'.subscriptions.get (subKey p s)).isSome = true at hviews
  rw [hgone] at hviews
  cases hviews

end Withdrawal

/-! ### One step -/

/-- **One step.**  If a step meets the conditions, the governor still listens to current viewers and
owners only. -/
theorem listens_of_heeds (ht : Tracked O) (h : Listens O) {e : MediaEvent} (hone : OneByOne O e)
    (hheeds : Heeds O.plane e) : Listens (observed.next O e) := by
  have hout := media_outcome ht.inStep hone.1
  show Listens ⟨(mediaReact O.plane e).1, reporterAfter O.reporter e⟩
  generalize mediaReact O.plane e = res at hout
  cases hout with
  | quiet hstill hpubs hsubs hclosed hgov hout =>
    refine listens_of_fewer h (reporterAfter_eq hstill.report) (fun s st' hst' => ?_)
      (fun s st' p _ _ hviews => ?_) fun s st' pub _ hpub => ?_
    · rw [hgov] at hst'
      exact .inr ⟨st', hst', fun q hq => hq, id⟩
    · unfold Views at hviews ⊢
      rw [hsubs]
      exact hviews
    · rw [hpubs]
      exact ⟨pub, hpub, rfl⟩
  | published hstill hopen hcall hfree hpubs hsubs hclosed hlast =>
    rename_i R' k p s kinds last
    refine listens_of_fewer h (reporterAfter_eq hstill.report) (fun t st' hst' => ?_)
      (fun t st' q _ _ hviews => ?_) fun t st' pub _ hpub => ?_
    · rw [onOutputs_get, published_get _ (plain_last hlast)] at hst'
      split at hst'
      · next heq =>
        have heq' : t = s := heq
        subst heq'
        -- a stream that was not published was not known
        have hnone : O.plane.governor.streams.get t = none := by
          cases hget : O.plane.governor.streams.get t with
          | none => rfl
          | some st =>
            obtain ⟨pub, hpub⟩ := ht.synced.known ht.isOpen t st hget
            rw [hfree] at hpub
            cases hpub
        change some ((O.plane.governor.streams.get t).getD _) = some st' at hst'
        rw [hnone] at hst'
        cases hst'
        exact .inl ⟨fun q => rfl, rfl⟩
      · exact .inr ⟨st', hst', fun q hq => hq, id⟩
    · unfold Views at hviews ⊢
      rw [onOutputs_router]
      show R'.subscriptions.has _ = true
      rw [hsubs]
      exact hviews
    · refine ⟨pub, ?_, rfl⟩
      rw [onOutputs_router]
      show R'.publishers.get t = some pub
      rw [hpubs]
      exact InsertionMap.get_set_of_free hfree _ hpub
  | subscribed hstill hpub hfree hpubs hsubs hclosed hlast =>
    rename_i R' k p s pub last
    refine listens_of_fewer h (reporterAfter_eq hstill.report) (fun t st' hst' => ?_)
      (fun t st' q _ _ hviews => ?_) fun t st' pub _ hpub => ?_
    · rw [onOutputs_get, subscribed_get _ (plain_last hlast)] at hst'
      split at hst'
      · obtain ⟨st, hst, rfl⟩ := Option.map_eq_some_iff.mp hst'
        exact .inr ⟨st, hst, fun q hq => hq, id⟩
      · exact .inr ⟨st', hst', fun q hq => hq, id⟩
    · unfold Views at hviews ⊢
      rw [onOutputs_router]
      show R'.subscriptions.has _ = true
      rw [hsubs, InsertionMap.has_set]
      exact .inl hviews
    · rw [onOutputs_router]
      show ∃ pub', R'.publishers.get t = some pub' ∧ _
      rw [hpubs]
      exact ⟨pub, hpub, rfl⟩
  | withdrawn hevent hw hclosed hreport hgov =>
    exact listens_withdrawn h ht (reporterAfter_eq hreport) hevent hw hgov hheeds
  | reported =>
    exact listens_reported h ht.synced ht.isOpen (fun s hnamed => hheeds.watched _ _ _ s rfl hnamed)
      fun s hnamed => hheeds.owned _ _ _ s rfl hnamed
  | ticked =>
    obtain ⟨-, hevolve, -⟩ := O.plane.governor.evaluate_spec
    refine listens_of_fewer h rfl (fun s st' hst' => ?_) (fun s st' p _ _ hviews => hviews)
      fun s st' pub _ hpub => ⟨pub, hpub, rfl⟩
    rcases hevolve s with ⟨-, hnone⟩ | ⟨st, u, hst, hu, hev⟩
    · exact absurd (hnone.symm.trans hst') (by simp)
    · have heq : u = st' := Option.some.inj (hu.symm.trans hst')
      subst heq
      refine .inr ⟨st, hst, fun q hq => ?_, fun hne => ?_⟩
      · rw [← hev.subs]
        exact hq
      · rw [← hev.pub]
        exact hne
  | closed => exact absurd rfl hone.2.2

/-- Conversely, a step after which it does has met the conditions. -/
theorem heeds_of_listens (ht : Tracked O) {e : MediaEvent} (hone : OneByOne O e)
    (h : Listens (observed.next O e)) : Heeds O.plane e := by
  refine ⟨?_, ?_, ?_⟩
  · rintro p subs pubs s rfl hnamed hlive
    exact (named_of_listens_reported ht.synced h hlive).1 hnamed
  · rintro p subs pubs s rfl hnamed hlive
    exact (named_of_listens_reported ht.synced h hlive).2 hnamed
  · intro e' p s st hevent hdropped hun hstays hhas hst
    have hout := media_outcome ht.inStep hone.1
    change Listens ⟨(mediaReact O.plane e).1, reporterAfter O.reporter e⟩ at h
    -- an event that drops something is a withdrawal
    have hnot : Still O.plane e → False := by
      intro hstill
      rcases dropped_iff.mp hdropped with ⟨t, ht, -⟩ | ⟨q, t, hl, -⟩
      · exact hstill.unpublished e' hevent t ht
      · exact hstill.leaves e' hevent q t hl
    generalize mediaReact O.plane e = res at hout h
    cases hout with
    | quiet hstill => exact (hnot hstill).elim
    | published hstill => exact (hnot hstill).elim
    | subscribed hstill => exact (hnot hstill).elim
    | withdrawn hevent' hw hclosed hreport hgov =>
      cases hevent.symm.trans hevent'
      exact kept_of_listens_withdrawn hw hgov h hdropped hun hstays hhas hst
    | reported => cases hevent
    | ticked => cases hevent
    | closed => exact absurd rfl hone.2.2

/-! ### Runs -/

theorem listens_new (videoBitrateKbps : ℚ) : Listens (.new videoBitrateKbps) where
  viewers s st q h := by cases h
  owner s st h := by cases h

/-- **Whom the governor listens to.**  In a run of operations one after another, the samples of the
governor come from current viewers and owners in every state reached if and only if no report names
a live stream that its sender does not watch, or does not publish, and no viewer with a sample is
taken away while the stream goes on and he stays in the room. -/
theorem listens_iff_heeds (videoBitrateKbps : ℚ) {es : List MediaEvent}
    (hes : observed.Along OneByOne (.new videoBitrateKbps) es) :
    observed.Along (fun O e => Listens (observed.next O e)) (.new videoBitrateKbps) es ↔
      observed.Along (fun O e => Heeds O.plane e) (.new videoBitrateKbps) es := by
  refine Machine.along_next_iff (I := Tracked) (fun O e ht hone => tracked_next ht hone)
    (fun O e ht h hone => ⟨heeds_of_listens ht hone, listens_of_heeds ht h hone⟩) hes
    (tracked_new videoBitrateKbps) (listens_new videoBitrateKbps)

/-- A peer watches a stream, reports that it loses a third of it, and stops watching. -/
def formerViewerRun : List MediaEvent :=
  [.message alice (.publishOffer "screen" true false "offer"), .track 0 .video,
    .settle 0 (.succeeded (some "sdp")),
    .message bob (.subscribe "screen"), .settle 1 (.succeeded (some "sdp")),
    .message bob (.statsReport [⟨"screen", 1 / 3, 0, 0, 30⟩] []), .message bob (.unsubscribe "screen")]

theorem former_viewer_still_heard :
    observed.Along OneByOne (.new 2500) formerViewerRun ∧
      ¬ Listens (observed.exec (.new 2500) formerViewerRun) := by
  refine ⟨by decide +kernel, fun h => ?_⟩
  obtain ⟨p, -, hviews⟩ := h.viewers "screen" _ "p_0000000b" rfl (by decide +kernel)
  have hnone : ∀ key, (observed.exec (.new 2500)
      formerViewerRun).plane.router.subscriptions.has key = false := fun key => rfl
  unfold Views at hviews
  rw [hnone] at hviews
  cases hviews

/-- The owner and a viewer report, and the viewer departs. -/
def departedViewerRun : List MediaEvent :=
  [.message alice (.publishOffer "screen" true false "offer"), .track 0 .video,
    .settle 0 (.succeeded (some "sdp")),
    .message bob (.subscribe "screen"), .settle 1 (.succeeded (some "sdp")),
    .message bob (.statsReport [⟨"screen", 1 / 3, 0, 0, 30⟩] []),
    .message alice (.statsReport [] [⟨"screen", 0, 30⟩]), .runGovernor, .peerGone bob]

theorem listens_iff_heeds_departedViewerRun :
    observed.Along (fun O e => Listens (observed.next O e)) (.new 2500) departedViewerRun ↔
      observed.Along (fun O e => Heeds O.plane e) (.new 2500) departedViewerRun :=
  listens_iff_heeds 2500 (by decide +kernel)

end ScreenSharing.Sfu
