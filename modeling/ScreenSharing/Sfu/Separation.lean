import Mathlib.Data.Set.Card
import ScreenSharing.Sfu.Demand
import ScreenSharing.Shared.Schema

/-!
# Whether the subscriptions of different streams are kept apart

`unpublish` and `subscriberCount` find the subscriptions of a stream by the end of their keys.  The id of a
peer has no colon, but that of a stream is any string that its publisher likes, so a key ends with `::x`
if the stream is `x`, and also if it is `:x` or ends with `::x` itself (`endsWith_subKey_iff`).  Such an id
is `Confused` with `x`.

`Operation.Exact` says that an operation is about the stream it names and no other.
`exact_iff_clear` shows, for every state that the router can reach and for each of the three operations,
that it is exactly if the subscriptions registered at that moment do not let it meet a confused id.
-/

namespace ScreenSharing.Sfu

open Lib

variable {R : Router}

instance (p : PeerId) (s : String) : Decidable (Views R p s) :=
  inferInstanceAs (Decidable (_ = true))

/-- An id is longer than one that it is confused with. -/
theorem Confused.ne {t s : String} (h : Confused t s) : t ≠ s := by
  rintro rfl
  rcases h with h | h
  · have hlength := congrArg (fun u : String => u.toList.length) h
    simp [String.toList_append] at hlength
  · rw [endsWith, List.isSuffixOf_iff_suffix] at h
    have hlength := h.length_le
    simp only [String.toList_append, List.length_append] at hlength
    have htwo : "::".toList.length = 2 := rfl
    omega

/-! ### The three operations -/

/-- The operations that look for keys. -/
inductive Op
  | subscriberCount (streamId : String)
  | unpublish (streamId : String)
  | removePeer (peerId : PeerId)
  deriving DecidableEq

/-- The streams whose demand is reported. -/
def demanded (out : List Output) : List String :=
  out.filterMap fun o =>
    match o with
    | .demandChanged s _ _ => some s
    | _ => none

/-- **The operation is about what it names, and nothing else.** -/
def Op.Exact (R : Router) : Op → Prop
  | .subscriberCount s => R.subscriberCount s = {p | Views R p s}.ncard
  | .unpublish s => ∀ q t, Views (R.unpublish s).1 q t ↔ Views R q t ∧ t ≠ s
  | .removePeer p =>
    (∀ t pub, (R.removePeer p).1.publishers.get t = some pub ↔
      R.publishers.get t = some pub ∧ ¬ Owns R p t) ∧
    (∀ q t, Views (R.removePeer p).1 q t ↔ Views R q t ∧ q ≠ p ∧ ¬ Owns R p t) ∧
    (demanded (R.removePeer p).2).Nodup ∧
    ∀ t, t ∈ demanded (R.removePeer p).2 ↔
      Views R p t ∧ (R.removePeer p).1.publishers.has t = true

/-- No peer views a stream whose id is confused with this one. -/
def Unconfused (R : Router) (s : String) : Prop := ∀ q t, Views R q t → ¬ Confused t s

/-- The condition on the subscriptions.  A stream that is not published has nothing to be dropped; and who
leaves has no stream that is confused with one that somebody else publishes, where it is viewed. -/
def Op.Clear (R : Router) : Op → Prop
  | .subscriberCount s => Unconfused R s
  | .unpublish s =>
    if R.publishers.has s = true then Unconfused R s else ∀ q, ¬ Views R q s
  | .removePeer p => ∀ s q t, Owns R p s → Views R q t → Confused t s →
    Owns R p t ∨ q = p ∧ R.publishers.has t = false

theorem views_removes {R' : Router} {P Q : String → Prop} (h : Unregisters P Q R R') {p : PeerId}
    {s : String} : Views R' p s ↔ Views R p s ∧ ¬ Q (subKey p s) := by
  constructor
  · intro hviews
    have hkept : ¬ Q (subKey p s) := by
      intro hQ
      rw [Views, InsertionMap.has, h.subscriptions_removed _ hQ] at hviews
      cases hviews
    rw [Views, InsertionMap.has, h.subscriptions_kept _ hkept] at hviews
    exact ⟨hviews, hkept⟩
  · rintro ⟨hviews, hkept⟩
    exact views_of_removes h hkept hviews

/-! ### `subscriberCount` -/

/-- The keys that the router counts for `s`. -/
def counted (R : Router) (s : String) : List String :=
  R.subscriptions.keys.filter fun key => endsWith key ("::" ++ s)

theorem ncard_counted (R : Router) (s : String) :
    R.subscriberCount s = {key | key ∈ counted R s}.ncard := by
  have hnodup : (counted R s).Nodup := R.subscriptions.nodup.filter _
  rw [← List.coe_toFinset, Set.ncard_coe_finset, List.toFinset_card_of_nodup hnodup]
  rfl

theorem subKey_mem_counted {p : PeerId} {t s : String} :
    subKey p t ∈ counted R s ↔ Views R p t ∧ (t = s ∨ Confused t s) := by
  unfold counted
  rw [List.mem_filter, endsWith_subKey_iff, InsertionMap.mem_keys, ← InsertionMap.has_iff]
  exact Iff.rfl

theorem count_exact_iff (h : Wf R) (s : String) :
    R.subscriberCount s = {p | Views R p s}.ncard ↔ Unconfused R s := by
  have hinj : Function.Injective fun p => subKey p s := fun p q heq => (subKey_inj.mp heq).1
  have hsubset : (fun p => subKey p s) '' {p | Views R p s} ⊆ {key | key ∈ counted R s} := by
    rintro _ ⟨p, hviews, rfl⟩
    exact subKey_mem_counted.mpr ⟨hviews, .inl rfl⟩
  rw [ncard_counted, ← Set.ncard_image_of_injective _ hinj]
  constructor
  · intro hcount q t hviews hconfused
    have hall := Set.eq_of_subset_of_ncard_le hsubset hcount.le (List.finite_toSet _)
    have hmem : subKey q t ∈ (fun p => subKey p s) '' {p | Views R p s} := by
      rw [hall]
      exact subKey_mem_counted.mpr ⟨hviews, .inr hconfused⟩
    obtain ⟨p, -, heq⟩ := hmem
    exact hconfused.ne (subKey_inj.mp heq).2.symm
  · intro hclear
    refine congrArg Set.ncard (Set.Subset.antisymm (fun key hkey => ?_) hsubset)
    obtain ⟨sub, hsub⟩ := (InsertionMap.mem_keys _ _).mp (List.mem_filter.mp hkey).1
    obtain ⟨q, t, rfl, -⟩ := h.subscription key sub hsub
    obtain ⟨hviews, rfl | hconfused⟩ := subKey_mem_counted.mp hkey
    · exact ⟨q, hviews, rfl⟩
    · exact absurd hconfused (hclear q t hviews)

/-! ### `unpublish` -/

theorem unpublish_exact_iff (s : String) :
    (Op.unpublish s).Exact R ↔ (Op.unpublish s).Clear R := by
  have hviews : ∀ q t, Views (R.unpublish s).1 q t ↔
      Views R q t ∧ ¬ (R.publishers.has s = true ∧ (t = s ∨ Confused t s)) := fun q t => by
    rw [views_removes (removes_unpublish s R).toUnregisters, endsWith_subKey_iff]
  simp only [Op.Exact, Op.Clear, hviews]
  split
  · next hhas =>
    constructor
    · intro hexact q t hview hconfused
      exact ((hexact q t).mpr ⟨hview, hconfused.ne⟩).2 ⟨hhas, .inr hconfused⟩
    · intro hclear q t
      refine and_congr_right fun hview => not_congr ?_
      rw [and_iff_right hhas, or_iff_left (hclear q t hview)]
  · next hhas =>
    constructor
    · intro hexact q hview
      exact ((hexact q s).mp ⟨hview, fun h => hhas h.1⟩).2 rfl
    · intro hnone q t
      refine and_congr_right fun hview => iff_of_true (fun h => hhas h.1) ?_
      rintro rfl
      exact hnone q hview

/-! ### `removePeer` -/

theorem mem_demanded {out : List Output} {t : String} :
    t ∈ demanded out ↔ ∃ owner n, .demandChanged t owner n ∈ out := by
  unfold demanded
  rw [List.mem_filterMap]
  constructor
  · rintro ⟨o, ho, heq⟩
    cases o with
    | demandChanged s owner n =>
      cases heq
      exact ⟨owner, n, ho⟩
    | _ => cases heq
  · rintro ⟨owner, n, ho⟩
    exact ⟨_, ho, rfl⟩

theorem demanded_append (out out' : List Output) :
    demanded (out ++ out') = demanded out ++ demanded out' := List.filterMap_append

/-- The demand of each stream is reported once. -/
theorem demanded_flatMap (R : Router) (ss : List String) :
    demanded (ss.flatMap R.demandOf) = ss.filter fun s => R.publishers.has s := by
  induction ss with
  | nil => rfl
  | cons s ss ih =>
    rw [List.flatMap_cons, demanded_append, ih]
    unfold Router.demandOf InsertionMap.has
    cases hget : R.publishers.get s with
    | none => simp [hget, demanded]
    | some pub => simp [hget, demanded, Router.emitDemand]

theorem nodup_demanded_removePeer (p : PeerId) (R : Router) :
    (demanded (R.removePeer p).2).Nodup := by
  have hended : demanded (R.unpublishAll (R.ownedBy p)).2 = [] := by
    refine List.eq_nil_iff_forall_not_mem.mpr fun t ht => ?_
    obtain ⟨owner, n, ho⟩ := mem_demanded.mp ht
    obtain ⟨s, -, -, heq⟩ := (mem_unpublishAll_out _ _ _).mp ho
    cases heq
  have hout : (R.removePeer p).2 = (R.unpublishAll (R.ownedBy p)).2 ++
      (((R.unpublishAll (R.ownedBy p)).1.subscriptions.keys.filter
        fun key => startsWith key (p.text ++ "::")).map
          (slice · (p.text.length + 2))).flatMap (R.removePeer p).1.demandOf := rfl
  rw [hout, demanded_append, hended, List.nil_append, demanded_flatMap]
  refine List.Nodup.filter _ (List.Nodup.map_on (fun key hkey key' hkey' heq => ?_)
    ((R.unpublishAll (R.ownedBy p)).1.subscriptions.nodup.filter _))
  -- what is cut off the keys of one peer tells them apart
  obtain ⟨t, rfl⟩ := (startsWith_iff_subKey p key).mp (List.mem_filter.mp hkey).2
  obtain ⟨t', rfl⟩ := (startsWith_iff_subKey p key').mp (List.mem_filter.mp hkey').2
  rw [slice_subKey, slice_subKey] at heq
  rw [heq]

/-- What a departure leaves and reports, in terms of keys. -/
theorem removePeer_effects (p : PeerId) (R : Router) :
    (∀ t pub, (R.removePeer p).1.publishers.get t = some pub ↔
      R.publishers.get t = some pub ∧ ¬ Owns R p t) ∧
    (∀ q t, Views (R.removePeer p).1 q t ↔
      Views R q t ∧ q ≠ p ∧ ∀ s, Owns R p s → t ≠ s ∧ ¬ Confused t s) ∧
    ∀ t, t ∈ demanded (R.removePeer p).2 ↔ Views R p t ∧
      (∀ s, Owns R p s → t ≠ s ∧ ¬ Confused t s) ∧ (R.removePeer p).1.publishers.has t = true := by
  have hremoves := (removes_removePeer p R).toUnregisters
  have hkeys : ∀ q t, (∀ s, Owns R p s → endsWith (subKey q t) ("::" ++ s) = false) ↔
      ∀ s, Owns R p s → t ≠ s ∧ ¬ Confused t s := fun q t =>
    forall_congr' fun s => imp_congr_right fun _ => by
      rw [← not_or, ← endsWith_subKey_iff q, Bool.not_eq_true]
  refine ⟨fun t pub => ?_, fun q t => ?_, fun t => ?_⟩
  · by_cases howns : Owns R p t
    · rw [hremoves.publishers_removed t (mem_ownedBy.mpr howns)]
      simp [howns]
    · rw [hremoves.publishers_kept t fun hmem => howns (mem_ownedBy.mp hmem), and_iff_left howns]
  · rw [views_removes hremoves, startsWith_subKey, not_or, and_comm (a := ¬ _)]
    refine and_congr_right fun _ => and_congr_right fun _ => ?_
    rw [← hkeys q t]
    simp only [mem_ownedBy, not_exists, not_and, Bool.not_eq_true]
    exact Iff.rfl
  · have hw := withdrawn_removePeer p R
    have hhas : ∀ s, Owns R p s → R.publishers.has s = true := fun s ⟨pub, hpub, _⟩ =>
      (InsertionMap.has_iff _ _).mpr ⟨pub, hpub⟩
    rw [mem_demanded, ← hkeys p t]
    constructor
    · rintro ⟨owner, n, hmem⟩
      obtain ⟨_, rfl, hviews, hown⟩ := hw.left t owner n hmem
      obtain ⟨pub, hpub, -, -⟩ := hw.demand t owner n hmem
      exact ⟨hviews, fun s hs => hown s (mem_ownedBy.mpr hs) (hhas s hs),
        (InsertionMap.has_iff _ _).mpr ⟨pub, hpub⟩⟩
    · rintro ⟨hviews, hown, hlive⟩
      obtain ⟨pub, hpub⟩ := (InsertionMap.has_iff _ _).mp hlive
      exact ⟨_, _, hw.told p t pub rfl hviews (fun s hs _ => hown s (mem_ownedBy.mp hs)) hpub⟩

theorem removePeer_exact_iff (p : PeerId) :
    (Op.removePeer p).Exact R ↔ (Op.removePeer p).Clear R := by
  obtain ⟨hpubs, hviews, hdemanded⟩ := removePeer_effects p R
  have hlive : ∀ t, (R.removePeer p).1.publishers.has t = true ↔
      R.publishers.has t = true ∧ ¬ Owns R p t := by
    intro t
    simp only [InsertionMap.has_iff, hpubs]
    constructor
    · rintro ⟨pub, h, hno⟩
      exact ⟨⟨pub, h⟩, hno⟩
    · rintro ⟨⟨pub, h⟩, hno⟩
      exact ⟨pub, h, hno⟩
  simp only [Op.Exact, Op.Clear, hviews, hdemanded, hpubs, hlive, iff_self, implies_true, true_and]
  constructor
  · rintro ⟨hkept, -, htold⟩ s q t hs hview hconfused
    by_contra hnot
    obtain ⟨hown, hq⟩ := not_or.mp hnot
    by_cases hqp : q = p
    · subst hqp
      have hhas : R.publishers.has t = true := by
        by_contra hfalse
        exact hq ⟨rfl, by simpa using hfalse⟩
      exact (((htold t).mpr ⟨hview, hhas, hown⟩).2.1 s hs).2 hconfused
    · exact (((hkept q t).mpr ⟨hview, hqp, hown⟩).2.2 s hs).2 hconfused
  · intro hclear
    have hapart : ∀ q t, Views R q t → ¬ Owns R p t → (q = p → R.publishers.has t = true) →
        ∀ s, Owns R p s → t ≠ s ∧ ¬ Confused t s := by
      intro q t hview hown hhas s hs
      refine ⟨fun heq => hown (heq ▸ hs), fun hconfused => ?_⟩
      rcases hclear s q t hs hview hconfused with h | ⟨rfl, h⟩
      · exact hown h
      · rw [hhas rfl] at h
        cases h
    refine ⟨fun q t => ?_, nodup_demanded_removePeer p R, fun t => ?_⟩
    · refine and_congr_right fun hview => and_congr_right fun hq => ⟨fun h hown => ?_, fun hown => ?_⟩
      · exact (h t hown).1 rfl
      · exact hapart q t hview hown fun heq => absurd heq hq
    · refine and_congr_right fun hview => ⟨And.right, ?_⟩
      rintro ⟨hhas, hown⟩
      exact ⟨hapart p t hview hown fun _ => hhas, hhas, hown⟩

/-! ### Every reachable state -/

/-- **The streams are kept apart exactly if no confused ids meet.**  In every state that the router can
reach, an operation is about what it names, and nothing else, if and only if the subscriptions are clear of
ids that it confuses. -/
theorem exact_iff_clear {es : List Event} (hvalid : router.Valid .new es) (op : Op) :
    op.Exact (router.exec .new es) ↔ op.Clear (router.exec .new es) := by
  have hwf : Wf (router.exec .new es) :=
    Machine.exec_invariant (I := Wf) (fun _ e h henabled => wf_next h e henabled) hvalid wf_new
  cases op with
  | subscriberCount s => exact count_exact_iff hwf s
  | unpublish s => exact unpublish_exact_iff s
  | removePeer p => exact removePeer_exact_iff p

theorem exact_iff_clear_republishRun :
    (Op.unpublish "screen").Exact (router.exec .new republishRun) ↔
      (Op.unpublish "screen").Clear (router.exec .new republishRun) :=
  exact_iff_clear (by decide +kernel) _

/-- The stream that a request names. -/
def Event.streamId : Event → Option String
  | .publish _ s _ | .subscribe _ s | .completeSubscribe _ s | .unpublish s | .unsubscribe _ s => some s
  | _ => none

def Op.streamId : Op → Option String
  | .subscriberCount s | .unpublish s => some s
  | .removePeer _ => none

/-- Alice publishes `cam` and `x::cam`, and Bob views the second. -/
def confusedRun : List Event :=
  [.publish alice "cam" ⟨true, false⟩, .settle 0 (.succeeded (some "sdp")),
    .publish alice "x::cam" ⟨true, false⟩, .settle 1 (.succeeded (some "sdp")), .track 1 .video,
    .subscribe bob "x::cam", .settle 2 (.succeeded (some "sdp"))]

/-- When Alice unpublishes `cam`, Bob loses his subscription to the other stream. -/
theorem confused_viewer_dropped :
    ¬ ∀ (es : List Event) (op : Op), router.Valid .new es →
      (∀ e ∈ es, ∀ s ∈ e.streamId, Filled 64 s) → (∀ s ∈ op.streamId, Filled 64 s) →
      op.Exact (router.exec .new es) := by
  intro h
  have hexact := h confusedRun (.unpublish "cam") (by decide +kernel) (by decide +kernel)
    (by decide +kernel)
  have hlost : ¬ Views ((router.exec .new confusedRun).unpublish "cam").1 bob "x::cam" := by
    decide +kernel
  exact hlost ((hexact bob "x::cam").mpr ⟨by decide +kernel, by decide⟩)

end ScreenSharing.Sfu
