import Mathlib.Tactic.IntervalCases
import ScreenSharing.Sfu.Viewers

/-!
# Whether a stream is paused, and what its owner was told

A stream without viewers is paused, and its owner is told to send nothing.  The router counts the
viewers of a stream by the ends of the keys of their subscriptions.  With stream ids that contain no
`::` a key ends with `::x` in two cases (`endsWith_iff`): the subscription is to `x`, or it is to
`:x`.  So the viewers of `:x` count as viewers of `x`, and they lose their subscriptions, unheard,
when `x` is unpublished.

`directed` is the media plane together with which streams have had a viewer since they went live, and
the last directive sent about each stream.  `FollowsDemand` says that the pause and the directive
agree with there being a viewer.  `followsDemand_next_iff` shows that one operation keeps this
exactly if it does not run into one of the two cases, which is `NoClash`; `followsDemand_iff_noClash`
is the same for runs.
-/

namespace ScreenSharing.Sfu

open Lib

variable {R R' : Router} {M : MediaPlane}

/-! ### Keys of ids without a separator -/

/-- The id contains no `::`. -/
def NoSep (s : String) : Prop := ¬ [':', ':'] <:+: s.toList

instance (s : String) : Decidable (NoSep s) :=
  inferInstanceAs (Decidable (¬ [':', ':'] <:+: s.toList))

/-- A generated id contains no colon. -/
theorem colon_not_mem (p : PeerId) : ':' ∉ p.text.toList := by
  intro hmem
  have h := p.shape
  simp only [isPeerId, Bool.and_eq_true, beq_iff_eq] at h
  obtain ⟨⟨-, hpre⟩, hhex⟩ := h
  rw [← List.take_append_drop 2 p.text.toList, hpre, List.mem_append] at hmem
  rcases hmem with hmem | hmem
  · exact absurd hmem (by decide)
  · exact absurd (List.all_eq_true.mp hhex ':' hmem) (by decide)

/-- The key of a subscription to `t` ends as one to `s` does, though `t` is another id. -/
def Confused (t s : String) : Prop := t = ":" ++ s ∨ endsWith t ("::" ++ s) = true

instance (t s : String) : Decidable (Confused t s) := inferInstanceAs (Decidable (_ ∨ _))

/-- **When a key ends with the id of a stream**, whatever the ids. -/
theorem endsWith_subKey_iff (p : PeerId) (t s : String) :
    endsWith (subKey p t) ("::" ++ s) = true ↔ t = s ∨ Confused t s := by
  have hcolons : ("::" ++ s).toList = ':' :: ':' :: s.toList := by
    simp [String.toList_append]
  have hcolon : (":" ++ s).toList = ':' :: s.toList := by
    simp [String.toList_append]
  unfold Confused
  rw [endsWith, endsWith, List.isSuffixOf_iff_suffix, List.isSuffixOf_iff_suffix, subKey_toList, hcolons]
  constructor
  · intro hsuffix
    have hown : ':' :: ':' :: t.toList <:+ p.text.toList ++ ':' :: ':' :: t.toList :=
      List.suffix_append _ _
    rcases List.suffix_or_suffix_of_suffix hsuffix hown with hle | hle
    · rcases List.suffix_cons_iff.mp hle with heq | hle
      · exact .inl (String.toList_injective (by simpa using heq.symm))
      · rcases List.suffix_cons_iff.mp hle with heq | hle
        · refine .inr (.inl (String.toList_injective ?_))
          rw [hcolon]
          simpa using heq.symm
        · exact .inr (.inr hle)
    · -- a colon of the ending would be in the id of the peer
      obtain ⟨k, hk⟩ := hle
      cases k with
      | nil => exact .inl (String.toList_injective (by simpa using hk))
      | cons c k =>
        obtain ⟨u, hu⟩ := hsuffix
        have hc : c = ':' := (List.cons.inj hk).1
        rw [← hk, ← List.append_assoc] at hu
        have hp : u ++ c :: k = p.text.toList := List.append_cancel_right hu
        refine absurd ?_ (colon_not_mem p)
        rw [← hp, ← hc]
        exact List.mem_append_right u List.mem_cons_self
  · rintro (rfl | rfl | hsuffix)
    · exact List.suffix_append _ _
    · rw [hcolon]
      exact ⟨p.text.toList ++ [':'], by simp⟩
    · exact hsuffix.trans ((List.suffix_append [':', ':'] t.toList).trans (List.suffix_append _ _))

theorem endsWith_iff (p : PeerId) {s t : String} (hs : NoSep s) :
    endsWith (subKey p s) ("::" ++ t) = true ↔ s = t ∨ s = ":" ++ t := by
  rw [endsWith_subKey_iff]
  refine or_congr_right (or_iff_left fun h => hs ?_)
  rw [endsWith, List.isSuffixOf_iff_suffix, String.toList_append] at h
  exact ((List.prefix_append _ t.toList).isInfix).trans h.isInfix

/-- The keys of the subscriptions are made of a peer and a live stream, and the ids of the live streams
contain no separator, nor do those about to be published. -/
structure Keyed (R : Router) : Prop where
  keys : ∀ key, R.subscriptions.has key = true →
    ∃ p s, key = subKey p s ∧ R.publishers.has s = true
  live : ∀ s, R.publishers.has s = true → NoSep s
  calls : ∀ k p s kinds, R.negotiating.get k = some (.publish p s kinds) → NoSep s

theorem Keyed.noSep (h : Keyed R) {p : PeerId} {s : String} (hviews : Views R p s) :
    R.publishers.has s = true ∧ NoSep s := by
  obtain ⟨q, t, hkey, hlive⟩ := h.keys _ hviews
  obtain ⟨-, rfl⟩ := subKey_inj.mp hkey
  exact ⟨hlive, h.live s hlive⟩

/-- **What the router counts** as viewers of `s`: those of `s`, and those of `:s`. -/
theorem subscriberCount_eq_zero (h : Keyed R) (s : String) :
    R.subscriberCount s = 0 ↔ (∀ p, ¬ Views R p s) ∧ ∀ p, ¬ Views R p (":" ++ s) := by
  unfold Router.subscriberCount
  rw [List.length_eq_zero_iff, List.filter_eq_nil_iff]
  have hmem : ∀ key, key ∈ R.subscriptions.keys ↔ R.subscriptions.has key = true := by
    intro key
    rw [InsertionMap.mem_keys, InsertionMap.has_iff]
  constructor
  · intro hnone
    constructor
    · intro p hviews
      exact hnone _ ((hmem _).mpr hviews) (endsWith_subKey p s)
    · intro p hviews
      exact hnone _ ((hmem _).mpr hviews) ((endsWith_iff p (h.noSep hviews).2).mpr (.inr rfl))
  · rintro ⟨hown, hclash⟩ key hkey hend
    rw [hmem] at hkey
    obtain ⟨p, t, rfl, hlive⟩ := h.keys key hkey
    rcases (endsWith_iff p (h.live t hlive)).mp hend with rfl | rfl
    · exact hown p hkey
    · exact hclash p hkey

/-! ### The directives sent -/

/-- The media plane, the streams that have had a viewer since they went live, and the last directive
about each stream that was sent to each peer. -/
structure Directed where
  plane : MediaPlane
  viewed : String → Prop
  last : String → String → Option QualityDirective

def Directed.new (videoBitrateKbps : ℚ) : Directed :=
  ⟨.new videoBitrateKbps, fun _ => False, fun _ _ => none⟩

def viewedAfter (R' : Router) (viewed : String → Prop) (s : String) : Prop :=
  R'.publishers.has s = true ∧ (viewed s ∨ ∃ p, Views R' p s)

def note (last : String → String → Option QualityDirective) :
    MediaOutput → String → String → Option QualityDirective
  | .sendTo p (.qualityDirective d), q, s => if q = p ∧ s = d.streamId then some d else last q s
  | _, q, s => last q s

/-- The media plane as a machine, with viewers and directives recorded. -/
def directed : Machine Directed MediaEvent MediaOutput where
  enabled D e := MediaEnabled D.plane e
  step D e :=
    (⟨(mediaReact D.plane e).1, viewedAfter (mediaReact D.plane e).1.router D.viewed,
      (mediaReact D.plane e).2.foldl note D.last⟩, (mediaReact D.plane e).2)

/-- The last directive is one of those just sent, or still the one of before. -/
theorem foldl_note (outs : List MediaOutput) :
    ∀ (last : String → String → Option QualityDirective) (q s : String),
      (outs.foldl note last q s = last q s ∧
        ∀ d, MediaOutput.sendTo q (.qualityDirective d) ∈ outs → d.streamId ≠ s) ∨
      ∃ d, MediaOutput.sendTo q (.qualityDirective d) ∈ outs ∧ d.streamId = s ∧
        outs.foldl note last q s = some d := by
  induction outs with
  | nil =>
    intro last q s
    exact .inl ⟨rfl, fun d h => by cases h⟩
  | cons o outs ih =>
    intro last q s
    rw [List.foldl_cons]
    rcases ih (note last o) q s with ⟨heq, hnone⟩ | ⟨d, hd, hs, heq⟩
    · by_cases hnow : ∃ d, o = .sendTo q (.qualityDirective d) ∧ d.streamId = s
      · obtain ⟨d, rfl, rfl⟩ := hnow
        refine .inr ⟨d, List.mem_cons_self, rfl, heq.trans ?_⟩
        exact if_pos ⟨rfl, rfl⟩
      · have hsame : note last o q s = last q s := by
          unfold note
          split
          · next _ _ r d =>
            exact if_neg fun h => hnow ⟨d, by rw [h.1], h.2.symm⟩
          · rfl
        refine .inl ⟨heq.trans hsame, fun d hd => ?_⟩
        rcases List.mem_cons.mp hd with rfl | hd
        · exact fun hs => hnow ⟨d, rfl, hs⟩
        · exact hnone d hd
    · exact .inr ⟨d, List.mem_cons_of_mem _ hd, hs, heq⟩

/-- Outputs that direct nothing leave the last directives as they are. -/
theorem foldl_note_undirected {outs : List MediaOutput} (h : Undirected outs)
    (last : String → String → Option QualityDirective) (q s : String) :
    outs.foldl note last q s = last q s := by
  rcases foldl_note outs last q s with ⟨heq, -⟩ | ⟨d, hd, -⟩
  · exact heq
  · exact absurd hd (h q d)

/-- What follows in plain outputs does not count. -/
theorem foldl_note_plain {last : Output} (hlast : last.Plain) (M : MediaPlane) (o : Output)
    (noted : String → String → Option QualityDirective) (q s : String) :
    (M.onOutputs [o, last]).2.foldl note noted q s = (M.onOutput o).2.foldl note noted q s := by
  have hcons : M.onOutputs [o, last] = (((M.onOutput o).1.onOutputs [last]).1,
      (M.onOutput o).2 ++ ((M.onOutput o).1.onOutputs [last]).2) := rfl
  rw [hcons, List.foldl_append, foldl_note_undirected]
  refine (onOutputs_plain (fun o ho => ?_) _).2
  rw [List.mem_singleton.mp ho]
  exact hlast

/-! ### What the owner is told in a withdrawal -/

/-- The rate of every rung of the ladder is positive after rounding. -/
def NoZeroRung (baseKbps : ℚ) : Prop :=
  ∀ level < qualityLadder.length, Governor.round (baseKbps * (Governor.levelAt level).kbpsFactor) ≠ 0

/-- The levels are rungs of the ladder. -/
def OnLadder (G : Governor) : Prop :=
  ∀ s st, G.streams.get s = some st → st.level < qualityLadder.length

/-- What the owner of a stream was told says whether there are viewers. -/
def Told (last : String → String → Option QualityDirective) (owner s : String) (n : ℕ) : Prop :=
  ∃ d, last owner s = some d ∧ (d.maxKbps = 0 ↔ n = 0)

/-- The demand of another stream does not change what was said about this one. -/
theorem note_other {o : Output} {s : String} (hother : ∀ owner n, o ≠ .demandChanged s owner n)
    (M : MediaPlane) (last : String → String → Option QualityDirective) (q : String) :
    (M.onOutput o).2.foldl note last q s = last q s := by
  rcases foldl_note (M.onOutput o).2 last q s with ⟨heq, -⟩ | ⟨d, hd, hs, -⟩
  · exact heq
  · exfalso
    cases o with
    | demandChanged t owner n =>
      have hne : t ≠ s := by
        rintro rfl
        exact hother owner n rfl
      rw [MediaPlane.onOutput] at hd
      split at hd
      · cases List.mem_singleton.mp hd
        exact hne hs
      · dsimp only at hd
        split at hd
        · cases hd
        · next d' hresume =>
          cases List.mem_singleton.mp hd
          obtain ⟨st, -, rfl⟩ := Option.map_eq_some_iff.mp hresume
          exact hne hs
    | streamLive => cases List.mem_singleton.mp hd
    | streamEnded => cases List.mem_singleton.mp hd
    | answered => cases List.mem_singleton.mp hd
    | rejected => cases List.mem_singleton.mp hd
    | resolved call sdp =>
      change _ ∈ replyTo sdp call at hd
      cases call with
      | publish => cases List.mem_singleton.mp hd
      | subscribe => cases List.mem_singleton.mp hd
      | completeSubscribe => cases hd

/-- The demand of a stream that the governor knows is passed on to its owner. -/
theorem note_demand {s : String} {st : Governor.StreamState}
    (hst : M.governor.streams.get s = some st)
    (hrate : Governor.round (M.governor.baseKbps * (Governor.levelAt st.level).kbpsFactor) ≠ 0)
    (last : String → String → Option QualityDirective) (owner : String) (n : ℕ) :
    Told ((M.onOutput (.demandChanged s owner n)).2.foldl note last) owner s n := by
  rw [MediaPlane.onOutput]
  split
  · next hn => exact ⟨_, if_pos ⟨rfl, rfl⟩, by simp [hn]⟩
  · next hn =>
    have hresume : (M.governor.setPaused s false).resumeDirective s =
        some (((M.governor.setPaused s false).directive s { st with paused := false } .restored)) := by
      unfold Governor.resumeDirective
      rw [Governor.get_setPaused, if_pos rfl, hst]
      rfl
    have hbase : (M.governor.setPaused s false).baseKbps = M.governor.baseKbps :=
      Governor.baseKbps_heard (.demandChanged s owner 1) M.governor
    simp only [hresume]
    refine ⟨_, if_pos ⟨rfl, rfl⟩, ?_⟩
    constructor
    · intro hzero
      change Governor.round ((M.governor.setPaused s false).baseKbps * _) = 0 at hzero
      rw [hbase] at hzero
      exact absurd hzero hrate
    · intro hzero
      exact absurd hzero hn

section Telling

variable {s owner : String} {n : ℕ} {os : List Output}

/-- The entry and the rate of a stream that does not end are still there after an output. -/
theorem entry_onOutput {o : Output} (ho : OnlyWithdrawals [o]) (hended : o ≠ .streamEnded s)
    {st : Governor.StreamState} (hst : M.governor.streams.get s = some st) :
    ∃ st', (M.onOutput o).1.governor.streams.get s = some st' ∧ st'.level = st.level ∧
      (M.onOutput o).1.governor.baseKbps = M.governor.baseKbps := by
  rw [onOutput_governor, Governor.get_heard, hst, Governor.baseKbps_heard]
  rcases ho o List.mem_cons_self with ⟨t, rfl⟩ | ⟨t, q, m, rfl⟩
  · have hne : s ≠ t := by
      rintro rfl
      exact hended rfl
    exact ⟨st, if_neg hne, rfl, rfl⟩
  · by_cases hs : s = t
    · exact ⟨_, if_pos hs, rfl, rfl⟩
    · exact ⟨st, if_neg hs, rfl, rfl⟩

theorem untold_onOutputs (os : List Output) (huntold : ∀ q m, Output.demandChanged s q m ∉ os) :
    ∀ (M : MediaPlane) (last : String → String → Option QualityDirective) (q : String),
      (M.onOutputs os).2.foldl note last q s = last q s := by
  induction os with
  | nil => intro M last q; rfl
  | cons o os ih =>
    intro M last q
    show ((M.onOutput o).2 ++ ((M.onOutput o).1.onOutputs os).2).foldl note last q s = _
    rw [List.foldl_append, ih fun q m h => huntold q m (List.mem_cons_of_mem _ h)]
    refine note_other (fun q m heq => huntold q m ?_) M last q
    rw [heq]
    exact List.mem_cons_self

/-- If the demand of a stream is announced, or the owner knows of it already, the owner knows of it
in the end. -/
theorem told_onOutputs (os : List Output) (hos : OnlyWithdrawals os)
    (hended : Output.streamEnded s ∉ os)
    (hsame : ∀ q m, Output.demandChanged s q m ∈ os → q = owner ∧ m = n) :
    ∀ (M : MediaPlane) (last : String → String → Option QualityDirective)
      (st : Governor.StreamState), M.governor.streams.get s = some st →
      Governor.round (M.governor.baseKbps * (Governor.levelAt st.level).kbpsFactor) ≠ 0 →
      (Output.demandChanged s owner n ∈ os ∨ Told last owner s n) →
      Told ((M.onOutputs os).2.foldl note last) owner s n := by
  induction os with
  | nil =>
    intro M last st _ _ h
    exact h.resolve_left fun hmem => by cases hmem
  | cons o os ih =>
    intro M last st hst hrate h
    show Told (((M.onOutput o).2 ++ ((M.onOutput o).1.onOutputs os).2).foldl note last) owner s n
    rw [List.foldl_append]
    have hone : OnlyWithdrawals [o] := by
      intro o' ho'
      rw [List.mem_singleton.mp ho']
      exact hos o List.mem_cons_self
    have hne : o ≠ .streamEnded s := by
      rintro rfl
      exact hended List.mem_cons_self
    obtain ⟨st', hst', hlevel, hbase⟩ := entry_onOutput hone hne hst
    refine ih hos.tail (fun hmem => hended (List.mem_cons_of_mem _ hmem))
      (fun q m hmem => hsame q m (List.mem_cons_of_mem _ hmem)) _ _ st' hst'
      (by rw [hbase, hlevel]; exact hrate) ?_
    by_cases hnow : o = .demandChanged s owner n
    · subst hnow
      exact .inr (note_demand hst hrate last owner n)
    · rcases h with hmem | ⟨d, hd, hiff⟩
      · exact .inl ((List.mem_cons.mp hmem).resolve_left fun heq => hnow heq.symm)
      · refine .inr ⟨d, ?_, hiff⟩
        rw [note_other ?_ M last owner]
        · exact hd
        · rintro q m rfl
          obtain ⟨rfl, rfl⟩ := hsame q m List.mem_cons_self
          exact hnow rfl

end Telling

/-! ### The property and its condition -/

variable {D : Directed}

/-- **Forwarding follows demand.**  For every live stream that has had a viewer, the pause and the
last directive to its owner say whether it has one now. -/
def FollowsDemand (D : Directed) : Prop :=
  ∀ s pub, D.plane.router.publishers.get s = some pub → D.viewed s →
    ∃ st d, D.plane.governor.streams.get s = some st ∧ D.last pub.info.ownerPeerId s = some d ∧
      (st.paused = true ↔ ∀ p, ¬ Views D.plane.router p s) ∧
      (d.maxKbps = 0 ↔ ∀ p, ¬ Views D.plane.router p s)

/-- The condition on an event.  When a stream `x` is unpublished, nobody watches the stream `:x`, if
that is live and stays so; and when the last viewers of `x` leave, all those of `:x` do, or that ends. -/
structure NoClash (M : MediaPlane) (e : MediaEvent) : Prop where
  ends : ∀ e' s, routerEvent e = some e' → unpublished M.router e' s →
    M.router.publishers.has s = true → M.router.publishers.has (":" ++ s) = true →
    ¬ unpublished M.router e' (":" ++ s) → ∀ p, ¬ Views M.router p (":" ++ s)
  leaves : ∀ e' s, routerEvent e = some e' → M.router.publishers.has s = true →
    ¬ unpublished M.router e' s → (∃ p, Views M.router p s) →
    (∀ p, Views M.router p s → Leaves M.router e' p s) →
    ∀ p, Views M.router p (":" ++ s) →
      Leaves M.router e' p (":" ++ s) ∨ unpublished M.router e' (":" ++ s)

/-- A stream that is offered has an id without a separator. -/
def PlainId : MediaEvent → Prop
  | .message _ (.publishOffer s _ _ _) => NoSep s
  | _ => True

instance decidablePlainId (e : MediaEvent) : Decidable (PlainId e) := by
  unfold PlainId
  split <;> infer_instance

/-- The runs the property is about. -/
def InOrder (D : Directed) (e : MediaEvent) : Prop :=
  MediaEnabled D.plane e ∧ Sequential D.plane e ∧ PlainId e

instance (D : Directed) (e : MediaEvent) : Decidable (InOrder D e) :=
  inferInstanceAs (Decidable (MediaEnabled D.plane e ∧ Sequential D.plane e ∧ PlainId e))

/-- What holds in all of them. -/
structure Sound (baseKbps : ℚ) (D : Directed) : Prop where
  inStep : InStep D.plane.router
  synced : Synced D.plane
  keyed : Keyed D.plane.router
  onLadder : OnLadder D.plane.governor
  base : D.plane.governor.baseKbps = baseKbps
  viewed_live : ∀ s, D.viewed s → D.plane.router.publishers.has s = true
  viewed_of_views : ∀ s p, D.plane.router.publishers.has s = true → Views D.plane.router p s →
    D.viewed s

theorem sound_new (videoBitrateKbps : ℚ) : Sound videoBitrateKbps (.new videoBitrateKbps) where
  inStep := inStep_new
  synced := synced_new videoBitrateKbps
  keyed := ⟨fun key h => (by cases h), fun s h => (by cases h), fun k p s kinds h => (by cases h)⟩
  onLadder s st h := by cases h
  base := rfl
  viewed_live s h := h.elim
  viewed_of_views s p h := by cases h

/-! ### What holds in all runs -/

/-- A call that publishes is in flight after a step: it was before, or the step starts it. -/
theorem publish_call_next {e : Event} (henabled : Enabled R e) {k : ℕ} {p : PeerId} {s : String}
    {kinds : Kinds} (h : (react R e).1.negotiating.get k = some (.publish p s kinds)) :
    R.negotiating.get k = some (.publish p s kinds) ∨ e = .publish p s kinds := by
  have hbegin : ∀ (R₁ : Router) (call : Call) (pc : Pc), R₁.negotiating = R.negotiating →
      (R₁.begin call pc).negotiating.get k = some (.publish p s kinds) →
      R.negotiating.get k = some (.publish p s kinds) ∨ call = .publish p s kinds := by
    intro R₁ call pc hsame hget
    change (R₁.negotiating.set R₁.nextCall call).get k = _ at hget
    rw [InsertionMap.get_set, hsame] at hget
    split at hget
    · exact .inr (Option.some.inj hget)
    · exact .inl hget
  cases e with
  | publish q t kinds' =>
    change (R.publish q t kinds').1.negotiating.get k = _ at h
    unfold Router.publish at h
    dsimp only at h
    split at h
    · exact .inl h
    · split at h
      · exact .inl h
      · rcases hbegin _ _ _ rfl h with hold | hcall
        · exact .inl hold
        · cases hcall
          exact .inr rfl
  | subscribe q t =>
    left
    change (R.subscribe q t).1.negotiating.get k = _ at h
    unfold Router.subscribe at h
    dsimp only at h
    split at h
    · exact h
    · split at h
      · exact h
      · split at h
        · exact h
        · split at h
          · exact h
          · exact (hbegin _ _ _ rfl h).resolve_right fun hcall => by cases hcall
  | completeSubscribe q t =>
    left
    change (R.completeSubscribe q t).1.negotiating.get k = _ at h
    unfold Router.completeSubscribe at h
    dsimp only at h
    split at h
    · exact h
    · exact (hbegin _ _ _ rfl h).resolve_right fun hcall => by cases hcall
  | settle j outcome =>
    left
    change (R.settle j outcome).1.negotiating.get k = _ at h
    rw [settle_negotiating j outcome henabled] at h
    exact (InsertionMap.get_of_get_delete h).1
  | unpublish t =>
    left
    change (R.unpublish t).1.negotiating.get k = _ at h
    rw [(removes_unpublish t R).negotiating] at h
    exact h
  | unsubscribe q t =>
    left
    change (R.unsubscribe q t).1.negotiating.get k = _ at h
    rw [(removes_unsubscribe q t R).negotiating] at h
    exact h
  | removePeer q =>
    left
    change (R.removePeer q).1.negotiating.get k = _ at h
    rw [(removes_removePeer q R).negotiating] at h
    exact h
  | track pc kind => exact .inl h
  | stateChange pc state =>
    left
    change (R.onStateChange pc state).1.negotiating.get k = _ at h
    by_cases hlost : state.lost = true
    · rw [(removes_stateChange hlost).of_reported.negotiating] at h
      exact h
    · rw [onStateChange_of_not_lost hlost] at h
      exact h
  | close =>
    left
    change R.close.1.negotiating.get k = _ at h
    rw [(removes_close R).negotiating] at h
    exact h

/-- Tables that have lost nothing but what a withdrawal takes. -/
theorem keyed_withdrawn (h : Keyed R) {e' : Event} {os : List Output}
    (hw : Withdrawn R (unpublished R e') (Leaves R e') R' os) :
    (∀ key, R'.subscriptions.has key = true →
      ∃ p s, key = subKey p s ∧ R'.publishers.has s = true) ∧
    ∀ s, R'.publishers.has s = true → NoSep s := by
  constructor
  · intro key hkey
    have hkept : ¬ dropped R e' key := by
      intro hdropped
      rw [InsertionMap.has, hw.removes.subscriptions_removed _ (dropped_iff.mp hdropped)] at hkey
      cases hkey
    rw [InsertionMap.has,
      hw.removes.subscriptions_kept _ fun hq => hkept (dropped_iff.mpr hq)] at hkey
    obtain ⟨p, s, rfl, hlive⟩ := h.keys key hkey
    refine ⟨p, s, rfl, ?_⟩
    have hun : ¬ unpublished R e' s := fun hun =>
      hkept (.inl ⟨s, hun, hlive, endsWith_subKey p s⟩)
    rw [InsertionMap.has, hw.removes.publishers_kept s hun]
    exact hlive
  · intro s hs
    obtain ⟨pub, hpub⟩ := (InsertionMap.has_iff _ _).mp hs
    exact h.live s ((InsertionMap.has_iff _ _).mpr ⟨pub, (hw.not_ended hpub).2.2⟩)

theorem keyed_next (hs : InStep M.router) (h : Keyed M.router) {e : MediaEvent}
    (henabled : MediaEnabled M e) (hplain : PlainId e) : Keyed (mediaPlane.next M e).router := by
  have hcalls : ∀ k p s kinds,
      (mediaPlane.next M e).router.negotiating.get k = some (.publish p s kinds) → NoSep s := by
    intro k p s kinds hcall
    rw [next_router] at hcall
    cases hevent : routerEvent e with
    | none =>
      rw [hevent] at hcall
      exact h.calls k p s kinds hcall
    | some e' =>
      rw [hevent] at hcall
      rcases publish_call_next (henabled.1 e' hevent) hcall with hold | rfl
      · exact h.calls k p s kinds hold
      · cases e with
        | message q body =>
          cases body <;> cases hevent
          exact hplain
        | _ => cases hevent
  have hout := media_outcome hs henabled
  change ∀ k p s kinds, (mediaReact M e).1.router.negotiating.get k = _ → NoSep s at hcalls
  show Keyed (mediaReact M e).1.router
  generalize mediaReact M e = res at hout hcalls
  cases hout with
  | quiet hstill hpubs hsubs hclosed hgov hout =>
    refine ⟨?_, ?_, hcalls⟩
    · rw [hsubs, hpubs]
      exact h.keys
    · rw [hpubs]
      exact h.live
  | published hstill hopen hcall hfree hpubs hsubs hclosed hlast =>
    rename_i R' k p s kinds last
    refine ⟨?_, ?_, hcalls⟩
    · rw [onOutputs_router]
      intro key hkey
      change R'.subscriptions.has key = true at hkey
      rw [hsubs] at hkey
      obtain ⟨q, t, rfl, hlive⟩ := h.keys key hkey
      refine ⟨q, t, rfl, ?_⟩
      show R'.publishers.has t = true
      rw [hpubs, InsertionMap.has_set]
      exact .inl hlive
    · rw [onOutputs_router]
      intro t ht
      change R'.publishers.has t = true at ht
      rw [hpubs, InsertionMap.has_set] at ht
      rcases ht with ht | rfl
      · exact h.live t ht
      · exact h.calls k p t kinds hcall
  | subscribed hstill hpub hfree hpubs hsubs hclosed hlast =>
    rename_i R' k p s pub last
    refine ⟨?_, ?_, hcalls⟩
    · rw [onOutputs_router]
      intro key hkey
      change R'.subscriptions.has key = true at hkey
      show ∃ q t, key = subKey q t ∧ R'.publishers.has t = true
      rw [hsubs, InsertionMap.has_set] at hkey
      rw [hpubs]
      rcases hkey with hkey | rfl
      · exact h.keys key hkey
      · exact ⟨p, s, rfl, (InsertionMap.has_iff _ _).mpr ⟨pub, hpub⟩⟩
    · rw [onOutputs_router]
      show ∀ t, R'.publishers.has t = true → NoSep t
      rw [hpubs]
      exact h.live
  | withdrawn hevent hw hclosed hreport hgov =>
    obtain ⟨hkeys, hlive⟩ := keyed_withdrawn h hw
    refine ⟨?_, ?_, hcalls⟩
    · rw [onOutputs_router]
      exact hkeys
    · rw [onOutputs_router]
      exact hlive
  | reported => exact ⟨h.keys, h.live, hcalls⟩
  | ticked => exact ⟨h.keys, h.live, hcalls⟩
  | closed hpubs hsubs hclosed hends =>
    refine ⟨?_, ?_, hcalls⟩
    · rw [onOutputs_router]
      intro key hkey
      rw [InsertionMap.has, hsubs key] at hkey
      cases hkey
    · rw [onOutputs_router]
      intro s hs
      rw [InsertionMap.has, hpubs s] at hs
      cases hs

/-- An event moves no level off the ladder, and does not change the base rate. -/
theorem onLadder_next (hs : InStep M.router) (h : OnLadder M.governor) {e : MediaEvent}
    (henabled : MediaEnabled M e) :
    OnLadder (mediaPlane.next M e).governor ∧
      (mediaPlane.next M e).governor.baseKbps = M.governor.baseKbps := by
  have hout := media_outcome hs henabled
  show OnLadder (mediaReact M e).1.governor ∧ (mediaReact M e).1.governor.baseKbps = _
  generalize mediaReact M e = res at hout
  cases hout with
  | quiet hstill hpubs hsubs hclosed hgov hout =>
    rw [hgov]
    exact ⟨h, rfl⟩
  | published hstill hopen hcall hfree hpubs hsubs hclosed hlast =>
    refine ⟨fun t st hst => ?_, onOutputs_baseKbps _ _⟩
    rw [onOutputs_get, published_get _ (plain_last hlast)] at hst
    split at hst
    · obtain rfl := Option.some.inj hst
      show (Option.getD (M.governor.streams.get t) _).level < _
      cases hget : M.governor.streams.get t with
      | none =>
        show 0 < qualityLadder.length
        decide
      | some st => exact h t st hget
    · exact h t st hst
  | subscribed hstill hpub hfree hpubs hsubs hclosed hlast =>
    refine ⟨fun t st hst => ?_, onOutputs_baseKbps _ _⟩
    rw [onOutputs_get, subscribed_get _ (plain_last hlast)] at hst
    split at hst
    · obtain ⟨st₀, hst₀, rfl⟩ := Option.map_eq_some_iff.mp hst
      exact h t st₀ hst₀
    · exact h t st hst
  | withdrawn hevent hw hclosed hreport hgov =>
    rename_i e' R' os G
    have hG : OnLadder G ∧ G.baseKbps = M.governor.baseKbps := by
      constructor
      · intro t st hst
        obtain ⟨f, hf, hkeep⟩ := get_before hgov t
        rw [hf] at hst
        obtain ⟨st₀, hst₀, rfl⟩ := Option.map_eq_some_iff.mp hst
        rw [(hkeep st₀).2.2.1]
        exact h t st₀ hst₀
      · rcases hgov with ⟨p, -, rfl⟩ | ⟨-, rfl⟩
        · exact M.governor.baseKbps_dropSubscriber p.text
        · rfl
    refine ⟨fun t st hst => ?_, (onOutputs_baseKbps _ _).trans hG.2⟩
    rw [onOutputs_get] at hst
    change os.foldl (Governor.heardAt t) (G.streams.get t) = some st at hst
    have hended : Output.streamEnded t ∉ os := by
      intro hmem
      rw [foldl_heardAt_ended hw.only hmem] at hst
      cases hst
    rcases hw.entry hended (G.streams.get t) with ⟨-, heq⟩ | ⟨-, heq⟩
    · rw [heq] at hst
      exact hG.1 t st hst
    · rw [heq] at hst
      obtain ⟨st₀, hst₀, rfl⟩ := Option.map_eq_some_iff.mp hst
      exact hG.1 t st₀ hst₀
  | reported =>
    rename_i p subs pubs
    refine ⟨fun t st hst => ?_, ingest_baseKbps M p subs pubs⟩
    cases hget : M.governor.streams.get t with
    | none =>
      have hnone := ingest_none M p subs pubs hget
      rw [hnone] at hst
      cases hst
    | some st₀ =>
      obtain ⟨st', hst', hin⟩ := ingest_get M p subs pubs hget
      have heq : st' = st := Option.some.inj (hst'.symm.trans hst)
      rw [← heq, hin.level]
      exact h t st₀ hget
  | ticked =>
    obtain ⟨hbase, hevolve, -⟩ := M.governor.evaluate_spec
    refine ⟨fun t st hst => ?_, hbase⟩
    rcases hevolve t with ⟨-, hnone⟩ | ⟨st₀, st', hst₀, hst', hev⟩
    · exact absurd (hnone.symm.trans hst) (by simp)
    · have heq : st' = st := Option.some.inj (hst'.symm.trans hst)
      rw [← heq]
      exact hev.level (h t st₀ hst₀)
  | closed hpubs hsubs hclosed hends =>
    refine ⟨fun t st hst => ?_, onOutputs_baseKbps _ _⟩
    rw [onOutputs_get] at hst
    rcases foldl_heardAt_ends hends t (M.governor.streams.get t) with heq | heq
    · rw [heq] at hst
      cases hst
    · rw [heq] at hst
      exact h t st hst

/-- **One event of an orderly run** keeps what holds in all of them. -/
theorem sound_next {baseKbps : ℚ} (h : Sound baseKbps D) {e : MediaEvent} (horder : InOrder D e) :
    Sound baseKbps (directed.next D e) where
  inStep := inStep_next h.inStep horder.1 horder.2.1
  synced := synced_next h.inStep h.synced horder.1
  keyed := keyed_next h.inStep h.keyed horder.1 horder.2.2
  onLadder := (onLadder_next h.inStep h.onLadder horder.1).1
  base := (onLadder_next h.inStep h.onLadder horder.1).2.trans h.base
  viewed_live _ hs := hs.1
  viewed_of_views _ p hs hviews := ⟨hs, .inr ⟨p, hviews⟩⟩

/-! ### A withdrawal, seen from one stream -/

section Withdrawal

variable {e' : Event} {os : List Output} {s : String}

/-- The event unpublishes the stream whose viewers those of `s` are mistaken for. -/
def Clashes (R : Router) (e' : Event) (s : String) : Prop :=
  ∃ t, unpublished R e' t ∧ R.publishers.has t = true ∧ s = ":" ++ t

/-- The viewers of a stream that is not unpublished: those of before who do not leave, unless the
stream is mistaken for one that is. -/
theorem views_withdrawn (h : Keyed R)
    (hw : Withdrawn R (unpublished R e') (Leaves R e') R' os) (hun : ¬ unpublished R e' s)
    (p : PeerId) :
    Views R' p s ↔ Views R p s ∧ ¬ Leaves R e' p s ∧ ¬ Clashes R e' s := by
  constructor
  · intro hviews
    have hkept : ¬ dropped R e' (subKey p s) := by
      intro hdropped
      rw [Views, InsertionMap.has, hw.removes.subscriptions_removed _ (dropped_iff.mp hdropped)]
        at hviews
      cases hviews
    have hbefore : Views R p s := by
      rw [Views, InsertionMap.has, ← hw.removes.subscriptions_kept _
        fun hq => hkept (dropped_iff.mpr hq)]
      exact hviews
    refine ⟨hbefore, fun hleaves => hkept (dropped_iff.mpr (.inr ⟨p, s, hleaves, rfl⟩)), ?_⟩
    rintro ⟨t, hunt, hlive, rfl⟩
    exact hkept (.inl ⟨t, hunt, hlive, (endsWith_iff p (h.noSep hbefore).2).mpr (.inr rfl)⟩)
  · rintro ⟨hviews, hstays, hclash⟩
    refine views_of_removes hw.removes ?_ hviews
    rintro (⟨t, hunt, hlive, hend⟩ | ⟨q, t, hleaves, hkey⟩)
    · rcases (endsWith_iff p (h.noSep hviews).2).mp hend with rfl | heq
      · exact hun hunt
      · exact hclash ⟨t, hunt, hlive, heq⟩
    · obtain ⟨rfl, rfl⟩ := subKey_inj.mp hkey
      exact hstays hleaves

/-- The demand of a stream that stays is announced when a viewer of it leaves, unless the viewer has
lost the subscription by mistake before. -/
theorem told_withdrawn (h : Keyed R)
    (hw : Withdrawn R (unpublished R e') (Leaves R e') R' os) (hun : ¬ unpublished R e' s)
    {pub : Publisher} (hpub : R'.publishers.get s = some pub) :
    Output.demandChanged s pub.info.ownerPeerId (R'.subscriberCount s) ∈ os ↔
      ∃ p, Views R p s ∧ Leaves R e' p s ∧ ¬ Clashes R e' s := by
  constructor
  · intro hmem
    obtain ⟨p, hleaves, hviews, hkept⟩ := hw.left _ _ _ hmem
    refine ⟨p, hviews, hleaves, ?_⟩
    rintro ⟨t, hunt, hlive, rfl⟩
    have hend := hkept t hunt hlive
    rw [(endsWith_iff p (h.noSep hviews).2).mpr (.inr rfl)] at hend
    cases hend
  · rintro ⟨p, hviews, hleaves, hclash⟩
    refine hw.told p s pub hleaves hviews (fun t hunt hlive => ?_) hpub
    rw [← Bool.not_eq_true, endsWith_iff p (h.noSep hviews).2]
    rintro (rfl | rfl)
    · exact hun hunt
    · exact hclash ⟨t, hunt, hlive, rfl⟩

/-- The entry of a stream after a withdrawal that announces its demand, or does not. -/
theorem paused_withdrawn {G : Governor}
    (hw : Withdrawn M.router (unpublished M.router e') (Leaves M.router e') R' os)
    (hgov : (∃ p, e' = .removePeer p ∧ G = M.governor.dropSubscriber p.text) ∨
      ((∀ p, e' ≠ .removePeer p) ∧ G = M.governor))
    {pub : Publisher} (hpub : R'.publishers.get s = some pub)
    {st : Governor.StreamState} (hst : M.governor.streams.get s = some st) :
    ∃ st', ({ router := R', governor := G : MediaPlane }.onOutputs os).1.governor.streams.get s =
        some st' ∧
      ((∀ owner n, Output.demandChanged s owner n ∉ os) ∧ st'.paused = st.paused ∨
        Output.demandChanged s pub.info.ownerPeerId (R'.subscriberCount s) ∈ os ∧
          (st'.paused = true ↔ R'.subscriberCount s = 0)) := by
  obtain ⟨f, hf, hkeep⟩ := get_before hgov s
  rw [onOutputs_get]
  show ∃ st', os.foldl (Governor.heardAt s) (G.streams.get s) = some st' ∧ _
  rcases hw.entry (hw.not_ended hpub).1 (G.streams.get s) with
    ⟨huntold, heq⟩ | ⟨⟨owner, hmem⟩, heq⟩
  · rw [heq, hf, hst]
    exact ⟨f st, rfl, .inl ⟨huntold, (hkeep st).2.2.2⟩⟩
  · obtain ⟨pub', hpub', rfl, -⟩ := hw.demand _ _ _ hmem
    obtain rfl : pub' = pub := Option.some.inj (hpub'.symm.trans hpub)
    rw [heq, hf, hst]
    exact ⟨_, rfl, .inr ⟨hmem, decide_eq_true_iff⟩⟩

end Withdrawal

/-! ### One step -/

/-- A stream that has had a viewer after an event that brings none had one before. -/
theorem viewed_back {baseKbps : ℚ} (h : Sound baseKbps D) {s : String}
    (hlive : D.plane.router.publishers.has s = true)
    (hfewer : ∀ p, Views R' p s → Views D.plane.router p s)
    (hviewed : viewedAfter R' D.viewed s) : D.viewed s := by
  rcases hviewed.2 with hold | ⟨p, hviews⟩
  · exact hold
  · exact h.viewed_of_views s p hlive (hfewer p hviews)

/-- An event that changes neither the tables nor the pauses, nor directs anything. -/
theorem followsDemand_of_same {baseKbps : ℚ} (h : Sound baseKbps D) (hf : FollowsDemand D)
    {D' : Directed} (hpubs : D'.plane.router.publishers = D.plane.router.publishers)
    (hsubs : D'.plane.router.subscriptions = D.plane.router.subscriptions)
    (hviewed : D'.viewed = viewedAfter D'.plane.router D.viewed)
    (hentries : ∀ s st, D.plane.governor.streams.get s = some st →
      ∃ st', D'.plane.governor.streams.get s = some st' ∧ st'.paused = st.paused)
    (hlast : ∀ q s, D'.last q s = D.last q s) : FollowsDemand D' := by
  have hviews : ∀ p s, Views D'.plane.router p s ↔ Views D.plane.router p s := by
    intro p s
    rw [Views, Views, hsubs]
  intro s pub hpub hviewed'
  rw [hpubs] at hpub
  rw [hviewed] at hviewed'
  obtain ⟨st, d, hst, hd, hpaused, hzero⟩ := hf s pub hpub
    (viewed_back h ((InsertionMap.has_iff _ _).mpr ⟨pub, hpub⟩)
      (fun p hv => (hviews p s).mp hv) hviewed')
  obtain ⟨st', hst', hsame⟩ := hentries s st hst
  refine ⟨st', d, hst', (hlast _ _).trans hd, ?_, ?_⟩
  · rw [hsame, hpaused]
    simp only [hviews]
  · rw [hzero]
    simp only [hviews]

/-- A stream goes live: it has had no viewer, and nothing else changes. -/
theorem followsDemand_published {baseKbps : ℚ} (h : Sound baseKbps D) (hf : FollowsDemand D)
    {k : ℕ} {p : PeerId} {s : String} {kinds : Kinds} {last : Output}
    (hfree : D.plane.router.publishers.get s = none)
    (hpubs : R'.publishers =
      D.plane.router.publishers.set s ⟨k, s, p.text, kinds.video, kinds.audio⟩)
    (hsubs : R'.subscriptions = D.plane.router.subscriptions)
    (hlast : (∃ call sdp, last = .resolved call sdp) ∨ ∃ call text, last = .rejected call text) :
    let res := { D.plane with router := R' }.onOutputs
      [.streamLive ⟨s, p.text, kinds.video, kinds.audio⟩, last]
    FollowsDemand ⟨res.1, viewedAfter res.1.router D.viewed, res.2.foldl note D.last⟩ := by
  intro res t pub hpub hviewed
  have hrouter : res.1.router = R' := onOutputs_router _ _
  change res.1.router.publishers.get t = some pub at hpub
  change viewedAfter res.1.router D.viewed t at hviewed
  rw [hrouter] at hpub hviewed
  have hviews : ∀ q, Views R' q t ↔ Views D.plane.router q t := by
    intro q
    rw [Views, Views, hsubs]
  have hne : t ≠ s := by
    rintro rfl
    have hdead : D.plane.router.publishers.has t = false := (InsertionMap.has_eq_false _ _).mpr hfree
    rcases hviewed.2 with hold | ⟨q, hq⟩
    · rw [h.viewed_live t hold] at hdead
      cases hdead
    · rw [(h.keyed.noSep ((hviews q).mp hq)).1] at hdead
      cases hdead
  rw [hpubs, InsertionMap.get_set_ne _ _ hne] at hpub
  obtain ⟨st, d, hst, hd, hpaused, hzero⟩ := hf t pub hpub
    (viewed_back h ((InsertionMap.has_iff _ _).mpr ⟨pub, hpub⟩) (fun q hv => (hviews q).mp hv) hviewed)
  have hundirected : res.2.foldl note D.last pub.info.ownerPeerId t =
      D.last pub.info.ownerPeerId t := by
    refine untold_onOutputs _ (fun q m hmem => ?_) _ _ _
    rcases List.mem_cons.mp hmem with heq | hmem
    · cases heq
    · rcases hlast with ⟨_, _, rfl⟩ | ⟨_, _, rfl⟩ <;> cases List.mem_singleton.mp hmem
  refine ⟨st, d, ?_, hundirected.trans hd, ?_, ?_⟩
  · show res.1.governor.streams.get t = some st
    rw [onOutputs_get, published_get _ (plain_last hlast), if_neg hne]
    exact hst
  · show _ ↔ ∀ q, ¬ Views res.1.router q t
    rw [hrouter, hpaused]
    simp only [hviews]
  · show _ ↔ ∀ q, ¬ Views res.1.router q t
    rw [hrouter, hzero]
    simp only [hviews]

/-- A subscription begins: its stream has a viewer, is not paused, and its owner is told so. -/
theorem followsDemand_subscribed {baseKbps : ℚ} (hrungs : NoZeroRung baseKbps)
    (h : Sound baseKbps D) (hf : FollowsDemand D)
    {k : ℕ} {p : PeerId} {s : String} {pub : Publisher} {last : Output}
    (hpub : D.plane.router.publishers.get s = some pub)
    (hpubs : R'.publishers = D.plane.router.publishers)
    (hsubs : R'.subscriptions = D.plane.router.subscriptions.set (subKey p s) ⟨k⟩)
    (hlast : (∃ call sdp, last = .resolved call sdp) ∨ ∃ call text, last = .rejected call text) :
    let res := { D.plane with router := R' }.onOutputs
      [.demandChanged s pub.info.ownerPeerId (R'.subscriberCount s), last]
    FollowsDemand ⟨res.1, viewedAfter res.1.router D.viewed, res.2.foldl note D.last⟩ := by
  intro res t pub' hpub' hviewed
  have hrouter : res.1.router = R' := onOutputs_router _ _
  change res.1.router.publishers.get t = some pub' at hpub'
  change viewedAfter res.1.router D.viewed t at hviewed
  rw [hrouter] at hpub' hviewed
  rw [hpubs] at hpub'
  have hdirected : ∀ q u, res.2.foldl note D.last q u =
      (MediaPlane.onOutput { D.plane with router := R' }
        (.demandChanged s pub.info.ownerPeerId (R'.subscriberCount s))).2.foldl note D.last q u :=
    foldl_note_plain (plain_last hlast) _ _ D.last
  by_cases hts : t = s
  · subst hts
    obtain rfl : pub' = pub := Option.some.inj (hpub'.symm.trans hpub)
    obtain ⟨st, hst, howner⟩ := h.synced.tracked t pub' hpub
    have hviews : Views R' p t := by
      rw [Views, hsubs, InsertionMap.has_set]
      exact .inr rfl
    have hcount : R'.subscriberCount t ≠ 0 := by
      intro hzero
      unfold Router.subscriberCount at hzero
      rw [List.length_eq_zero_iff, List.filter_eq_nil_iff] at hzero
      refine hzero (subKey p t) ?_ (endsWith_subKey p t)
      rw [InsertionMap.mem_keys, ← InsertionMap.has_iff]
      exact hviews
    have hnever : ¬ ∀ q, ¬ Views R' q t := fun hnone => hnone p hviews
    have hrate : Governor.round (D.plane.governor.baseKbps *
        (Governor.levelAt st.level).kbpsFactor) ≠ 0 := by
      rw [h.base]
      exact hrungs _ (h.onLadder t st hst)
    obtain ⟨d, hd, hzero⟩ := note_demand (M := { D.plane with router := R' }) hst hrate D.last
      pub'.info.ownerPeerId (R'.subscriberCount t)
    refine ⟨{ st with paused := decide (R'.subscriberCount t = 0) }, d, ?_,
      (hdirected _ _).trans hd, ?_, ?_⟩
    · show res.1.governor.streams.get t = _
      rw [onOutputs_get, subscribed_get _ (plain_last hlast), if_pos rfl]
      show (D.plane.governor.streams.get t).map _ = _
      rw [hst]
      rfl
    · show decide (R'.subscriberCount t = 0) = true ↔ ∀ q, ¬ Views res.1.router q t
      rw [hrouter, decide_eq_true_iff]
      exact ⟨fun hz => absurd hz hcount, fun hnone => absurd hnone hnever⟩
    · show _ ↔ ∀ q, ¬ Views res.1.router q t
      rw [hrouter, hzero]
      exact ⟨fun hz => absurd hz hcount, fun hnone => absurd hnone hnever⟩
  · have hviews : ∀ q, Views R' q t ↔ Views D.plane.router q t := by
      intro q
      rw [Views, Views, hsubs, InsertionMap.has_set, subKey_inj]
      exact ⟨fun hv => hv.resolve_right fun heq => hts heq.2, .inl⟩
    obtain ⟨st, d, hst, hd, hpaused, hzero⟩ := hf t pub' hpub'
      (viewed_back h ((InsertionMap.has_iff _ _).mpr ⟨pub', hpub'⟩) (fun q hv => (hviews q).mp hv)
        hviewed)
    refine ⟨st, d, ?_, ?_, ?_, ?_⟩
    · show res.1.governor.streams.get t = _
      rw [onOutputs_get, subscribed_get _ (plain_last hlast), if_neg hts]
      exact hst
    · refine (hdirected _ _).trans ((note_other ?_ _ _ _).trans hd)
      rintro q n heq
      cases heq
      exact hts rfl
    · show _ ↔ ∀ q, ¬ Views res.1.router q t
      rw [hrouter, hpaused]
      simp only [hviews]
    · show _ ↔ ∀ q, ¬ Views res.1.router q t
      rw [hrouter, hzero]
      simp only [hviews]

/-- An evaluation directs no stream that is paused, and never a rate of zero. -/
theorem followsDemand_ticked {baseKbps : ℚ} (hrungs : NoZeroRung baseKbps)
    (h : Sound baseKbps D) (hf : FollowsDemand D) :
    FollowsDemand (directed.next D .runGovernor) := by
  obtain ⟨-, hevolve, hdirs⟩ := D.plane.governor.evaluate_spec
  intro s pub hpub hviewed
  change D.plane.router.publishers.get s = some pub at hpub
  obtain ⟨st, d, hst, hd, hpaused, hzero⟩ := hf s pub hpub
    (viewed_back h ((InsertionMap.has_iff _ _).mpr ⟨pub, hpub⟩) (fun _ hv => hv) hviewed)
  have hentry : ∃ st', D.plane.governor.evaluate.1.streams.get s = some st' ∧
      st'.paused = st.paused := by
    rcases hevolve s with ⟨hnone, -⟩ | ⟨u, st', hu, hst', hev⟩
    · rw [hst] at hnone
      cases hnone
    · obtain rfl : u = st := Option.some.inj (hu.symm.trans hst)
      exact ⟨st', hst', hev.paused⟩
  obtain ⟨st', hst', hsame⟩ := hentry
  have hstill : (st'.paused = true ↔ ∀ p, ¬ Views D.plane.router p s) := by
    rw [hsame]
    exact hpaused
  rcases foldl_note D.plane.runGovernor.2 D.last pub.info.ownerPeerId s with
    ⟨heq, -⟩ | ⟨d', hd', hs, heq⟩
  · exact ⟨st', d, hst', heq.trans hd, hstill, hzero⟩
  · refine ⟨st', d', hst', heq, hstill, ?_⟩
    obtain ⟨dir, hdir, hsend⟩ := List.mem_map.mp hd'
    obtain rfl := Body.qualityDirective.inj (MediaOutput.sendTo.inj hsend).2
    obtain ⟨⟨u, hu, hplaying, -⟩, hrate⟩ := hdirs dir hdir
    change dir.streamId = s at hs
    rw [hs] at hu
    obtain rfl : u = st := Option.some.inj (hu.symm.trans hst)
    obtain ⟨level, hlevel, hkbps⟩ := hrate h.onLadder
    constructor
    · intro hz
      change dir.maxKbps = 0 at hz
      rw [hkbps, h.base] at hz
      exact absurd hz (hrungs level hlevel)
    · intro hnone
      rw [hpaused.mpr hnone] at hplaying
      cases hplaying

section Withdrawn

variable {baseKbps : ℚ} {e : MediaEvent} {e' : Event} {os : List Output} {G : Governor}

/-- A withdrawal that runs into neither of the two cases. -/
theorem followsDemand_withdrawn (hrungs : NoZeroRung baseKbps) (h : Sound baseKbps D)
    (hf : FollowsDemand D) (hevent : routerEvent e = some e')
    (hw : Withdrawn D.plane.router (unpublished D.plane.router e') (Leaves D.plane.router e') R' os)
    (hgov : (∃ p, e' = .removePeer p ∧ G = D.plane.governor.dropSubscriber p.text) ∨
      ((∀ p, e' ≠ .removePeer p) ∧ G = D.plane.governor))
    (hkeyed : Keyed R') (hclash : NoClash D.plane e) :
    let res := { router := R', governor := G : MediaPlane }.onOutputs os
    FollowsDemand ⟨res.1, viewedAfter res.1.router D.viewed, res.2.foldl note D.last⟩ := by
  intro res s pub hpub hviewed
  have hrouter : res.1.router = R' := onOutputs_router _ _
  change res.1.router.publishers.get s = some pub at hpub
  change viewedAfter res.1.router D.viewed s at hviewed
  rw [hrouter] at hpub hviewed
  obtain ⟨hended, hun, hbefore⟩ := hw.not_ended hpub
  have hlive : D.plane.router.publishers.has s = true :=
    (InsertionMap.has_iff _ _).mpr ⟨pub, hbefore⟩
  have hviews := views_withdrawn h.keyed hw hun
  obtain ⟨st, d, hst, hd, hpaused, hzero⟩ := hf s pub hbefore
    (viewed_back h hlive (fun p hv => ((hviews p).mp hv).1) hviewed)
  obtain ⟨st', hst', hcase⟩ := paused_withdrawn hw hgov hpub hst
  -- nobody watches a stream that is mistaken for one that ends
  have hunclashed : ∀ p, Views D.plane.router p s → ¬ Clashes D.plane.router e' s := by
    rintro p hv ⟨t, hunt, hlivet, rfl⟩
    exact hclash.ends e' t hevent hunt hlivet hlive hun p hv
  show ∃ st d, res.1.governor.streams.get s = some st ∧
    res.2.foldl note D.last pub.info.ownerPeerId s = some d ∧
    (st.paused = true ↔ ∀ p, ¬ Views res.1.router p s) ∧
    (d.maxKbps = 0 ↔ ∀ p, ¬ Views res.1.router p s)
  rw [hrouter]
  rcases hcase with ⟨huntold, hsame⟩ | ⟨htold, hnow⟩
  · -- no viewer has left, so the viewers are those of before
    have hkept : ∀ p, Views R' p s ↔ Views D.plane.router p s := by
      intro p
      rw [hviews]
      refine ⟨And.left, fun hv => ⟨hv, fun hleaves => ?_, hunclashed p hv⟩⟩
      exact huntold _ _ ((told_withdrawn h.keyed hw hun hpub).mpr ⟨p, hv, hleaves, hunclashed p hv⟩)
    refine ⟨st', d, hst', (untold_onOutputs os huntold _ _ _).trans hd, ?_, ?_⟩
    · rw [hsame, hpaused]
      simp only [hkept]
    · rw [hzero]
      simp only [hkept]
  · -- a viewer has left, and the router counts
    obtain ⟨q, hq, hleaves, hno⟩ := (told_withdrawn h.keyed hw hun hpub).mp htold
    have hcount : R'.subscriberCount s = 0 ↔ ∀ p, ¬ Views R' p s := by
      rw [subscriberCount_eq_zero hkeyed]
      refine ⟨And.left, fun hnone => ⟨hnone, fun p hp => ?_⟩⟩
      have hall : ∀ p, Views D.plane.router p s → Leaves D.plane.router e' p s := by
        intro p hv
        by_contra hstays
        exact hnone p ((hviews p).mpr ⟨hv, hstays, hno⟩)
      have hun' : ¬ unpublished D.plane.router e' (":" ++ s) := by
        intro hun'
        have hgone := hw.removes.publishers_removed _ hun'
        have hhas := (hkeyed.noSep hp).1
        rw [InsertionMap.has, hgone] at hhas
        cases hhas
      have hpbefore := (views_withdrawn h.keyed hw hun' p).mp hp
      rcases hclash.leaves e' s hevent hlive hun ⟨q, hq⟩ hall p hpbefore.1 with hl | hu
      · exact hpbefore.2.1 hl
      · exact hun' hu
    obtain ⟨f, hf', hkeep⟩ := get_before hgov s
    have hentry : G.streams.get s = some (f st) := by
      rw [hf', hst]
      rfl
    have hbase : G.baseKbps = baseKbps := by
      rw [← h.base]
      rcases hgov with ⟨p, -, rfl⟩ | ⟨-, rfl⟩
      · exact D.plane.governor.baseKbps_dropSubscriber p.text
      · rfl
    have hrate : Governor.round (G.baseKbps * (Governor.levelAt (f st).level).kbpsFactor) ≠ 0 := by
      rw [hbase, (hkeep st).2.2.1]
      exact hrungs _ (h.onLadder s st hst)
    obtain ⟨d', hd', hzero'⟩ := told_onOutputs os hw.only hended
      (fun owner m hmem => by
        obtain ⟨pub', hpub', rfl, rfl⟩ := hw.demand s owner m hmem
        obtain rfl : pub' = pub := Option.some.inj (hpub'.symm.trans hpub)
        exact ⟨rfl, rfl⟩)
      { router := R', governor := G } D.last (f st) hentry hrate (.inl htold)
    exact ⟨st', d', hst', hd', hnow.trans hcount, hzero'.trans hcount⟩

/-- A withdrawal after which the property holds has run into neither of the two cases. -/
theorem noClash_of_withdrawn (h : Sound baseKbps D) (hf : FollowsDemand D)
    (hevent : routerEvent e = some e')
    (hw : Withdrawn D.plane.router (unpublished D.plane.router e') (Leaves D.plane.router e') R' os)
    (hgov : (∃ p, e' = .removePeer p ∧ G = D.plane.governor.dropSubscriber p.text) ∨
      ((∀ p, e' ≠ .removePeer p) ∧ G = D.plane.governor))
    (hkeyed : Keyed R') {last : String → String → Option QualityDirective}
    (hf' : FollowsDemand
      ⟨({ router := R', governor := G : MediaPlane }.onOutputs os).1,
        viewedAfter ({ router := R', governor := G : MediaPlane }.onOutputs os).1.router D.viewed,
        last⟩) :
    NoClash D.plane e := by
  -- the entry after the event of a stream that stays and had a viewer
  have hentry : ∀ s pub, D.plane.router.publishers.get s = some pub →
      ¬ unpublished D.plane.router e' s → (∃ p, Views D.plane.router p s) →
      ∃ st' : Governor.StreamState, (st'.paused = true ↔ ∀ p, ¬ Views R' p s) ∧
        ((∀ owner n, Output.demandChanged s owner n ∉ os) ∧ st'.paused = false ∨
          Output.demandChanged s pub.info.ownerPeerId (R'.subscriberCount s) ∈ os ∧
            (st'.paused = true ↔ R'.subscriberCount s = 0)) := by
    rintro s pub hpub hun ⟨p, hp⟩
    have hlive : D.plane.router.publishers.has s = true :=
      (InsertionMap.has_iff _ _).mpr ⟨pub, hpub⟩
    have hviewed := h.viewed_of_views s p hlive hp
    have hafter : R'.publishers.get s = some pub := (hw.removes.publishers_kept s hun).trans hpub
    obtain ⟨st, d, hst, -, hpaused, -⟩ := hf s pub hpub hviewed
    have hplaying : st.paused = false := by
      rw [← Bool.not_eq_true]
      exact fun hp' => hpaused.mp hp' p hp
    obtain ⟨st', hst', hcase⟩ := paused_withdrawn hw hgov hafter hst
    have hrouter : ({ router := R', governor := G : MediaPlane }.onOutputs os).1.router = R' :=
      onOutputs_router _ _
    obtain ⟨st'', d', hst'', -, hpaused', -⟩ := hf' s pub
      (by
        show (MediaPlane.onOutputs os _).1.router.publishers.get s = some pub
        rw [hrouter]
        exact hafter)
      (by
        show viewedAfter (MediaPlane.onOutputs os _).1.router D.viewed s
        rw [hrouter]
        exact ⟨(InsertionMap.has_iff _ _).mpr ⟨pub, hafter⟩, .inl hviewed⟩)
    obtain rfl : st'' = st' := Option.some.inj (hst''.symm.trans hst')
    change (st''.paused = true ↔ ∀ p, ¬ Views (MediaPlane.onOutputs os _).1.router p s) at hpaused'
    rw [hrouter] at hpaused'
    rw [hplaying] at hcase
    exact ⟨st'', hpaused', hcase⟩
  have hends : ∀ t, unpublished D.plane.router e' t → D.plane.router.publishers.has t = true →
      D.plane.router.publishers.has (":" ++ t) = true →
      ¬ unpublished D.plane.router e' (":" ++ t) → ∀ p, ¬ Views D.plane.router p (":" ++ t) := by
    intro t hunt hlivet hlive hun p hp
    obtain ⟨pub, hpub⟩ := (InsertionMap.has_iff _ _).mp hlive
    have hclashes : Clashes D.plane.router e' (":" ++ t) := ⟨t, hunt, hlivet, rfl⟩
    have hafter := (hw.removes.publishers_kept _ hun).trans hpub
    obtain ⟨st', hpaused, hcase⟩ := hentry _ pub hpub hun ⟨p, hp⟩
    have hnone : ∀ q, ¬ Views R' q (":" ++ t) := fun q hq =>
      ((views_withdrawn h.keyed hw hun q).mp hq).2.2 hclashes
    rcases hcase with ⟨-, hplaying⟩ | ⟨htold, -⟩
    · rw [hpaused.mpr hnone] at hplaying
      cases hplaying
    · obtain ⟨_, -, -, hno⟩ := (told_withdrawn h.keyed hw hun hafter).mp htold
      exact hno hclashes
  refine ⟨fun e'' t he hunt => ?_, fun e'' s he hlive hun hsome hall q hq => ?_⟩
  · obtain rfl : e'' = e' := Option.some.inj (he.symm.trans hevent)
    exact hends t hunt
  · obtain rfl : e'' = e' := Option.some.inj (he.symm.trans hevent)
    obtain ⟨pub, hpub⟩ := (InsertionMap.has_iff _ _).mp hlive
    have hafter := (hw.removes.publishers_kept _ hun).trans hpub
    obtain ⟨p, hp⟩ := hsome
    obtain ⟨st', hpaused, hcase⟩ := hentry s pub hpub hun ⟨p, hp⟩
    have hnone : ∀ r, ¬ Views R' r s := fun r hr =>
      ((views_withdrawn h.keyed hw hun r).mp hr).2.1
        (hall r ((views_withdrawn h.keyed hw hun r).mp hr).1)
    have hno : ¬ Clashes D.plane.router e'' s := by
      rintro ⟨t, hunt, hlivet, rfl⟩
      exact hends t hunt hlivet hlive hun p hp
    have htold := (told_withdrawn h.keyed hw hun hafter).mpr ⟨p, hp, hall p hp, hno⟩
    rcases hcase with ⟨huntold, -⟩ | ⟨-, hcount⟩
    · exact absurd htold (huntold _ _)
    · -- the count is zero, so the viewers of the other stream are gone too
      have hgone := ((subscriberCount_eq_zero hkeyed s).mp (hcount.mp (hpaused.mpr hnone))).2 q
      by_contra hstays
      rw [not_or] at hstays
      refine hgone ((views_withdrawn h.keyed hw hstays.2 q).mpr ⟨hq, hstays.1, ?_⟩)
      rintro ⟨t, hunt, -, heq⟩
      have hts : s = t := by
        have hlist := congrArg String.toList heq
        simp only [String.toList_append, List.append_cancel_left_eq] at hlist
        exact String.toList_injective hlist
      rw [hts] at hun
      exact hun hunt

end Withdrawn

/-- **One step, exactly.**  An event keeps the property if and only if it runs into neither of the two
cases in which a stream is mistaken for another. -/
theorem followsDemand_next_iff {baseKbps : ℚ} (hrungs : NoZeroRung baseKbps) (h : Sound baseKbps D)
    (hf : FollowsDemand D) {e : MediaEvent} (horder : InOrder D e) :
    FollowsDemand (directed.next D e) ↔ NoClash D.plane e := by
  have hkeyed : Keyed (mediaReact D.plane e).1.router :=
    keyed_next h.inStep h.keyed horder.1 horder.2.2
  have hout := media_outcome h.inStep horder.1
  -- an event that takes nothing away meets the condition
  have hcalm : Still D.plane e → NoClash D.plane e := by
    intro hstill
    refine ⟨fun e' s he hun => absurd hun (hstill.unpublished e' he s),
      fun e' s he _ _ hsome hall => ?_⟩
    obtain ⟨p, hp⟩ := hsome
    exact absurd (hall p hp) (hstill.leaves e' he p s)
  have hrest : ∀ {e}, routerEvent e = none → NoClash D.plane e := by
    intro e hnone
    constructor <;> (intro e' s he; rw [hnone] at he; cases he)
  show FollowsDemand ⟨(mediaReact D.plane e).1, viewedAfter (mediaReact D.plane e).1.router D.viewed,
    (mediaReact D.plane e).2.foldl note D.last⟩ ↔ _
  generalize mediaReact D.plane e = res at hout hkeyed
  cases hout with
  | quiet hstill hpubs hsubs hclosed hgov hout =>
    refine iff_of_true (followsDemand_of_same h hf hpubs hsubs rfl (fun s st hst => ⟨st, ?_, rfl⟩)
      fun q s => foldl_note_undirected hout _ q s) (hcalm hstill)
    rw [hgov]
    exact hst
  | published hstill hopen hcall hfree hpubs hsubs hclosed hlast =>
    exact iff_of_true (followsDemand_published h hf hfree hpubs hsubs hlast) (hcalm hstill)
  | subscribed hstill hpub hfree hpubs hsubs hclosed hlast =>
    exact iff_of_true (followsDemand_subscribed hrungs h hf hpub hpubs hsubs hlast) (hcalm hstill)
  | withdrawn hevent hw hclosed hreport hgov =>
    rw [onOutputs_router] at hkeyed
    exact ⟨noClash_of_withdrawn h hf hevent hw hgov hkeyed,
      followsDemand_withdrawn hrungs h hf hevent hw hgov hkeyed⟩
  | reported =>
    rename_i p subs pubs
    refine iff_of_true (followsDemand_of_same h hf rfl rfl rfl (fun s st hst => ?_)
      fun q s => rfl) (hrest rfl)
    obtain ⟨st', hst', hin⟩ := ingest_get D.plane p subs pubs hst
    exact ⟨st', hst', hin.paused⟩
  | ticked => exact iff_of_true (followsDemand_ticked hrungs h hf) (hrest rfl)
  | closed hpubs hsubs hclosed hends =>
    refine iff_of_true (fun s pub hpub => ?_) (hcalm ⟨?_, ?_, fun p subs pubs heq => by cases heq⟩)
    · rw [onOutputs_router] at hpub
      cases (hpubs s).symm.trans hpub
    · intro e' he s hun
      cases he
      exact hun
    · intro e' he p s hl
      cases he
      rcases hl with hl | hl
      · exact hl
      · cases hl

/-! ### Runs -/

/-- **Forwarding follows demand, exactly.**  In a run of operations one after another, with ids free
of separators and a rate that no rung rounds to zero, the pause and the last directive of every live
stream that has had a viewer say in every state reached whether it has one, if and only if no step
runs into one of the two cases in which a stream is mistaken for another. -/
theorem followsDemand_iff_noClash {videoBitrateKbps : ℚ} (hrungs : NoZeroRung videoBitrateKbps)
    {es : List MediaEvent} (hes : directed.Along InOrder (.new videoBitrateKbps) es) :
    directed.Along (fun D e => FollowsDemand (directed.next D e)) (.new videoBitrateKbps) es ↔
      directed.Along (fun D e => NoClash D.plane e) (.new videoBitrateKbps) es := by
  refine Machine.along_next_iff (I := Sound videoBitrateKbps)
    (fun D e h horder => sound_next h horder)
    (fun D e h hf horder => followsDemand_next_iff hrungs h hf horder) hes
    (sound_new videoBitrateKbps) fun s pub hpub => ?_
  cases hpub

/-- The streams `x` and `:x` are live, a peer watches the second, and the first is unpublished. -/
def clashRun : List MediaEvent :=
  [.message alice (.publishOffer "x" true false "offer"), .settle 0 (.succeeded (some "sdp")),
    .message alice (.publishOffer ":x" true false "offer"), .track 1 .video,
    .settle 1 (.succeeded (some "sdp")),
    .message bob (.subscribe ":x"), .settle 2 (.succeeded (some "sdp")),
    .message alice (.unpublish "x")]

theorem noZeroRung_default : NoZeroRung 2500 := by
  intro level hlevel
  change level < 5 at hlevel
  interval_cases level <;> decide +kernel

theorem clash_run_plays_to_nobody :
    directed.Along InOrder (.new 2500) clashRun ∧ NoZeroRung 2500 ∧
      ¬ FollowsDemand (directed.exec (.new 2500) clashRun) := by
  refine ⟨by decide +kernel, noZeroRung_default, fun h => ?_⟩
  have hviewed : (directed.exec (.new 2500) clashRun).viewed ":x" :=
    ⟨rfl, .inl ⟨rfl, .inr ⟨bob, rfl⟩⟩⟩
  obtain ⟨st, d, hst, -, hpaused, -⟩ := h ":x" ⟨1, ⟨":x", "p_0000000a", true, false⟩⟩ rfl hviewed
  have hnone : ∀ key, (directed.exec (.new 2500) clashRun).plane.router.subscriptions.has key = false :=
    fun key => rfl
  have hnow : st.paused = true := by
    refine hpaused.mpr fun p hviews => ?_
    rw [Views, hnone] at hviews
    cases hviews
  have hplaying : ((directed.exec (.new 2500) clashRun).plane.governor.streams.get ":x").map
      (fun st => st.paused) = some false := by decide +kernel
  rw [hst, Option.map_some, hnow] at hplaying
  cases hplaying

/-- A stream gains a viewer, loses it, and gains it again, with evaluations in between. -/
def comeAndGoRun : List MediaEvent :=
  [.message alice (.publishOffer "x" true false "offer"), .track 0 .video,
    .settle 0 (.succeeded (some "sdp")),
    .message bob (.subscribe "x"), .runGovernor, .settle 1 (.succeeded (some "sdp")),
    .message bob (.unsubscribe "x"), .runGovernor,
    .message bob (.subscribe "x"), .settle 2 (.succeeded (some "sdp")), .peerGone bob]

theorem followsDemand_iff_noClash_comeAndGoRun :
    directed.Along (fun D e => FollowsDemand (directed.next D e)) (.new 2500) comeAndGoRun ↔
      directed.Along (fun D e => NoClash D.plane e) (.new 2500) comeAndGoRun :=
  followsDemand_iff_noClash noZeroRung_default (by decide +kernel)

end ScreenSharing.Sfu
