import ScreenSharing.Mirror.Client
import ScreenSharing.Sfu.Operations
import ScreenSharing.Sfu.Removal

/-!
# What the media plane tells of its streams

`Lists` says that a list of streams is, in some order, what the router has.  What the media plane
broadcasts in a step does to such a list what the step did to the router, unless it was the `close` of the
router, which is silent about a stream whose connection has closed before (`lists_mediaReact`).
-/

namespace ScreenSharing.Mirror

open Lib

variable {R R' : Sfu.Router} {M : Sfu.MediaPlane} {streams : List StreamInfo}

/-- The streams of the router, in some order. -/
structure Lists (streams : List StreamInfo) (R : Sfu.Router) : Prop where
  mem : ∀ info, info ∈ streams ↔ info ∈ R.listStreams
  nodup : (streams.map StreamInfo.streamId).Nodup

/-- The stream of an entry is the one that it is stored under. -/
def Named (R : Sfu.Router) : Prop :=
  ∀ s pub, R.publishers.get s = some pub → pub.info.streamId = s

theorem named_of_wf (h : Sfu.Wf R) : Named R := fun s pub hget => (h.publisher s pub hget).2

/-- What the router lists, it lists itself. -/
theorem lists_self (h : Named R) : Lists R.listStreams R := by
  have hkeyed : R.publishers.Keyed fun pub => pub.info.streamId := h
  refine ⟨fun _ => Iff.rfl, ?_⟩
  unfold Sfu.Router.listStreams
  rw [List.map_map]
  exact hkeyed.nodup_values

theorem mem_listStreams (h : Named R) {info : StreamInfo} : info ∈ R.listStreams ↔
    ∃ pub, R.publishers.get info.streamId = some pub ∧ pub.info = info := by
  rw [Sfu.mem_listStreams]
  constructor
  · rintro ⟨s, pub, hget, rfl⟩
    exact ⟨pub, by rw [h s pub hget]; exact hget, rfl⟩
  · rintro ⟨pub, hget, heq⟩
    exact ⟨_, pub, hget, heq⟩

/-! ### What the router emits -/

/-- The streams after an event that the router emits. -/
def streamsAfterOutput (streams : List StreamInfo) : Sfu.Output → List StreamInfo
  | .streamLive info => updateStreams info .live streams
  | .streamEnded s => updateStreams ⟨s, "", false, false⟩ .ended streams
  | _ => streams

/-- A stream goes live, possibly in the place of one with its id. -/
theorem lists_live (h : Lists streams R) (hnamed : Named R) {k : ℕ} {info : StreamInfo}
    (hpubs : R'.publishers = R.publishers.set info.streamId ⟨k, info⟩) :
    Lists (updateStreams info .live streams) R' := by
  have hnamed' : Named R' := by
    intro s pub hget
    rw [hpubs, InsertionMap.get_set] at hget
    split at hget
    · next heq =>
      cases hget
      exact heq.symm
    · exact hnamed s pub hget
  constructor
  · intro other
    rw [mem_listStreams hnamed', hpubs, InsertionMap.get_set]
    simp only [updateStreams, List.mem_append, List.mem_filter, List.mem_singleton, decide_eq_true_eq,
      h.mem, mem_listStreams hnamed]
    by_cases hs : other.streamId = info.streamId
    · rw [if_pos hs]
      constructor
      · rintro (⟨-, hne⟩ | rfl)
        · exact absurd hs hne
        · exact ⟨_, rfl, rfl⟩
      · rintro ⟨pub, hpub, rfl⟩
        cases hpub
        exact .inr rfl
    · rw [if_neg hs]
      constructor
      · rintro (⟨hget, -⟩ | rfl)
        · exact hget
        · exact absurd rfl hs
      · exact fun hget => .inl ⟨hget, hs⟩
  · simp only [updateStreams, List.map_append, List.map_cons, List.map_nil]
    refine List.nodup_append.mpr ⟨h.nodup.sublist (List.filter_sublist.map _), List.nodup_singleton _, ?_⟩
    intro s hs t ht heq
    obtain ⟨other, hother, rfl⟩ := List.mem_map.mp hs
    rw [List.mem_singleton.mp ht] at heq
    have hne := (List.mem_filter.mp hother).2
    simp [heq] at hne

/-- A withdrawal only ends streams. -/
theorem foldl_withdrawn {os : List Sfu.Output}
    (honly : ∀ o ∈ os, (∃ s, o = .streamEnded s) ∨ ∃ s owner n, o = .demandChanged s owner n) :
    ∀ streams : List StreamInfo, os.foldl streamsAfterOutput streams =
      streams.filter fun info => Sfu.Output.streamEnded info.streamId ∉ os := by
  induction os with
  | nil => simp
  | cons o os ih =>
    intro streams
    rw [List.foldl_cons, ih fun o' ho' => honly o' (List.mem_cons_of_mem _ ho')]
    obtain ⟨s, rfl⟩ | ⟨s, owner, n, rfl⟩ := honly o List.mem_cons_self
    · simp only [streamsAfterOutput, updateStreams, List.filter_filter]
      refine List.filter_congr fun info _ => ?_
      simp [Bool.and_comm]
    · refine List.filter_congr fun info _ => ?_
      simp

theorem lists_withdrawn (hnamed : Named R) {P : String → Prop} {Q : PeerId → String → Prop}
    {os : List Sfu.Output} (hw : Sfu.Withdrawn R P Q R' os) (h : Lists streams R) :
    Lists (os.foldl streamsAfterOutput streams) R' := by
  rw [foldl_withdrawn hw.only]
  have hnamed' : Named R' := by
    intro s pub hget
    by_cases hs : P s
    · rw [hw.removes.publishers_removed s hs] at hget
      cases hget
    · rw [hw.removes.publishers_kept s hs] at hget
      exact hnamed s pub hget
  refine ⟨fun info => ?_, h.nodup.sublist (List.filter_sublist.map _)⟩
  rw [List.mem_filter, h.mem, mem_listStreams hnamed, mem_listStreams hnamed', decide_eq_true_eq,
    hw.ended]
  by_cases hs : P info.streamId
  · rw [hw.removes.publishers_removed _ hs]
    constructor
    · rintro ⟨⟨pub, hget, -⟩, hnot⟩
      exact absurd ⟨hs, (InsertionMap.has_iff _ _).mpr ⟨pub, hget⟩⟩ hnot
    · rintro ⟨pub, hget, -⟩
      cases hget
  · rw [hw.removes.publishers_kept _ hs]
    exact and_iff_left fun hended => hs hended.1

/-- An event that tells of no stream leaves the publishers alone. -/
theorem lists_same (h : Lists streams R) (hpubs : R'.publishers = R.publishers) : Lists streams R' := by
  refine ⟨fun info => ?_, h.nodup⟩
  rw [h.mem, Sfu.Router.listStreams, Sfu.Router.listStreams, hpubs]

theorem streamsAfterOutput_mustSdp (call : Sfu.Call) (sdp : Option String) :
    streamsAfterOutput streams (Sfu.Router.mustSdp call sdp) = streams := by
  unfold Sfu.Router.mustSdp
  split
  · split <;> rfl
  · rfl

theorem lists_settle (h : Lists streams R) (hnamed : Named R) (k : ℕ) (outcome : Sfu.Negotiation) :
    Lists ((R.settle k outcome).2.foldl streamsAfterOutput streams) (R.settle k outcome).1 := by
  unfold Sfu.Router.settle
  cases R.negotiating.get k with
  | none => exact h
  | some call =>
    cases call with
    | publish p s kinds =>
      cases outcome with
      | failed message => exact lists_same h rfl
      | succeeded sdp =>
        have hlive : Lists (updateStreams ⟨s, p.text, kinds.video, kinds.audio⟩ .live streams)
            (Sfu.Router.settlePublish k p s kinds (.succeeded sdp)
              { R with negotiating := R.negotiating.delete k }).1 :=
          lists_live h hnamed rfl
        show Lists (streamsAfterOutput _ (Sfu.Router.mustSdp _ sdp)) _
        rw [streamsAfterOutput_mustSdp]
        exact hlive
    | subscribe p s owner =>
      cases outcome with
      | failed message => exact lists_same h rfl
      | succeeded sdp =>
        show Lists (streamsAfterOutput _ (Sfu.Router.mustSdp _ sdp)) _
        rw [streamsAfterOutput_mustSdp]
        exact lists_same h rfl
    | completeSubscribe p s =>
      cases outcome with
      | failed message => exact lists_same h rfl
      | succeeded sdp => exact lists_same h rfl

/-- **Every event but a close** tells what it does to the streams. -/
theorem lists_react (h : Lists streams R) (hnamed : Named R) {e : Sfu.Event} (hne : e ≠ .close) :
    Lists ((Sfu.react R e).2.foldl streamsAfterOutput streams) (Sfu.react R e).1 := by
  cases e with
  | publish p s kinds =>
    show Lists ((R.publish p s kinds).2.foldl streamsAfterOutput streams) (R.publish p s kinds).1
    unfold Sfu.Router.publish
    dsimp only
    split
    · exact h
    · split
      · exact h
      · exact lists_same h rfl
  | subscribe p s =>
    show Lists ((R.subscribe p s).2.foldl streamsAfterOutput streams) (R.subscribe p s).1
    unfold Sfu.Router.subscribe
    dsimp only
    split
    · exact h
    · split
      · exact h
      · split
        · exact h
        · split
          · exact h
          · exact lists_same h rfl
  | completeSubscribe p s =>
    show Lists ((R.completeSubscribe p s).2.foldl streamsAfterOutput streams)
      (R.completeSubscribe p s).1
    unfold Sfu.Router.completeSubscribe
    dsimp only
    split
    · exact h
    · exact lists_same h rfl
  | settle k outcome => exact lists_settle h hnamed k outcome
  | unpublish s => exact lists_withdrawn hnamed (Sfu.withdrawn_unpublish s R) h
  | unsubscribe p s => exact lists_withdrawn hnamed (Sfu.withdrawn_unsubscribe p s R) h
  | removePeer p => exact lists_withdrawn hnamed (Sfu.withdrawn_removePeer p R) h
  | track k kind => exact lists_same h rfl
  | stateChange k state =>
    have hreported : Lists streams (R.reported k state) := lists_same h (Sfu.reported_publishers ..)
    show Lists ((R.onStateChange k state).2.foldl streamsAfterOutput streams) (R.onStateChange k state).1
    unfold Sfu.Router.onStateChange
    dsimp only
    split
    · split
      · exact hreported
      · exact lists_withdrawn hnamed (Sfu.withdrawn_unpublish _ _).of_reported h
      · exact lists_withdrawn hnamed (Sfu.withdrawn_unsubscribe _ _ _).of_reported h
    · exact hreported
  | close => exact absurd rfl hne

/-! ### What the media plane sends -/

/-- The streams after an output of the media plane. -/
def streamsAfterMedia (streams : List StreamInfo) : Sfu.MediaOutput → List StreamInfo
  | .broadcast body => streamsAfter streams body
  | _ => streams

/-- A broadcast is about a stream, and nothing else that is sent changes a mirror. -/
def OfStreams : Sfu.MediaOutput → Prop
  | .broadcast body => ∃ info state, body = .streamState info state
  | .sendTo _ body | .reply _ body => Aside body
  | .answered _ => True

theorem ofStreams_onOutput (o : Sfu.Output) : ∀ o' ∈ (M.onOutput o).2, OfStreams o' := by
  intro o' ho'
  cases o with
  | streamLive info =>
    rw [List.mem_singleton.mp ho']
    exact ⟨_, _, rfl⟩
  | streamEnded s =>
    rw [List.mem_singleton.mp ho']
    exact ⟨_, _, rfl⟩
  | demandChanged s owner n =>
    by_cases hn : n = 0
    · rw [Sfu.MediaPlane.onOutput, if_pos hn] at ho'
      rw [List.mem_singleton.mp ho']
      trivial
    · rw [Sfu.MediaPlane.onOutput, if_neg hn] at ho'
      dsimp only at ho'
      split at ho'
      · cases ho'
      · rw [List.mem_singleton.mp ho']
        trivial
  | answered pc =>
    rw [List.mem_singleton.mp ho']
    trivial
  | resolved call sdp =>
    cases call with
    | publish p s kinds =>
      rw [List.mem_singleton.mp ho']
      trivial
    | subscribe p s owner =>
      rw [List.mem_singleton.mp ho']
      trivial
    | completeSubscribe p s => cases ho'
  | rejected call message =>
    rw [List.mem_singleton.mp ho']
    trivial

/-- The listeners pass on what the router tells of its streams. -/
theorem streamsAfter_onOutput (o : Sfu.Output) (streams : List StreamInfo) :
    (M.onOutput o).2.foldl streamsAfterMedia streams = streamsAfterOutput streams o := by
  cases o with
  | demandChanged s owner n =>
    by_cases hn : n = 0
    · rw [Sfu.MediaPlane.onOutput, if_pos hn]
      rfl
    · rw [Sfu.MediaPlane.onOutput, if_neg hn]
      dsimp only
      split <;> rfl
  | resolved call sdp => cases call <;> rfl
  | _ => rfl

theorem onOutputs_tells (os : List Sfu.Output) : ∀ (M : Sfu.MediaPlane) (streams : List StreamInfo),
    (∀ o ∈ (M.onOutputs os).2, OfStreams o) ∧
      (M.onOutputs os).2.foldl streamsAfterMedia streams = os.foldl streamsAfterOutput streams := by
  induction os with
  | nil => exact fun _ _ => ⟨fun _ ho => (by cases ho), rfl⟩
  | cons o os ih =>
    intro M streams
    obtain ⟨hrest, hfold⟩ := ih (M.onOutput o).1 (streamsAfterOutput streams o)
    refine ⟨fun o' ho' => (List.mem_append.mp ho').elim (ofStreams_onOutput o o') (hrest o'), ?_⟩
    unfold Sfu.MediaPlane.onOutputs
    dsimp only
    rw [List.foldl_append, streamsAfter_onOutput, hfold]
    rfl

/-- A step of the router is told of in bodies about streams, and in no others. -/
theorem ofStreams_route (M : Sfu.MediaPlane) (e : Sfu.Event) : ∀ o ∈ (M.route e).2, OfStreams o :=
  (onOutputs_tells (Sfu.react M.router e).2 { M with router := (Sfu.react M.router e).1 } []).1

theorem lists_route (h : Lists streams M.router) (hnamed : Named M.router) {e : Sfu.Event}
    (hne : e ≠ .close) : (∀ o ∈ (M.route e).2, OfStreams o) ∧
      Lists ((M.route e).2.foldl streamsAfterMedia streams) (M.route e).1.router := by
  have htold : (M.route e).2.foldl streamsAfterMedia streams =
      (Sfu.react M.router e).2.foldl streamsAfterOutput streams :=
    (onOutputs_tells (Sfu.react M.router e).2 { M with router := (Sfu.react M.router e).1 } streams).2
  refine ⟨ofStreams_route M e, ?_⟩
  rw [Sfu.route_router, htold]
  exact lists_react h hnamed hne

/-- **One event of the media plane**, except its close: what it sends is of its streams, and tells what
became of them. -/
theorem lists_mediaReact (h : Lists streams M.router) (hnamed : Named M.router) {e : Sfu.MediaEvent}
    (hne : e ≠ .close) : (∀ o ∈ (Sfu.mediaReact M e).2, OfStreams o) ∧
      Lists ((Sfu.mediaReact M e).2.foldl streamsAfterMedia streams) (Sfu.mediaReact M e).1.router := by
  have hnothing : ∀ o ∈ ([] : List Sfu.MediaOutput), OfStreams o := fun _ ho => by cases ho
  cases e with
  | message p body =>
    cases body with
    | publishOffer s video audio sdp =>
      exact lists_route (e := .publish p s ⟨video, audio⟩) h hnamed (by simp)
    | unpublish s => exact lists_route (e := .unpublish s) h hnamed (by simp)
    | subscribe s => exact lists_route (e := .subscribe p s) h hnamed (by simp)
    | subscribeAnswer s sdp => exact lists_route (e := .completeSubscribe p s) h hnamed (by simp)
    | unsubscribe s => exact lists_route (e := .unsubscribe p s) h hnamed (by simp)
    | statsReport subscriptions publications => exact ⟨hnothing, h⟩
    | _ => exact ⟨hnothing, h⟩
  | settle call outcome => exact lists_route (e := .settle call outcome) h hnamed (by simp)
  | peerGone p =>
    exact lists_route (M := { M with governor := M.governor.dropSubscriber p.text })
      (e := .removePeer p) h hnamed (by simp)
  | track pc kind => exact lists_route (e := .track pc kind) h hnamed (by simp)
  | stateChange pc state => exact lists_route (e := .stateChange pc state) h hnamed (by simp)
  | runGovernor =>
    have hdirectives : ∀ ds : List Sfu.GovernorDirective, (ds.map fun d =>
        Sfu.MediaOutput.sendTo d.ownerPeerId (.qualityDirective (Sfu.toWire d))).foldl
          streamsAfterMedia streams = streams := by
      intro ds
      induction ds with
      | nil => rfl
      | cons d ds ih => exact ih
    refine ⟨fun o ho => ?_, ?_⟩
    · obtain ⟨d, -, rfl⟩ := List.mem_map.mp ho
      trivial
    · show Lists ((M.governor.evaluate.2.map _).foldl streamsAfterMedia streams) M.router
      rw [hdirectives]
      exact h
  | close => exact absurd rfl hne

end ScreenSharing.Mirror
