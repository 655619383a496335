import ScreenSharing.Shared.Schema
import ScreenSharing.Sfu.Operations

/-!
# The media plane stays within the bounds of the schemas

The ids of the streams that the router and the governor know came in messages that have passed
`bodySchema`, and the levels of the governor are rungs of the ladder.  So whatever the media plane sends
passes, one message at a time, if the descriptions of the connections are not too long
(`tame_media`).  How many streams there are does not matter here.
-/

namespace ScreenSharing.Sfu

open Lib

variable {R R' : Router} {M : MediaPlane} {G : Governor} {s : String} {call : Call}

theorem filled_of_ne {n : ℕ} {text : String} (hne : text ≠ "") (hshort : Short n text) :
    Filled n text := by
  refine ⟨?_, hshort⟩
  unfold utf16Length
  cases hlist : text.toList with
  | nil => exact absurd (String.toList_injective hlist) hne
  | cons c cs =>
    rw [List.map_cons, List.sum_cons]
    split <;> omega

/-! ### What fits -/

/-- What a message of the media plane carries passes. -/
def MediaTame : MediaOutput → Prop
  | .broadcast body | .sendTo _ body | .reply _ body => BodySchema body
  | .answered _ => True

/-- An output of the router makes messages that pass. -/
def OutputFits : Output → Prop
  | .streamLive info => StreamInfoSchema info
  | .streamEnded s => Filled 64 s
  | .demandChanged s _ _ => Filled 64 s
  | .answered _ => True
  | .resolved call sdp => ∀ o ∈ replyTo sdp call, MediaTame o
  | .rejected call _ => Filled 64 call.streamId

/-- The ids in a call are ones that have passed, and a description is not too long. -/
def RouterEventFits : Event → Prop
  | .publish _ s _ | .subscribe _ s | .completeSubscribe _ s => Filled 64 s
  | .settle _ (.succeeded sdp) => ∀ text ∈ sdp, Short 60000 text
  | _ => True

/-- What comes to the media plane from outside. -/
def MediaEventFits : MediaEvent → Prop
  | .message _ body => BodySchema body
  | .settle _ (.succeeded sdp) => ∀ text ∈ sdp, Short 60000 text
  | _ => True

instance : DecidablePred MediaEventFits := fun e => by
  apply e.casesOn (motive := fun e => Decidable (MediaEventFits e)) <;> intros
  case settle call outcome =>
    apply outcome.casesOn (motive := fun outcome => Decidable (MediaEventFits (.settle call outcome))) <;>
      intros <;> unfold MediaEventFits <;> infer_instance
  all_goals unfold MediaEventFits; infer_instance

/-! ### The router -/

structure Stored (R : Router) : Prop where
  live : ∀ s pub, R.publishers.get s = some pub → Filled 64 s ∧ StreamInfoSchema pub.info
  calls : ∀ k call, R.negotiating.get k = some call → Filled 64 call.streamId

theorem stored_new : Stored .new := ⟨fun _ _ h => (by cases h), fun _ _ h => (by cases h)⟩

theorem Stored.removes {P Q : String → Prop} (h : Stored R) (hremoves : Unregisters P Q R R') :
    Stored R' := by
  refine ⟨fun s pub hpub => ?_, fun k call hcall => ?_⟩
  · by_cases hs : P s
    · rw [hremoves.publishers_removed s hs] at hpub
      cases hpub
    · rw [hremoves.publishers_kept s hs] at hpub
      exact h.live s pub hpub
  · rw [hremoves.negotiating] at hcall
    exact h.calls k call hcall

/-- The result of an operation of the router: what it stores and what it emits. -/
structure Keeps (res : Router × List Output) : Prop where
  stored : Stored res.1
  out : ∀ o ∈ res.2, OutputFits o

theorem keeps_still (h : Stored R) : Keeps (R, []) := ⟨h, fun _ ho => by cases ho⟩

theorem keeps_rejected (h : Stored R) (hcall : Filled 64 call.streamId) (message : String) :
    Keeps (R, [.rejected call message]) :=
  ⟨h, fun o ho => by rw [List.mem_singleton.mp ho]; exact hcall⟩

theorem Stored.begin (h : Stored R) (hcall : Filled 64 call.streamId) (pc : Pc) :
    Stored (R.begin call pc) := by
  exact ⟨h.live, InsertionMap.forall_get_set h.calls hcall⟩

theorem keeps_withdrawn {P : String → Prop} {Q : PeerId → String → Prop} {os : List Output}
    (h : Stored R) (hw : Withdrawn R P Q R' os) : Keeps (R', os) := by
  have hstored := h.removes hw.removes
  refine ⟨hstored, fun o ho => ?_⟩
  obtain ⟨s, rfl⟩ | ⟨s, owner, n, rfl⟩ := hw.only o ho
  · obtain ⟨pub, hpub⟩ := (InsertionMap.has_iff _ _).mp ((hw.ended s).mp ho).2
    exact (h.live s pub hpub).1
  · obtain ⟨pub, hpub, -⟩ := hw.demand s owner n ho
    exact (hstored.live s pub hpub).1

theorem keeps_publish (h : Stored R) (p : PeerId) (hs : Filled 64 s) (kinds : Kinds) :
    Keeps (R.publish p s kinds) := by
  have hcall : Filled 64 (Call.publish p s kinds).streamId := hs
  unfold Router.publish
  dsimp only
  split
  · exact keeps_rejected h hcall _
  · split
    · exact keeps_rejected h hcall _
    · exact keeps_still (h.begin hcall newPc)

theorem keeps_subscribe (h : Stored R) (p : PeerId) (hs : Filled 64 s) :
    Keeps (R.subscribe p s) := by
  have hcall : ∀ owner, Filled 64 (Call.subscribe p s owner).streamId := fun _ => hs
  unfold Router.subscribe
  dsimp only
  split
  · exact keeps_rejected h (hcall "") _
  · split
    · exact keeps_rejected h (hcall "") _
    · split
      · exact keeps_rejected h (hcall "") _
      · split
        · exact keeps_rejected h (hcall "") _
        · exact keeps_still (h.begin (hcall _) _)

theorem keeps_completeSubscribe (h : Stored R) (p : PeerId) (hs : Filled 64 s) :
    Keeps (R.completeSubscribe p s) := by
  have hcall : Filled 64 (Call.completeSubscribe p s).streamId := hs
  unfold Router.completeSubscribe
  dsimp only
  split
  · exact keeps_rejected h hcall _
  · refine ⟨h.begin hcall newPc, fun o ho => ?_⟩
    rw [List.mem_singleton.mp ho]
    trivial

/-- A call that ends with a description, or for the lack of one. -/
theorem fits_mustSdp (hcall : Filled 64 call.streamId) {sdp : Option String}
    (hsdp : ∀ text ∈ sdp, Short 60000 text) : OutputFits (Router.mustSdp call sdp) := by
  unfold Router.mustSdp
  split
  · next text =>
    split
    · exact hcall
    · next hne =>
      have hfilled := filled_of_ne hne (hsdp text rfl)
      intro o ho
      cases call with
      | publish p s kinds =>
        rw [List.mem_singleton.mp ho]
        exact ⟨hcall, hfilled⟩
      | subscribe p s owner =>
        rw [List.mem_singleton.mp ho]
        exact ⟨hcall, hfilled⟩
      | completeSubscribe p s => cases ho
  · exact hcall

/-- **The last segment of a call.** -/
theorem keeps_settle (h : Stored R) {k : ℕ} {outcome : Negotiation}
    (hfits : RouterEventFits (.settle k outcome)) : Keeps (R.settle k outcome) := by
  unfold Router.settle
  cases hget : R.negotiating.get k with
  | none => exact keeps_still h
  | some call =>
    have hcall := h.calls k call hget
    have hcalls : ∀ k' call', (R.negotiating.delete k).get k' = some call' →
        Filled 64 call'.streamId :=
      fun k' call' hget' => h.calls k' call' (InsertionMap.get_of_get_delete hget').1
    cases call with
    | publish p s kinds =>
      cases outcome with
      | failed message =>
        refine keeps_rejected ?_ hcall _
        exact ⟨h.live, hcalls⟩
      | succeeded sdp =>
        have hinfo : StreamInfoSchema ⟨s, p.text, kinds.video, kinds.audio⟩ :=
          ⟨hcall, p.short_text⟩
        refine ⟨⟨?_, hcalls⟩, fun o ho => ?_⟩
        · exact InsertionMap.forall_get_set h.live ⟨hcall, hinfo⟩
        · rcases List.mem_cons.mp ho with rfl | ho
          · exact hinfo
          · rw [List.mem_singleton.mp ho]
            exact fits_mustSdp hcall hfits
    | subscribe p s owner =>
      cases outcome with
      | failed message =>
        refine keeps_rejected ?_ hcall _
        exact ⟨h.live, hcalls⟩
      | succeeded sdp =>
        refine ⟨⟨h.live, hcalls⟩, fun o ho => ?_⟩
        rcases List.mem_cons.mp ho with rfl | ho
        · exact hcall
        · rw [List.mem_singleton.mp ho]
          exact fits_mustSdp hcall hfits
    | completeSubscribe p s =>
      cases outcome with
      | failed message =>
        refine keeps_rejected ?_ hcall _
        exact ⟨h.live, hcalls⟩
      | succeeded sdp =>
        refine ⟨⟨h.live, hcalls⟩, fun o ho => ?_⟩
        rw [List.mem_singleton.mp ho]
        exact fun o' ho' => by cases ho'

/-- **One event of the router.** -/
theorem keeps_react (h : Stored R) {e : Event} (hfits : RouterEventFits e) : Keeps (react R e) := by
  cases e with
  | publish p s kinds => exact keeps_publish h p hfits kinds
  | subscribe p s => exact keeps_subscribe h p hfits
  | completeSubscribe p s => exact keeps_completeSubscribe h p hfits
  | settle k outcome => exact keeps_settle h hfits
  | unpublish s => exact keeps_withdrawn h (withdrawn_unpublish s R)
  | unsubscribe p s => exact keeps_withdrawn h (withdrawn_unsubscribe p s R)
  | removePeer p => exact keeps_withdrawn h (withdrawn_removePeer p R)
  | track k kind => exact keeps_still ⟨h.live, h.calls⟩
  | stateChange k state =>
    have hreported : Stored (R.reported k state) :=
      h.removes (Removes.refl (R.reported k state)).of_reported
    show Keeps (R.onStateChange k state)
    unfold Router.onStateChange
    dsimp only
    split
    · split
      · exact keeps_still hreported
      · exact keeps_withdrawn hreported (withdrawn_unpublish _ _)
      · exact keeps_withdrawn hreported (withdrawn_unsubscribe _ _ _)
    · exact keeps_still hreported
  | close =>
    refine ⟨h.removes (removes_close R).toUnregisters, fun o ho => ?_⟩
    obtain ⟨s, pub, rfl, hpub⟩ := onlyEnds_close R o ho
    exact (h.live s pub hpub).1

/-! ### The governor -/

/-- The streams that the governor knows have ids that have passed, and levels on the ladder. -/
def Known (G : Governor) : Prop :=
  ∀ s st, G.streams.get s = some st → Filled 64 s ∧ st.level < qualityLadder.length

/-- The rate of the top rung, which `QualityDirectiveSchema` lets through. -/
structure Rated (G : Governor) : Prop where
  pos : 0 ≤ G.baseKbps
  max : G.baseKbps ≤ 20000

/-- What a rung asks for. -/
structure Rung (level : QualityLevel) : Prop where
  pos : 0 ≤ level.kbpsFactor
  max : level.kbpsFactor ≤ 1
  fps : level.maxFps ≤ 120
  scale : Spans 1 8 level.scaleDownBy

theorem rung_levelAt {level : ℕ} (h : level < qualityLadder.length) :
    Rung (Governor.levelAt level) := by
  have hall : ∀ rung ∈ qualityLadder, Rung rung := by
    intro rung hmem
    simp only [qualityLadder, List.mem_cons, List.not_mem_nil, or_false] at hmem
    rcases hmem with rfl | rfl | rfl | rfl | rfl <;>
      exact ⟨by norm_num, by norm_num, by norm_num, by norm_num [Spans]⟩
  refine hall _ ?_
  unfold Governor.levelAt
  rw [List.getD_eq_getElem?_getD, List.getElem?_eq_getElem h, Option.getD_some]
  exact List.getElem_mem h

theorem round_within {q : ℚ} (hpos : 0 ≤ q) (hmax : q ≤ 20000) :
    Ranges 0 20000 (Governor.round q) := by
  unfold Governor.round
  constructor
  · exact Int.floor_nonneg.mpr (by linarith)
  · have hlt : ⌊q + 1 / 2⌋ < 20001 := Int.floor_lt.mpr (by push_cast; linarith)
    omega

/-- **A directive for a rung of the ladder passes.** -/
theorem directive_passes (hrated : Rated G) (hs : Filled 64 s) {st : Governor.StreamState}
    (hlevel : st.level < qualityLadder.length) (reason : DirectiveReason) :
    QualityDirectiveSchema (toWire (G.directive s st reason)) := by
  obtain ⟨hpos, hmax, hfps, hscale⟩ := rung_levelAt hlevel
  have hle : G.baseKbps * (Governor.levelAt st.level).kbpsFactor ≤ G.baseKbps * 1 :=
    mul_le_mul_of_nonneg_left hmax hrated.pos
  have hbase := hrated.max
  exact ⟨hs, round_within (mul_nonneg hrated.pos hpos) (by linarith), hfps, hscale⟩

theorem Known.heard (h : Known G) {o : Output} (ho : OutputFits o) : Known (Governor.heard o G) := by
  intro s st hget
  rw [Governor.get_heard] at hget
  cases o with
  | streamLive info =>
    simp only [Governor.heardAt] at hget
    split at hget
    · next heq =>
      cases hget
      refine ⟨by rw [heq]; exact ho.1, ?_⟩
      cases hold : G.streams.get s with
      | none =>
        show 0 < qualityLadder.length
        decide
      | some st => exact (h s st hold).2
    · exact h s st hget
  | streamEnded t =>
    simp only [Governor.heardAt] at hget
    split at hget
    · cases hget
    · exact h s st hget
  | demandChanged t owner n =>
    simp only [Governor.heardAt] at hget
    split at hget
    · obtain ⟨st₀, hst₀, rfl⟩ := Option.map_eq_some_iff.mp hget
      exact h s st₀ hst₀
    · exact h s st hget
  | answered => exact h s st hget
  | resolved => exact h s st hget
  | rejected => exact h s st hget

/-- One turn of the loop of `evaluate`, and the loop. -/
theorem evaluateStream_passes (hrated : Rated G) (hs : Filled 64 s) {st : Governor.StreamState}
    (hlevel : st.level < qualityLadder.length) : Rated (G.evaluateStream s st).1 ∧
      ∀ d ∈ (G.evaluateStream s st).2, QualityDirectiveSchema (toWire d) := by
  unfold Governor.evaluateStream
  split
  · exact ⟨hrated, fun d hd => by cases hd⟩
  · dsimp only
    split
    · exact ⟨⟨hrated.pos, hrated.max⟩, fun d hd => by cases hd⟩
    · refine ⟨⟨hrated.pos, hrated.max⟩, fun d hd => ?_⟩
      rw [List.mem_singleton.mp hd]
      exact directive_passes hrated hs (G.nextLevel_lt hlevel) _

theorem evaluateAll_passes (es : List (String × Governor.StreamState)) : ∀ {G : Governor}, Rated G →
    (∀ s st, (s, st) ∈ es → Filled 64 s ∧ st.level < qualityLadder.length) →
      ∀ d ∈ (G.evaluateAll es).2, QualityDirectiveSchema (toWire d) := by
  induction es with
  | nil => exact fun _ _ d hd => by cases hd
  | cons entry es ih =>
    intro G hrated hes d hd
    obtain ⟨s, st⟩ := entry
    obtain ⟨hs, hlevel⟩ := hes s st List.mem_cons_self
    obtain ⟨hrated', hfirst⟩ := evaluateStream_passes hrated hs hlevel
    rcases List.mem_append.mp hd with hd | hd
    · exact hfirst d hd
    · exact ih hrated' (fun t u hmem => hes t u (List.mem_cons_of_mem _ hmem)) d hd

theorem Known.evaluate (h : Known G) : Known G.evaluate.1 := by
  intro s st hget
  rcases G.evaluate_spec.2.1 s with ⟨-, hnone⟩ | ⟨st₀, st₁, hst₀, hst₁, hevolves⟩
  · rw [hnone] at hget
    cases hget
  · have heq : st₁ = st := Option.some.inj (hst₁.symm.trans hget)
    subst heq
    obtain ⟨hs, hlevel⟩ := h s st₀ hst₀
    exact ⟨hs, hevolves.level hlevel⟩

theorem Known.dropSubscriber (h : Known G) (p : String) : Known (G.dropSubscriber p) := by
  intro s st hget
  rw [Governor.get_dropSubscriber] at hget
  obtain ⟨st₀, hst₀, rfl⟩ := Option.map_eq_some_iff.mp hget
  exact h s st₀ hst₀

/-! ### The media plane -/

structure Bounded (M : MediaPlane) : Prop where
  router : Stored M.router
  known : Known M.governor
  rated : Rated M.governor

theorem bounded_new {videoBitrateKbps : ℚ} (hpos : 0 ≤ videoBitrateKbps)
    (hmax : videoBitrateKbps ≤ 20000) : Bounded (.new videoBitrateKbps) :=
  ⟨stored_new, fun _ _ h => (by cases h), hpos, hmax⟩

/-- The result of an operation of the media plane: its state, and what it sent. -/
structure Fine (res : MediaPlane × List MediaOutput) : Prop where
  state : Bounded res.1
  out : ∀ o ∈ res.2, MediaTame o

theorem mediaTame_one {o : MediaOutput} (h : MediaTame o) : ∀ o' ∈ [o], MediaTame o' := by
  intro o' ho'
  rw [List.mem_singleton.mp ho']
  exact h

/-- **The listeners on the router.** -/
theorem fine_onOutput (h : Bounded M) {o : Output} (ho : OutputFits o) : Fine (M.onOutput o) := by
  have hstate : Bounded (M.onOutput o).1 := by
    refine ⟨?_, ?_, ?_⟩
    · rw [onOutput_router]
      exact h.router
    · rw [onOutput_governor]
      exact h.known.heard ho
    · rw [onOutput_governor]
      have hbase := Governor.baseKbps_heard o M.governor
      exact ⟨by rw [hbase]; exact h.rated.pos, by rw [hbase]; exact h.rated.max⟩
  refine ⟨hstate, ?_⟩
  cases o with
  | streamLive info => exact mediaTame_one (o := .broadcast (.streamState info .live)) ho
  | streamEnded s =>
    have hinfo : StreamInfoSchema ⟨s, "", false, false⟩ :=
      ⟨ho, show Short 64 "" by decide⟩
    exact mediaTame_one (o := .broadcast (.streamState ⟨s, "", false, false⟩ .ended)) hinfo
  | demandChanged s owner n =>
    have hs : Filled 64 s := ho
    by_cases hn : n = 0
    · have hbody : QualityDirectiveSchema ⟨s, 0, 0, 1, .noViewers⟩ :=
        ⟨hs, ⟨le_refl _, by norm_num⟩, by norm_num, le_refl _, by norm_num⟩
      rw [MediaPlane.onOutput, if_pos hn]
      exact mediaTame_one (o := .sendTo owner (.qualityDirective _)) hbody
    · have hpaused : Governor.heard (.demandChanged s owner n) M.governor =
          M.governor.setPaused s false := by
        simp [Governor.heard, hn]
      have hknown := hstate.known
      have hrated := hstate.rated
      rw [onOutput_governor, hpaused] at hknown hrated
      rw [MediaPlane.onOutput, if_neg hn]
      dsimp only
      split
      · exact fun _ ho' => by cases ho'
      · next d hresume =>
        obtain ⟨st, hst, rfl⟩ := Option.map_eq_some_iff.mp hresume
        exact mediaTame_one (o := .sendTo owner (.qualityDirective _))
          (directive_passes hrated hs (hknown s st hst).2 .restored)
  | answered pc => exact mediaTame_one (o := .answered pc) trivial
  | resolved call sdp => exact ho
  | rejected call message =>
    have hbody : BodySchema (.mediaError call.streamId (clip message)) :=
      ⟨ho, utf16Length_slice 160 message⟩
    exact mediaTame_one (o := .reply call.peerId _) hbody

theorem fine_onOutputs (os : List Output) : ∀ {M : MediaPlane}, Bounded M →
    (∀ o ∈ os, OutputFits o) → Fine (M.onOutputs os) := by
  induction os with
  | nil => exact fun h _ => ⟨h, fun _ ho => by cases ho⟩
  | cons o os ih =>
    intro M h hos
    have hone := fine_onOutput h (hos o List.mem_cons_self)
    have hrest := ih hone.state fun o' ho' => hos o' (List.mem_cons_of_mem _ ho')
    exact ⟨hrest.state, fun o' ho' => (List.mem_append.mp ho').elim (hone.out o') (hrest.out o')⟩

theorem fine_route (h : Bounded M) {e : Event} (hfits : RouterEventFits e) : Fine (M.route e) := by
  have hkeeps := keeps_react h.router hfits
  exact fine_onOutputs _ ⟨hkeeps.stored, h.known, h.rated⟩ hkeeps.out

/-- The call that a message makes. -/
theorem request_fits {p : PeerId} {body : Body} (hbody : BodySchema body) {e : Event}
    (hrequest : request p body = some e) : RouterEventFits e := by
  cases body with
  | publishOffer s video audio sdp =>
    cases hrequest
    exact hbody.1
  | subscribeAnswer s sdp =>
    cases hrequest
    exact hbody.1
  | subscribe s =>
    cases hrequest
    exact hbody
  | unpublish s =>
    cases hrequest
    trivial
  | unsubscribe s =>
    cases hrequest
    trivial
  | _ => cases hrequest

theorem bounded_ingest (h : Bounded M) (p : PeerId) (subscriptions : List SubscriptionStats)
    (publications : List PublicationStats) : Bounded (M.ingest p subscriptions publications) := by
  have hbase := ingest_baseKbps M p subscriptions publications
  refine ⟨h.router, fun s st hget => ?_, by rw [hbase]; exact h.rated.pos,
    by rw [hbase]; exact h.rated.max⟩
  cases hold : M.governor.streams.get s with
  | none =>
    rw [ingest_none M p subscriptions publications hold] at hget
    cases hget
  | some st₀ =>
    obtain ⟨st', hst', hingested⟩ := ingest_get M p subscriptions publications hold
    have heq : st' = st := Option.some.inj (hst'.symm.trans hget)
    subst heq
    rw [hingested.level]
    exact h.known s st₀ hold

theorem fine_handleMessage (h : Bounded M) (p : PeerId) {body : Body} (hbody : BodySchema body) :
    Fine (M.handleMessage p body) := by
  unfold MediaPlane.handleMessage
  split
  · next e _ hrequest => exact fine_route h (request_fits hbody hrequest)
  · exact ⟨bounded_ingest h p _ _, fun _ ho => by cases ho⟩
  · exact ⟨h, fun _ ho => by cases ho⟩

theorem fine_onPeerGone (h : Bounded M) (p : PeerId) : Fine (M.onPeerGone p) := by
  have hbase := M.governor.baseKbps_dropSubscriber p.text
  have hrated : Rated (M.governor.dropSubscriber p.text) :=
    ⟨by rw [hbase]; exact h.rated.pos, by rw [hbase]; exact h.rated.max⟩
  have hdropped : Bounded { M with governor := M.governor.dropSubscriber p.text } :=
    ⟨h.router, h.known.dropSubscriber p.text, hrated⟩
  exact fine_route (e := .removePeer p) hdropped trivial

theorem fine_runGovernor (h : Bounded M) : Fine M.runGovernor := by
  have hbase := M.governor.evaluate_spec.1
  refine ⟨⟨h.router, h.known.evaluate, ?_, ?_⟩, fun o ho => ?_⟩
  · show 0 ≤ M.governor.evaluate.1.baseKbps
    rw [hbase]
    exact h.rated.pos
  · show M.governor.evaluate.1.baseKbps ≤ 20000
    rw [hbase]
    exact h.rated.max
  · obtain ⟨d, hd, rfl⟩ := List.mem_map.mp ho
    exact evaluateAll_passes M.governor.streams.entries h.rated
      (fun s st hmem => h.known s st ((InsertionMap.mem_entries _ _ _).mp hmem)) d hd

/-- **One event of the media plane**: it stays within the bounds, and everything it sends passes. -/
theorem tame_media (h : Bounded M) {e : MediaEvent} (hfits : MediaEventFits e) :
    Fine (mediaReact M e) := by
  cases e with
  | message p body => exact fine_handleMessage h p hfits
  | settle call outcome =>
    cases outcome with
    | succeeded sdp => exact fine_route (e := .settle call (.succeeded sdp)) h hfits
    | failed message => exact fine_route (e := .settle call (.failed message)) h trivial
  | peerGone p => exact fine_onPeerGone h p
  | track pc kind => exact fine_route (e := .track pc kind) h trivial
  | stateChange pc state => exact fine_route (e := .stateChange pc state) h trivial
  | runGovernor => exact fine_runGovernor h
  | close => exact fine_route (e := .close) h trivial

end ScreenSharing.Sfu
