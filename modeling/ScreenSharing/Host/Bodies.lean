import ScreenSharing.Host.Machine
import ScreenSharing.Sfu.Bounds
import ScreenSharing.Sfu.Removal
import ScreenSharing.Signaling.Bounds

/-!
# Every body that a host sends

Everything that a host sends is taken from its parameters, counters and ids, from bodies that have passed
`bodySchema` at their arrival, from the ladder of the governor or from descriptions of the WebRTC library.
All of that stays within the bounds of the schemas (`Within`), except the number of the streams:
`joinedSchema` lets 64 pass, and `SfuRouter.publish` takes any number.  So every body that a host sends
passes if and only if at most 64 streams are live whenever it admits someone (`sent_pass_iff`).
-/

namespace ScreenSharing.Host

open Lib HostProcess

variable {L : Signaling.Config} {H : HostProcess}

/-! ### What fits -/

/-- What comes from outside: addresses, parsed bodies, ids and nonces drawn in their ranges, and
descriptions. -/
def EventFits : Event → Prop
  | .server (.resume _ draw) => isPeerId draw.peerId = true ∧ Safe draw.nonce
  | .server (.mediaReply _ _) => True
  | .server e => Signaling.EventFits e
  | .media e => Sfu.MediaEventFits e
  | .sendMedia body => BodySchema body

/-- What an output carries passes. -/
def Tame : Output → Prop
  | .server o => Signaling.Tame o
  | .media o => Sfu.MediaTame o

/-- A body that goes out over a connection passes. -/
def Passes : Output → Prop
  | .server (.send _ body) => BodySchema body
  | _ => True

/-- If this event is an admission that reaches its joiner, at most 64 streams are live. -/
def FewStreams (L : Signaling.Config) (H : HostProcess) : Event → Prop
  | .server (.resume conn _) =>
    match (H.server.conns.get conn).map Signaling.Conn.stage with
    | some (.joinReceived join) =>
      H.server.admits L join = true → H.server.reaches conn = true →
        H.media.router.listStreams.length ≤ 64
    | _ => True
  | _ => True

instance (L : Signaling.Config) (H : HostProcess) (e : Event) : Decidable (FewStreams L H e) := by
  unfold FewStreams
  split
  · split <;> infer_instance
  · infer_instance

instance : DecidablePred EventFits := fun e => by
  apply e.casesOn (motive := fun e => Decidable (EventFits e)) <;> intro x
  case server =>
    apply x.casesOn (motive := fun e => Decidable (EventFits (.server e))) <;> intros <;> unfold EventFits <;>
      infer_instance
  all_goals unfold EventFits; infer_instance

instance : DecidablePred Passes := fun o => by
  unfold Passes
  split <;> infer_instance

theorem Tame.passes {o : Output} (h : Tame o) : Passes o := by
  unfold Passes
  split
  · exact h
  · trivial

/-! ### The state -/

/-- The server and the media plane are within their bounds, and so is what is between them. -/
structure Within (L : Signaling.Config) (H : HostProcess) : Prop where
  server : Signaling.Bounded L H.server
  media : Sfu.Bounded H.media
  replies : ∀ p body, (p, body) ∈ H.replies → BodySchema body

theorem within_new (hL : Signaling.Fits L) (hrate : L.roomParams.videoBitrateKbps ≤ 20000) :
    Within L (.new L) :=
  ⟨Signaling.bounded_new hL, Sfu.bounded_new (Nat.cast_nonneg _) (by exact_mod_cast hrate),
    fun _ _ h => by cases h⟩

/-- The state after an operation is within the bounds, and everything in its outputs passes. -/
structure Fine (L : Signaling.Config) (res : HostProcess × List Output) : Prop where
  state : Within L res.1
  out : ∀ o ∈ res.2, Tame o

theorem fine_forEach {α : Type} {f : α → HostProcess → HostProcess × List Output} (as : List α) :
    ∀ {H : HostProcess}, (∀ a ∈ as, ∀ H, Within L H → Fine L (f a H)) → Within L H →
      Fine L (forEach f as H) := by
  induction as with
  | nil => exact fun _ h => ⟨h, fun _ ho => by cases ho⟩
  | cons a as ih =>
    intro H hf h
    have hone := hf a List.mem_cons_self H h
    have hrest := ih (fun b hb => hf b (List.mem_cons_of_mem _ hb)) hone.state
    exact ⟨hrest.state, fun o ho => (List.mem_append.mp ho).elim (hone.out o) (hrest.out o)⟩

/-! ### The media plane -/

theorem fine_onMedia (h : Within L H) {o : Sfu.MediaOutput} (ho : Sfu.MediaTame o) :
    Fine L (onMedia L o H) := by
  cases o with
  | broadcast body =>
    refine ⟨h, fun o' ho' => ?_⟩
    rcases List.mem_cons.mp ho' with rfl | ho'
    · exact ho
    · obtain ⟨sent, hsent, rfl⟩ := List.mem_map.mp ho'
      exact Signaling.tame_broadcast ho sent hsent
  | sendTo p body =>
    refine ⟨h, fun o' ho' => ?_⟩
    rcases List.mem_cons.mp ho' with rfl | ho'
    · exact ho
    · split at ho'
      · cases ho'
      · obtain ⟨sent, hsent, rfl⟩ := List.mem_map.mp ho'
        exact Signaling.tame_sendTo ho sent hsent
  | reply p body =>
    refine ⟨⟨h.server, h.media, fun q body' hmem => ?_⟩, fun o' ho' => ?_⟩
    · rcases List.mem_append.mp hmem with hmem | hmem
      · exact h.replies q body' hmem
      · cases List.mem_singleton.mp hmem
        exact ho
    · rw [List.mem_singleton.mp ho']
      exact ho
  | answered pc =>
    refine ⟨h, fun o' ho' => ?_⟩
    rw [List.mem_singleton.mp ho']
    trivial

theorem fine_mediate (h : Within L H) {e : Sfu.MediaEvent} (he : Sfu.MediaEventFits e) :
    Fine L (mediate L e H) := by
  have hmedia := Sfu.tame_media h.media he
  exact fine_forEach _ (fun o ho _ hH => fine_onMedia hH (hmedia.out o ho))
    ⟨h.server, hmedia.state, h.replies⟩

theorem fine_call (h : Within L H) {p : String} {e : PeerId → Sfu.MediaEvent}
    (he : ∀ q, Sfu.MediaEventFits (e q)) : Fine L (call L p e H) := by
  unfold call
  split
  · exact ⟨h, fun _ ho => by cases ho⟩
  · exact fine_mediate h (he _)

/-! ### The server -/

theorem fine_onServer (h : Within L H) {o : Signaling.Output} (ho : Signaling.Tame o) :
    Fine L (onServer L o H) := by
  have hstill : Fine L (H, []) := ⟨h, fun _ ho => by cases ho⟩
  have hcons : ∀ {res : HostProcess × List Output}, Fine L res →
      Fine L (res.1, .server o :: res.2) := by
    refine fun hres => ⟨hres.state, fun o' ho' => ?_⟩
    rcases List.mem_cons.mp ho' with rfl | ho'
    · exact ho
    · exact hres.out o' ho'
  cases o with
  | handleMessage p body => exact hcons (fine_call h fun _ => ho.2)
  | mediaPeerGone p => exact hcons (fine_call h fun _ => trivial)
  | _ => exact hcons hstill

/-- **A segment of the server**, with the calls of the media plane in it. -/
theorem fine_serve (h : Within L H)
    {f : Signaling.SignalingServer → Signaling.SignalingServer × List Signaling.Output}
    (hf : Signaling.Fine L (f H.server)) : Fine L (serve L f H) :=
  fine_forEach _ (fun o ho _ hH => fine_onServer hH (hf.out o ho)) ⟨hf.state, h.media, h.replies⟩

theorem fine_flush (h : Within L H) (c : ℕ) : Fine L (flush L c H) := by
  have hemptied : Within L { H with
      server := H.server.modifyConn c fun k => { k with inbox := [], flushQueued := false } } := by
    refine ⟨h.server.modifyConn c fun k hk => ?_, h.media, h.replies⟩
    exact ⟨hk.ip, hk.pending, fun _ hmem => (by cases hmem), hk.join, hk.admitted⟩
  refine fine_forEach _ (fun item hitem H' hH' => ?_) hemptied
  refine fine_serve hH' (Signaling.fine_deliverItem hH'.server c ?_)
  cases hget : H.server.conns.get c with
  | none =>
    rw [hget] at hitem
    cases hitem
  | some k =>
    rw [hget] at hitem
    cases item with
    | handshake msg => trivial
    | message body => exact (h.server.conns c k hget).inbox body hitem

theorem fine_handleMedia (h : Within L H) {p : String} {reply : Option Body}
    (hreply : ∀ body ∈ reply, BodySchema body) : Fine L (handleMedia L p reply H) := by
  have htaken : Within L { H with
      replies := reply.elim H.replies fun body => H.replies.erase (p, body) } := by
    refine ⟨h.server, h.media, fun q body hmem => ?_⟩
    cases reply with
    | none => exact h.replies q body hmem
    | some body' => exact h.replies q body (List.mem_of_mem_erase hmem)
  exact fine_serve htaken (Signaling.fine_mediaReply htaken.server p hreply)

/-! ### Every event -/

theorem mem_forEach {α : Type} {f : α → HostProcess → HostProcess × List Output} {a : α}
    {o : Output} {as : List α} : ∀ {H : HostProcess}, a ∈ as → (∀ H, o ∈ (f a H).2) →
      o ∈ (forEach f as H).2 := by
  induction as with
  | nil => exact fun hmem _ => by cases hmem
  | cons b as ih =>
    intro H hmem ho
    rcases List.mem_cons.mp hmem with rfl | hmem
    · exact List.mem_append_left _ (ho H)
    · exact List.mem_append_right _ (ih hmem ho)

/-- What the media plane supplies fits, as long as everything is within the bounds. -/
theorem server_fits (h : Within L H) {e : Signaling.Event} (hsupplied : Supplied H e)
    (he : EventFits (.server e)) : Signaling.EventFits e := by
  cases e with
  | resume c draw =>
    refine ⟨he.1, he.2, fun stream hmem => ?_⟩
    rw [show draw.streams = H.media.router.listStreams from hsupplied] at hmem
    obtain ⟨s, pub, hpub, rfl⟩ := Sfu.mem_listStreams.mp hmem
    exact (h.media.router.live s pub hpub).2
  | mediaReply p reply => exact fun body hbody => h.replies p body (hsupplied body hbody)
  | sendTo p body => exact hsupplied.elim
  | broadcast body => exact hsupplied.elim
  | _ => exact he

theorem fewStreams_server (hmedia : L.media = true) {e : Signaling.Event} (hsupplied : Supplied H e) :
    FewStreams L H (.server e) ↔ Signaling.FewStreams L H.server e := by
  cases e with
  | resume c draw =>
    unfold FewStreams Signaling.FewStreams
    dsimp only
    rw [show draw.streams = H.media.router.listStreams from hsupplied]
    generalize (H.server.conns.get c).map Signaling.Conn.stage = stage
    split <;> simp [hmedia]
  | _ => exact Iff.rfl

/-- An event of the server that is one segment. -/
theorem serve_pass_iff (hL : Signaling.Fits L) (h : Within L H)
    (hcount : Signaling.Counted L H.server) {e : Signaling.Event}
    (henabled : Signaling.Enabled L H.server e) (he : Signaling.EventFits e) :
    ((∀ o ∈ (serve L (fun S => Signaling.react L S e) H).2, Passes o) ↔ Signaling.FewStreams L H.server e) ∧
      (Signaling.FewStreams L H.server e →
        Within L (serve L (fun S => Signaling.react L S e) H).1) := by
  obtain ⟨hstate, htame⟩ := Signaling.tame_iff_fewStreams hL h.server hcount henabled he
  have hfine : Signaling.FewStreams L H.server e →
      Fine L (serve L (fun S => Signaling.react L S e) H) := fun hfew =>
    fine_serve h ⟨hstate, htame.mpr hfew⟩
  refine ⟨⟨fun hsent => ?_, fun hfew o ho => ((hfine hfew).out o ho).passes⟩,
    fun hfew => (hfine hfew).state⟩
  refine Signaling.fewStreams_of_sent hL h.server hcount he fun c body hmem => ?_
  exact hsent (.server (.send c body)) (mem_forEach hmem fun H' => List.mem_cons_self)

/-- **One event**: what it sends passes exactly if the streams that it lists are few, and then everything
is still within the bounds. -/
theorem step_pass_iff (hL : Signaling.Fits L) (hmedia : L.media = true) (h : Within L H)
    (hcount : Signaling.Counted L H.server) {e : Event} (henabled : Enabled L H e)
    (he : EventFits e) : ((∀ o ∈ (react L H e).2, Passes o) ↔ FewStreams L H e) ∧
      (FewStreams L H e → Within L (react L H e).1) := by
  have hfine : ∀ {res : HostProcess × List Output}, Fine L res →
      ((∀ o ∈ res.2, Passes o) ↔ True) ∧ (True → Within L res.1) := fun hres =>
    ⟨iff_true_intro fun o ho => (hres.out o ho).passes, fun _ => hres.state⟩
  cases e with
  | media e => exact hfine (fine_mediate h he)
  | sendMedia body => exact hfine (fine_call h fun _ => he)
  | server e =>
    have hfits := server_fits h henabled.2 he
    rw [fewStreams_server hmedia henabled.2]
    have hserve := serve_pass_iff hL h hcount henabled.1 hfits
    cases e with
    | flush c => exact hfine (fine_flush h c)
    | mediaReply p reply => exact hfine (fine_handleMedia h hfits)
    | _ => exact hserve

/-- **Every body passes exactly if the streams are few at every admission.**  In every run of the host
from its start, with counters that stay safe integers: all bodies that go out over a connection satisfy
`bodySchema` if and only if at most 64 streams are live whenever somebody whose connection is open is
admitted. -/
theorem sent_pass_iff (hL : Signaling.Fits L) (hmedia : L.media = true)
    (hrate : L.roomParams.videoBitrateKbps ≤ 20000) {es : List Event}
    (hvalid : (host L).Valid (.new L) es)
    (hfits : (host L).Along (fun _ e => EventFits e) (.new L) es)
    (hcounted : (host L).Along (fun H _ => Signaling.Counted L H.server) (.new L) es) :
    (host L).Along (fun H e => ∀ o ∈ (host L).out H e, Passes o) (.new L) es ↔
      (host L).Along (FewStreams L) (.new L) es := by
  have hguard := Machine.along_and.mpr ⟨hvalid, Machine.along_and.mpr ⟨hfits, hcounted⟩⟩
  refine Machine.along_congr_while (I := Within L) (fun H e h hG hsent => ?_) (fun H e h hG => ?_)
    hguard (within_new hL hrate)
  · have hstep := step_pass_iff hL hmedia h hG.2.2 hG.1 hG.2.1
    exact hstep.2 (hstep.1.mp hsent)
  · exact (step_pass_iff hL hmedia h hG.2.2 hG.1 hG.2.1).1

/-! ### Too many streams -/

/-- `n` streams of one peer. -/
def streamsOf (peerId : String) (n : ℕ) : List StreamInfo :=
  (List.range n).map fun i => ⟨"s" ++ toString i, peerId, true, false⟩

/-- They are published over a connection. -/
def publishes (conn n : ℕ) : List Event :=
  (List.range n).flatMap fun i =>
    [.server (.deliver conn (.binary (some (.publishOffer ("s" ++ toString i) true false "offer")))),
      .media (.settle i (.succeeded (some "answer")))]

/-- An admission in the presence of some streams. -/
def joins (conn : ℕ) (nickname peerId : String) (streams : List StreamInfo) : List Event :=
  (Signaling.admission conn nickname peerId).map fun e =>
    match e with
    | .resume c _ => .server (.resume c ⟨peerId, 7, 0, streams⟩)
    | e => .server e

/-- One peer joins and publishes, and then another joins. -/
def crowd (n : ℕ) : List Event :=
  joins 0 "ana" "p_0000000a" [] ++ publishes 0 n ++
    joins 1 "bia" "p_0000000b" (streamsOf "p_0000000a" n)

theorem crowd_pass :
    (host Signaling.smallRoom).Along
      (fun H e => ∀ o ∈ (host Signaling.smallRoom).out H e, Passes o) (.new Signaling.smallRoom)
      (crowd 2) :=
  (sent_pass_iff ⟨by decide, by decide, by decide, by decide⟩ rfl (by decide)
    (by decide +kernel) (by decide +kernel) (by decide +kernel)).mpr (by decide +kernel)

/-- With 65 streams, the `joined` of the second peer does not pass. -/
theorem crowd_fails :
    ¬ ∀ (L : Signaling.Config) (es : List Event), Signaling.Fits L → L.media = true →
      L.roomParams.videoBitrateKbps ≤ 20000 → (host L).Valid (.new L) es →
      (host L).Along (fun _ e => EventFits e) (.new L) es →
      (host L).Along (fun H _ => Signaling.Counted L H.server) (.new L) es →
      (host L).Along (fun H e => ∀ o ∈ (host L).out H e, Passes o) (.new L) es := by
  intro h
  have hpass := h Signaling.smallRoom (crowd 65) ⟨by decide, by decide, by decide, by decide⟩ rfl
    (by decide) (by decide +kernel) (by decide +kernel) (by decide +kernel)
  revert hpass
  decide +kernel

end ScreenSharing.Host
