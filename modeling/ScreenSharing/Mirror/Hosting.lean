import ScreenSharing.Host.Machine
import ScreenSharing.Mirror.Feed
import ScreenSharing.Mirror.Streams

/-!
# What a host tells of its room

The server tells a peer of the roster (`Tells`), and the media plane of the streams (`lists_mediaReact`).
In the host a call of the media plane stands in the middle of an operation of the server, but what it sends
changes no roster, and what the server sends changes no streams.  So the two go together: `Follows c` says of
an operation of the host that whoever is attached on `c` after it was so before, and gets what makes a
mirror of the room before into one of the room after it.
-/

namespace ScreenSharing.Mirror

open Lib Signaling Host HostProcess

variable {L : Config} {H H' : HostProcess} {c : ℕ}

/-- The bodies among the outputs that go out over a connection. -/
def heard (c : ℕ) (out : List Host.Output) : List Body :=
  out.filterMap fun o =>
    match o with
    | .server (.send d body) => if d = c then some body else none
    | _ => none

@[simp] theorem heard_nil : heard c [] = [] := rfl

@[simp] theorem heard_append (out out' : List Host.Output) :
    heard c (out ++ out') = heard c out ++ heard c out' := List.filterMap_append

@[simp] theorem heard_media (o : Sfu.MediaOutput) (out : List Host.Output) :
    heard c (.media o :: out) = heard c out := rfl

theorem heard_server (out : List Signaling.Output) : heard c (out.map .server) = sentTo c out := by
  unfold heard sentTo
  rw [List.filterMap_map]
  refine List.filterMap_congr fun o _ => ?_
  cases o <;> rfl

theorem heard_server_cons (o : Signaling.Output) (out : List Host.Output) :
    heard c (.server o :: out) = sentTo c [o] ++ heard c out := by
  rw [← heard_server, ← heard_append]
  rfl

/-- Nothing that goes out starts a mirror. -/
def NoWelcome (out : List Host.Output) : Prop :=
  ∀ d body, .server (.send d body) ∈ out → ∀ peerId joinSeq epoch params roster streams,
    body ≠ .joined peerId joinSeq epoch params roster streams

/-- What holds of the host in every state. -/
structure Sound (H : HostProcess) : Prop where
  ready : Ready H.server
  wf : Sfu.Wf H.media.router
  replies : ∀ p body, (p, body) ∈ H.replies → Aside body

theorem sound_new : Sound (.new L) :=
  ⟨ready_new, Sfu.wf_new, fun _ _ h => by cases h⟩

/-! ### The media plane -/

/-- What a part of an operation does behind the back of the server: the roster of whoever is attached on
`c` changes as by the bodies `told`, and the streams as they do in the media plane. -/
structure Plays (c : ℕ) (told : List Body) (H : HostProcess) (res : HostProcess × List Host.Output) :
    Prop where
  server : res.1.server = H.server
  sound : Sound res.1
  noWelcome : NoWelcome res.2
  roster : ∀ roster, (heard c res.2).foldl rosterAfter roster = told.foldl rosterAfter roster
  streams : Attached H.server c → ∀ streams, Lists streams H.media.router →
    Lists ((heard c res.2).foldl streamsAfter streams) res.1.media.router

theorem plays_still (h : Sound H) : Plays c [] H (H, []) :=
  ⟨rfl, h, fun _ _ h => (by cases h), fun _ => rfl, fun _ _ h => h⟩

theorem Plays.trans {told told' : List Body} {res res' : HostProcess × List Host.Output}
    (h : Plays c told H res) (h' : Plays c told' res.1 res') :
    Plays c (told ++ told') H (res'.1, res.2 ++ res'.2) := by
  refine ⟨h'.server.trans h.server, h'.sound, fun d body hmem => ?_, fun roster => ?_,
    fun hc streams hstreams => ?_⟩
  · exact (List.mem_append.mp hmem).elim (h.noWelcome d body) (h'.noWelcome d body)
  · rw [heard_append, List.foldl_append, List.foldl_append, h.roster, h'.roster]
  · rw [heard_append, List.foldl_append]
    exact h'.streams (h.server ▸ hc) _ (h.streams hc streams hstreams)

theorem noWelcome_server {P : Body → Prop} {out : List Signaling.Output} (h : Sends P out)
    (hP : ∀ body, P body → Calm body ∨ ∃ info state, body = .streamState info state) :
    NoWelcome (out.map .server) := by
  intro d body hmem peerId joinSeq epoch params roster streams heq
  obtain ⟨o, ho, hsend⟩ := List.mem_map.mp hmem
  cases hsend
  rcases hP body (h d body ho) with hcalm | ⟨info, state, heq'⟩
  · rw [heq] at hcalm
    exact hcalm
  · rw [heq] at heq'
    cases heq'

/-- The listeners on the media plane, on one output. -/
theorem onMedia_tells (h : Sound H) {o : Sfu.MediaOutput} (ho : OfStreams o) :
    (onMedia L o H).1.server = H.server ∧ (onMedia L o H).1.media = H.media ∧
      Sound (onMedia L o H).1 ∧ NoWelcome (onMedia L o H).2 ∧
      (∀ roster, (heard c (onMedia L o H).2).foldl rosterAfter roster = roster) ∧
      (Attached H.server c → ∀ streams,
        (heard c (onMedia L o H).2).foldl streamsAfter streams = streamsAfterMedia streams o) := by
  have hmedia : ∀ {out : List Host.Output}, NoWelcome out → NoWelcome (.media o :: out) :=
    fun hout d body hmem => hout d body ((List.mem_cons.mp hmem).resolve_left (by simp))
  have hnothing : NoWelcome [] := fun _ _ hmem => by cases hmem
  -- bodies that leave a mirror alone
  have haside : ∀ {out : List Signaling.Output}, Sends Aside out →
      NoWelcome (out.map .server) ∧
        (∀ roster, (sentTo c out).foldl rosterAfter roster = roster) ∧
        ∀ streams, (sentTo c out).foldl streamsAfter streams = streams := by
    intro out hout
    refine ⟨noWelcome_server hout fun _ hbody => .inl hbody.calm, foldl_aside hout, fun streams => ?_⟩
    exact foldl_still fun body hmem => (hout c body (mem_sentTo.mp hmem)).calm.streams streams
  cases o with
  | broadcast body =>
    obtain ⟨info, state, rfl⟩ := ho
    have hsends : Sends (fun body => ∃ info state, body = .streamState info state)
        (H.server.broadcast (.streamState info state) none) := sends_broadcast ⟨info, state, rfl⟩
    refine ⟨rfl, rfl, h, hmedia (noWelcome_server hsends fun _ hbody => .inr hbody), fun roster => ?_,
      fun hc streams => ?_⟩
    · show (heard c (.media _ :: (H.server.broadcast _ none).map .server)).foldl rosterAfter roster = _
      rw [heard_media, heard_server]
      refine foldl_still fun body hmem => ?_
      obtain ⟨_, _, _, _, heq, _⟩ := mem_broadcast (mem_sentTo.mp hmem)
      cases heq
      rfl
    · show (heard c (.media _ :: (H.server.broadcast _ none).map .server)).foldl streamsAfter streams = _
      rw [heard_media, heard_server,
        sentTo_broadcast h.ready.linked hc fun _ _ _ _ heq => by cases heq]
      rfl
  | sendTo p body =>
    by_cases hp : p = L.hostPeerId
    · have heq : onMedia L (.sendTo p body) H = (H, [.media (.sendTo p body)]) := by
        simp [onMedia, hp]
      rw [heq]
      exact ⟨rfl, rfl, h, hmedia hnothing, fun _ => rfl, fun _ _ => rfl⟩
    · have heq : onMedia L (.sendTo p body) H =
          (H, .media (.sendTo p body) :: (H.server.sendTo p body).map .server) := by
        simp [onMedia, hp]
      obtain ⟨hno, hroster, hstreams⟩ := haside (sends_sendTo (S := H.server) (p := p) ho)
      rw [heq, heard_media, heard_server]
      exact ⟨rfl, rfl, h, hmedia hno, hroster, fun _ => hstreams⟩
  | reply p body =>
    refine ⟨rfl, rfl, ⟨h.ready, h.wf, fun q body' hmem => ?_⟩, hmedia hnothing, fun _ => rfl,
      fun _ _ => rfl⟩
    rcases List.mem_append.mp hmem with hmem | hmem
    · exact h.replies q body' hmem
    · cases List.mem_singleton.mp hmem
      exact ho
  | answered pc => exact ⟨rfl, rfl, h, hmedia hnothing, fun _ => rfl, fun _ _ => rfl⟩

theorem onMediaAll_tells (os : List Sfu.MediaOutput) : ∀ {H : HostProcess}, Sound H →
    (∀ o ∈ os, OfStreams o) →
      (forEach (onMedia L) os H).1.server = H.server ∧ (forEach (onMedia L) os H).1.media = H.media ∧
      Sound (forEach (onMedia L) os H).1 ∧ NoWelcome (forEach (onMedia L) os H).2 ∧
      (∀ roster, (heard c (forEach (onMedia L) os H).2).foldl rosterAfter roster = roster) ∧
      (Attached H.server c → ∀ streams,
        (heard c (forEach (onMedia L) os H).2).foldl streamsAfter streams =
          os.foldl streamsAfterMedia streams) := by
  induction os with
  | nil => exact fun h _ => ⟨rfl, rfl, h, fun _ _ hmem => (by cases hmem), fun _ => rfl, fun _ _ => rfl⟩
  | cons o os ih =>
    intro H h hos
    obtain ⟨hserver, hmedia, hsound, hno, hroster, hstreams⟩ :=
      onMedia_tells (L := L) (c := c) h (hos o List.mem_cons_self)
    obtain ⟨hserver', hmedia', hsound', hno', hroster', hstreams'⟩ :=
      ih hsound fun o' ho' => hos o' (List.mem_cons_of_mem _ ho')
    refine ⟨hserver'.trans hserver, hmedia'.trans hmedia, hsound', fun d body hmem => ?_,
      fun roster => ?_, fun hc streams => ?_⟩
    · exact (List.mem_append.mp hmem).elim (hno d body) (hno' d body)
    · rw [forEach_cons, heard_append, List.foldl_append, hroster, hroster']
    · rw [forEach_cons, heard_append, List.foldl_append, hstreams hc, hstreams' (hserver ▸ hc)]
      rfl

/-- **A step of the media plane**, except its close. -/
theorem plays_mediate (h : Sound H) {e : Sfu.MediaEvent} (henabled : Sfu.MediaEnabled H.media e)
    (hne : e ≠ .close) : Plays c [] H (mediate L e H) := by
  have hnamed := named_of_wf h.wf
  have hwf : Sfu.Wf (Sfu.mediaReact H.media e).1.router := Sfu.wf_mediaPlane_next h.wf henabled
  have hlists := fun (streams : List StreamInfo) (hstreams : Lists streams H.media.router) =>
    lists_mediaReact hstreams hnamed hne
  have hof := (hlists _ (lists_self hnamed)).1
  have hsound : Sound { H with media := (Sfu.mediaReact H.media e).1 } := ⟨h.ready, hwf, h.replies⟩
  obtain ⟨hserver, hmedia, hsound', hno, hroster, hstreams⟩ :=
    onMediaAll_tells (L := L) (c := c) (Sfu.mediaReact H.media e).2 hsound hof
  have heq : mediate L e H = forEach (onMedia L) (Sfu.mediaReact H.media e).2
      { H with media := (Sfu.mediaReact H.media e).1 } := rfl
  rw [heq]
  refine ⟨hserver, hsound', hno, hroster, fun hc streams hlist => ?_⟩
  rw [hstreams hc streams, hmedia]
  exact (hlists streams hlist).2

theorem plays_call (h : Sound H) {p : String} {e : PeerId → Sfu.MediaEvent}
    (henabled : ∀ q, Sfu.MediaEnabled H.media (e q)) (hne : ∀ q, e q ≠ .close) :
    Plays c [] H (call L p e H) := by
  unfold call
  split
  · exact plays_still h
  · exact plays_mediate h (henabled _) (hne _)

/-! ### The server -/

/-- A call of the media plane can always be made. -/
theorem mediaEnabled_message (M : Sfu.MediaPlane) (p : PeerId) (body : Body) :
    Sfu.MediaEnabled M (.message p body) := by
  refine ⟨fun e he => ?_, trivial⟩
  cases body <;> cases he <;> trivial

theorem mediaEnabled_peerGone (M : Sfu.MediaPlane) (p : PeerId) :
    Sfu.MediaEnabled M (.peerGone p) := by
  refine ⟨fun e he => ?_, trivial⟩
  cases he
  trivial

/-- What an output of the server does. -/
theorem plays_onServer (h : Sound H) {o : Signaling.Output}
    (ho : ∀ d body, o = .send d body → Calm body) : Plays c (sentTo c [o]) H (onServer L o H) := by
  have hcons : ∀ {res : HostProcess × List Host.Output}, sentTo c [o] = [] → Plays c [] H res →
      (∀ d body, o ≠ .send d body) → Plays c (sentTo c [o]) H (res.1, .server o :: res.2) := by
    intro res hsent hres hnot
    refine ⟨hres.server, hres.sound, fun d body hmem => ?_, fun roster => ?_, fun hc streams hlist => ?_⟩
    · refine hres.noWelcome d body ((List.mem_cons.mp hmem).resolve_left fun heq => ?_)
      exact hnot d body (Host.Output.server.inj heq).symm
    · rw [heard_server_cons, hsent]
      exact hres.roster roster
    · rw [heard_server_cons, hsent]
      exact hres.streams hc streams hlist
  cases o with
  | handleMessage p body =>
    exact hcons rfl (plays_call h (fun q => mediaEnabled_message H.media q body) fun q => by simp)
      fun _ _ heq => by cases heq
  | mediaPeerGone p =>
    exact hcons rfl (plays_call h (fun q => mediaEnabled_peerGone H.media q) fun q => by simp)
      fun _ _ heq => by cases heq
  | send d body =>
    have hcalm : Calm body := ho d body rfl
    have heq : onServer L (.send d body) H = (H, [.server (.send d body)]) := rfl
    have hheard : heard c [.server (.send d body)] = sentTo c [.send d body] := by
      rw [heard_server_cons, heard_nil, List.append_nil]
    rw [heq]
    refine ⟨rfl, h, fun d' body' hmem => ?_, fun roster => by rw [hheard], fun _ streams hlist => ?_⟩
    · cases List.mem_singleton.mp hmem
      intro _ _ _ _ _ _ hjoined
      rw [hjoined] at hcalm
      exact hcalm
    · have hkept : (sentTo c [Signaling.Output.send d body]).foldl streamsAfter streams = streams := by
        unfold sentTo
        by_cases hd : d = c
        · simp [hd, hcalm.streams]
        · simp [hd]
      rw [hheard, hkept]
      exact hlist
  | _ => exact hcons rfl (plays_still h) fun _ _ heq => by cases heq

theorem plays_onServerAll (out : List Signaling.Output) : ∀ {H : HostProcess}, Sound H →
    Sends Calm out → Plays c (sentTo c out) H (forEach (onServer L) out H) := by
  induction out with
  | nil => exact fun h _ => plays_still h
  | cons o out ih =>
    intro H h hout
    have hone : Plays c (sentTo c [o]) H (onServer L o H) :=
      plays_onServer h fun d body heq => hout d body (by rw [heq]; exact List.mem_cons_self)
    have hrest := ih hone.sound fun d body hmem => hout d body (List.mem_cons_of_mem _ hmem)
    have hall := hone.trans hrest
    rw [← sentTo_append] at hall
    exact hall

/-! ### An operation of the host -/

/-- A mirror of the room. -/
structure Shows (H : HostProcess) (roster : List RosterEntry) (streams : List StreamInfo) : Prop where
  roster : roster = H.server.roster.snapshot
  streams : Lists streams H.media.router

/-- Whoever is attached on `c` after an operation gets what keeps its mirror one of the room. -/
structure Follows (c : ℕ) (H : HostProcess) (res : HostProcess × List Host.Output) : Prop where
  sound : Sound res.1
  noWelcome : NoWelcome res.2
  shows : res.1.server.closing = false → Attached res.1.server c →
    H.server.closing = false ∧ Attached H.server c ∧ ∀ roster streams, Shows H roster streams →
      Shows res.1 ((heard c res.2).foldl rosterAfter roster) ((heard c res.2).foldl streamsAfter streams)

theorem follows_still (h : Sound H) : Follows c H (H, []) :=
  ⟨h, fun _ _ hmem => (by cases hmem), fun hopen hc => ⟨hopen, hc, fun _ _ hshows => hshows⟩⟩

theorem Follows.trans {res res' : HostProcess × List Host.Output} (h : Follows c H res)
    (h' : Follows c res.1 res') : Follows c H (res'.1, res.2 ++ res'.2) := by
  refine ⟨h'.sound, fun d body hmem => ?_, fun hopen hc => ?_⟩
  · exact (List.mem_append.mp hmem).elim (h.noWelcome d body) (h'.noWelcome d body)
  · obtain ⟨hopen', hc', hshows'⟩ := h'.shows hopen hc
    obtain ⟨hopen'', hc'', hshows⟩ := h.shows hopen' hc'
    refine ⟨hopen'', hc'', fun roster streams hbefore => ?_⟩
    rw [heard_append, List.foldl_append, List.foldl_append]
    exact hshows' _ _ (hshows _ _ hbefore)

/-- The media plane is closed behind the server, when nobody is shown the room any more. -/
theorem follows_close (h : Sound H) (henabled : Sfu.MediaEnabled H.media .close)
    (hclosing : H.server.closing = true) : Follows c H (mediate L .close H) := by
  have hsound : Sound { H with media := (Sfu.mediaReact H.media .close).1 } :=
    ⟨h.ready, Sfu.wf_mediaPlane_next h.wf henabled, h.replies⟩
  obtain ⟨hserver, -, hsound', hno, -⟩ := onMediaAll_tells (L := L) (c := c)
    (Sfu.mediaReact H.media .close).2 hsound (ofStreams_route H.media .close)
  refine ⟨hsound', hno, fun hopen => ?_⟩
  have hopen' : H.server.closing = false := (congrArg _ hserver).symm.trans hopen
  rw [hclosing] at hopen'
  cases hopen'

theorem follows_forEach {α : Type} {f : α → HostProcess → HostProcess × List Host.Output} (as : List α) :
    ∀ {H : HostProcess}, (∀ a ∈ as, ∀ H, Sound H → Follows c H (f a H)) → Sound H →
      Follows c H (forEach f as H) := by
  induction as with
  | nil => exact fun _ h => follows_still h
  | cons a as ih =>
    intro H hf h
    have hone := hf a List.mem_cons_self H h
    exact hone.trans (ih (fun b hb => hf b (List.mem_cons_of_mem _ hb)) hone.sound)

theorem follows_of_plays {res : HostProcess × List Host.Output} (h : Plays c [] H res) :
    Follows c H res := by
  refine ⟨h.sound, h.noWelcome, fun hopen hc => ?_⟩
  rw [h.server] at hopen hc
  refine ⟨hopen, hc, fun roster streams hshows => ⟨?_, h.streams hc streams hshows.streams⟩⟩
  rw [h.roster, h.server]
  exact hshows.roster

/-- **A segment of the server**, with the calls of the media plane in it. -/
theorem follows_serve (h : Sound H)
    {f : SignalingServer → SignalingServer × List Signaling.Output}
    (hf : Tells c H.server (f H.server).1 (f H.server).2) : Follows c H (serve L f H) := by
  have hsound : Sound { H with server := (f H.server).1 } := ⟨hf.ready, h.wf, h.replies⟩
  have hplays := plays_onServerAll (c := c) (L := L) (f H.server).2 hsound hf.calm
  have hserver : (serve L f H).1.server = (f H.server).1 := hplays.server
  refine ⟨hplays.sound, hplays.noWelcome, fun hopen hc => ?_⟩
  rw [hserver] at hopen hc
  obtain ⟨hopen', hc', hroster⟩ := hf.follows hopen hc
  refine ⟨hopen', hc', fun roster streams hshows => ⟨?_, hplays.streams hc streams hshows.streams⟩⟩
  rw [hserver, ← hroster, ← hshows.roster]
  exact hplays.roster roster

theorem follows_flush (h : Sound H) (d : ℕ) : Follows c H (flush L d H) := by
  have hready : Ready (H.server.modifyConn d fun k => { k with inbox := [], flushQueued := false }) :=
    h.ready.modifyConn L d (fun _ => rfl) fun _ => rfl
  have htake : Follows c H ({ H with
      server := H.server.modifyConn d fun k => { k with inbox := [], flushQueued := false } }, []) := by
    have htells := tells_modifyConn (c := c) hready fun _ => rfl
    refine ⟨⟨hready, h.wf, h.replies⟩, fun _ _ hmem => (by cases hmem), fun hopen hc => ?_⟩
    obtain ⟨hopen', hc', hroster⟩ := htells.follows hopen hc
    exact ⟨hopen', hc', fun roster streams hshows => ⟨hshows.roster.trans hroster, hshows.streams⟩⟩
  exact htake.trans (follows_forEach _
    (fun item _ H' hH' => follows_serve hH' (tells_deliverItem hH'.ready d item)) htake.sound)

theorem follows_handleMedia (h : Sound H) {p : String} {reply : Option Body}
    (hreply : ∀ body ∈ reply, Aside body) : Follows c H (handleMedia L p reply H) := by
  have hsound : Sound { H with
      replies := reply.elim H.replies fun body => H.replies.erase (p, body) } := by
    refine ⟨h.ready, h.wf, fun q body hmem => ?_⟩
    cases reply with
    | none => exact h.replies q body hmem
    | some body' => exact h.replies q body (List.mem_of_mem_erase hmem)
  have hserve := follows_serve (L := L) (c := c) (f := fun S => S.mediaReply p reply) hsound
    (tells_mediaReply h.ready p hreply)
  exact ⟨hserve.sound, hserve.noWelcome, fun hopen hc =>
    have hshows := hserve.shows hopen hc
    ⟨hshows.1, hshows.2.1, fun roster streams hbefore =>
      hshows.2.2 roster streams ⟨hbefore.roster, hbefore.streams⟩⟩⟩

end ScreenSharing.Mirror
