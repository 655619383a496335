import ScreenSharing.Mirror.Hosting
import ScreenSharing.Mirror.Reading
import ScreenSharing.Host.Bodies

/-!
# Mirrors converge

A `Room` is a host with the clients at the other ends of its connections.  Each link is first in, first out:
the bodies that were sent over it, and how many of them have arrived.  What the clients send is up to the
environment, as the frames that the host receives.

Along a run, what was sent to an attached peer is a `joined` and updates that make of what it tells the
roster and the streams as they are now (`Fed`), and each client has made of what has arrived what `Reads`
says.  So a client to which everything has arrived, and that has nothing left to do, has a mirror of the
room (`mirror_converges`).
-/

namespace ScreenSharing.Mirror

open Lib Signaling Host HostProcess

structure Room where
  host : HostProcess
  /-- what was sent over each connection -/
  sent : ℕ → List Body
  /-- how many bodies have arrived -/
  arrived : ℕ → ℕ
  clients : ℕ → Client

inductive RoomEvent
  | host (e : Host.Event)
  /-- the next body arrives -/
  | frame (conn : ℕ)
  | task (conn : ℕ) (nonce : ℤ) (now : ℚ)
  | expire (conn : ℕ)
  | tick (conn : ℕ) (nonce : ℤ) (now : ℚ)

def Room.new (L : Config) : Room := ⟨.new L, fun _ => [], fun _ => 0, fun _ => .start⟩

variable (L : Config) (cfg : ℕ → ClientConfig)

namespace Room

def setClient (R : Room) (c : ℕ) (k : Client) : Room :=
  { R with clients := Function.update R.clients c k }

def next (R : Room) : RoomEvent → Room
  | .host e =>
    let (H, out) := Host.react L R.host e
    { R with host := H, sent := fun c => R.sent c ++ heard c out }
  | .frame c =>
    match (R.sent c)[R.arrived c]? with
    | none => R
    | some body =>
      { R.setClient c ((R.clients c).deliver body).1 with
        arrived := Function.update R.arrived c (R.arrived c + 1) }
  | .task c nonce now => R.setClient c ((R.clients c).runTask (cfg c) nonce now).1
  | .expire c => R.setClient c (R.clients c).expire
  | .tick c nonce now => R.setClient c ((R.clients c).tick nonce now).1

/-- A body arrives only if it passes its schema, and outside the microtasks; a timer runs between turns. -/
def Enabled (R : Room) : RoomEvent → Prop
  | .host e => Host.Enabled L R.host e
  | .frame c => (∃ body ∈ (R.sent c)[R.arrived c]?, BodySchema body) ∧ (R.clients c).draining = false
  | .task c _ _ => (R.clients c).queue ≠ []
  | .expire c => (R.clients c).stage = .waiting ∧ (R.clients c).queue = []
  | .tick c _ _ => (R.clients c).timer = true ∧ (R.clients c).queue = []

instance (R : Room) (e : RoomEvent) : Decidable (R.Enabled L e) := by
  cases e <;> unfold Enabled <;> infer_instance

end Room

def room : Machine Room RoomEvent Body := ⟨Room.Enabled L, fun R e => (R.next L cfg e, [])⟩

instance (R : Room) (e : RoomEvent) : Decidable ((room L cfg).enabled R e) :=
  inferInstanceAs (Decidable (R.Enabled L e))

/-- An id that an admission draws is not in use. -/
def FreshId (R : Room) : RoomEvent → Prop
  | .host (.server (.resume d draw)) =>
    match (R.host.server.conns.get d).map Conn.stage with
    | some (.joinReceived _) => Unused R.host.server draw.peerId
    | _ => True
  | _ => True

instance (R : Room) (e : RoomEvent) : Decidable (FreshId R e) := by
  unfold FreshId
  split
  · split <;> infer_instance
  · infer_instance

/-! ### Events of the host -/

variable {L : Config} {cfg : ℕ → ClientConfig} {R : Room} {H : HostProcess} {c : ℕ}

/-- Somebody is admitted at this event, on this connection. -/
def AdmitsAt (L : Config) (H : HostProcess) (e : Host.Event) (d : ℕ) (draw : Draw) : Prop :=
  e = .server (.resume d draw) ∧ ∃ k join, H.server.conns.get d = some k ∧
    k.stage = .joinReceived join ∧ H.server.admits L join = true

/-- **Every event of the host but an admission.** -/
theorem follows_react (h : Sound H) {e : Host.Event} (henabled : Host.Enabled L H e)
    (hno : ∀ d draw, ¬ AdmitsAt L H e d draw) : Follows c H (Host.react L H e) := by
  cases e with
  | sendMedia body =>
    exact follows_of_plays (plays_call h (fun q => mediaEnabled_message H.media q body) fun q => by simp)
  | media e =>
    by_cases hclose : e = .close
    · subst hclose
      exact follows_close h henabled.1 henabled.2
    · exact follows_of_plays (plays_mediate h henabled.1 hclose)
  | server e =>
    obtain ⟨-, hsupplied⟩ := henabled
    have haside : MediaAside e := by
      cases e with
      | mediaReply p reply => exact fun body hbody => h.replies p body (hsupplied body hbody)
      | sendTo p body => exact hsupplied.elim
      | broadcast body => exact hsupplied.elim
      | _ => trivial
    have hnone : AdmitsNone L H.server e := by
      cases e with
      | resume d draw =>
        intro k join hget hstage
        by_contra hadmits
        exact hno d draw ⟨rfl, k, join, hget, hstage, by simpa using hadmits⟩
      | _ => trivial
    have hserve := follows_serve (L := L) (c := c) (f := fun S => Signaling.react L S e) h
      (tells_react h.ready hnone haside)
    cases e with
    | flush d => exact follows_flush h d
    | mediaReply p reply => exact follows_handleMedia h haside
    | _ => exact hserve

/-- What only sends, or tells the session, calls no media plane. -/
theorem forEach_onServer_plain (out : List Signaling.Output)
    (hout : ∀ o ∈ out, (∃ d body, o = .send d body) ∨ ∃ p nickname, o = .peerJoined p nickname) :
    ∀ H : HostProcess, forEach (onServer L) out H = (H, out.map .server) := by
  induction out with
  | nil => exact fun _ => rfl
  | cons o out ih =>
    intro H
    have hone : onServer L o H = (H, [.server o]) := by
      obtain ⟨d, body, rfl⟩ | ⟨p, nickname, rfl⟩ := hout o List.mem_cons_self
      · rfl
      · rfl
    rw [forEach_cons, hone, ih fun o' ho' => hout o' (List.mem_cons_of_mem _ ho')]
    rfl

/-- **An admission**, at the host. -/
theorem admission_react (h : Sound H) {e : Host.Event} {d : ℕ} {draw : Draw}
    (hadmits : AdmitsAt L H e d draw) (hunused : Unused H.server draw.peerId) :
    ∃ S' out, Host.react L H e = ({ H with server := S' }, out.map .server) ∧
      Admission L H.server d draw S' out := by
  obtain ⟨rfl, k, join, hget, hstage, hadmits⟩ := hadmits
  refine ⟨_, _, ?_, admission_admitPeer h.ready hget hstage hadmits hunused⟩
  have hresume := resume_of_admits draw hget hstage hadmits
  show serve L (fun S => S.resume L d draw) H = _
  unfold serve
  dsimp only
  rw [hresume]
  exact forEach_onServer_plain _ (fun o ho => mem_admitPeer ho) _

/-! ### The room -/

/-- What was sent is a `joined` and updates, and makes a mirror of the room. -/
def Fed (H : HostProcess) (sent : List Body) : Prop :=
  ∃ before first w rest, sent = before ++ first :: rest ∧ welcome first = some w ∧
    (∀ body ∈ before, welcome body = none) ∧
    Shows H (rest.foldl rosterAfter w.roster) (rest.foldl streamsAfter w.streams)

structure Mirrored (R : Room) : Prop where
  sound : Sound R.host
  arrived : ∀ c, R.arrived c ≤ (R.sent c).length
  /-- only who was admitted was ever welcomed -/
  welcomed : ∀ c body, body ∈ R.sent c → welcome body ≠ none →
    ∃ k, R.host.server.conns.get c = some k ∧ k.stage.admittedAs ≠ none
  fed : R.host.server.closing = false → ∀ c, Attached R.host.server c → Fed R.host (R.sent c)
  reads : ∀ c, Reads (R.clients c) ((R.sent c).take (R.arrived c))

theorem mirrored_new (L : Config) : Mirrored (.new L) := by
  refine ⟨sound_new, fun _ => Nat.le_refl _, fun _ _ hmem => (by cases hmem), fun _ c hc => ?_,
    fun _ => reads_start⟩
  obtain ⟨-, p, l, hl, -⟩ := hc
  cases hl

theorem keepsStages_server {e : Signaling.Event} {S : SignalingServer} (h : Linked S)
    (henabled : Signaling.Enabled L S e) : KeepsStages S (Signaling.react L S e).1 := by
  have hboth : Linked (Signaling.react L S e).1 ∧ KeepsStages S (Signaling.react L S e).1 := by
    refine (does_step (A := fun _ _ => True) henabled fun _ _ _ => trivial).invariant
      (I := fun S' => Linked S' ∧ KeepsStages S S') (fun S₁ S₂ out hS hatom => ?_) ⟨h, .refl⟩
    exact ⟨hS.1.atom hatom, hS.2.trans (hatom.keepsStages hS.1)⟩
  exact hboth.2

/-- Admitted connections stay admitted, at the host. -/
theorem keepsStages_react (h : Sound H) {e : Host.Event} (henabled : Host.Enabled L H e) :
    KeepsStages H.server (Host.react L H e).1.server := by
  cases e with
  | server e =>
    have hnext : (Host.react L H (.server e)).1.server = (Signaling.react L H.server e).1 := next_server e
    rw [hnext]
    exact keepsStages_server h.ready.linked henabled.1
  | media e =>
    have hsame : (Host.react L H (.media e)).1.server = H.server := forEach_server onMedia_server _ _
    rw [hsame]
    exact .refl
  | sendMedia body =>
    have hsame : (Host.react L H (.sendMedia body)).1.server = H.server := call_server _ _ _
    rw [hsame]
    exact .refl

theorem welcome_of_noWelcome {out : List Host.Output} (h : NoWelcome out) {body : Body}
    (hmem : body ∈ heard c out) : welcome body = none := by
  unfold heard at hmem
  obtain ⟨o, ho, heq⟩ := List.mem_filterMap.mp hmem
  split at heq
  · split at heq
    · cases heq
      cases body with
      | joined peerId joinSeq epoch params roster streams =>
        exact absurd rfl (h _ _ ho peerId joinSeq epoch params roster streams)
      | _ => rfl
    · cases heq
  · cases heq

theorem welcome_of_calm {body : Body} (h : Calm body) : welcome body = none := by
  cases body <;> first | rfl | exact h.elim

/-- More is sent, and nothing arrives. -/
theorem reads_sent {k : Client} {sent more : List Body} {n : ℕ} (hn : n ≤ sent.length)
    (h : Reads k (sent.take n)) : Reads k ((sent ++ more).take n) := by
  rw [List.take_append_of_le_length hn]
  exact h

/-- **An event of the host.** -/
theorem mirrored_host (h : Mirrored R) {e : Host.Event} (henabled : Host.Enabled L R.host e)
    (hmedia : L.media = true) (hfresh : FreshId R (.host e)) : Mirrored (R.next L cfg (.host e)) := by
  have hkeeps := keepsStages_react h.sound henabled
  have harrived : ∀ c, R.arrived c ≤ ((R.next L cfg (.host e)).sent c).length := fun c =>
    Nat.le_trans (h.arrived c) (by simp [Room.next])
  have hreads : ∀ c, Reads (R.clients c) (((R.next L cfg (.host e)).sent c).take (R.arrived c)) :=
    fun c => reads_sent (h.arrived c) (h.reads c)
  -- who was welcomed before is still admitted
  have hold : ∀ c body, body ∈ R.sent c → welcome body ≠ none →
      ∃ k, (Host.react L R.host e).1.server.conns.get c = some k ∧ k.stage.admittedAs ≠ none := by
    intro c body hmem hwelcome
    obtain ⟨k, hk, hadmitted⟩ := h.welcomed c body hmem hwelcome
    obtain ⟨k', hk', hstage⟩ := hkeeps c k hk hadmitted
    exact ⟨k', hk', by rw [hstage]; exact hadmitted⟩
  by_cases hadmits : ∃ d draw, AdmitsAt L R.host e d draw
  · obtain ⟨d, draw, hadmits⟩ := hadmits
    have hunused : Unused R.host.server draw.peerId := by
      obtain ⟨rfl, k, join, hget, hstage, -⟩ := hadmits
      simpa [FreshId, hget, hstage] using hfresh
    obtain ⟨S', out, hreact, hadmission⟩ := admission_react h.sound hadmits hunused
    have hhost : (R.next L cfg (.host e)).host = { R.host with server := S' } := by
      show (Host.react L R.host e).1 = _
      rw [hreact]
    have hsent : ∀ c, (R.next L cfg (.host e)).sent c = R.sent c ++ sentTo c out := fun c => by
      show R.sent c ++ heard c (Host.react L R.host e).2 = _
      rw [hreact, heard_server]
    have hunjoined : ∀ body ∈ R.sent d, welcome body = none := by
      intro body hmem
      by_contra hne
      obtain ⟨k, hk, hadmitted⟩ := h.welcomed d body hmem hne
      obtain ⟨-, k', join, hget, hstage, -⟩ := hadmits
      rw [hget] at hk
      cases hk
      rw [hstage] at hadmitted
      exact hadmitted rfl
    have hlists := lists_self (named_of_wf h.sound.wf)
    refine ⟨?_, harrived, fun c body hmem hwelcome => ?_, fun hopen c hc => ?_, hreads⟩
    · rw [hhost]
      exact ⟨hadmission.ready, h.sound.wf, h.sound.replies⟩
    · rw [hsent] at hmem
      rcases List.mem_append.mp hmem with hmem | hmem
      · exact hold c body hmem hwelcome
      · by_cases hcd : c = d
        · obtain ⟨k, hk, hstage⟩ := hadmission.admitted
          rw [hhost, hcd]
          exact ⟨k, hk, by rw [hstage]; simp [Stage.admittedAs]⟩
        · exact absurd (welcome_of_calm (hadmission.calm c body hcd (mem_sentTo.mp hmem))) hwelcome
    · rw [hhost] at hopen hc ⊢
      rw [hsent]
      have hopen' : R.host.server.closing = false := hadmission.closing ▸ hopen
      by_cases hcd : c = d
      · subst hcd
        obtain ⟨joinSeq, hown⟩ := hadmission.own hc
        rw [hown, hmedia, if_pos rfl]
        have hdraw : draw.streams = R.host.media.router.listStreams := by
          obtain ⟨rfl, -⟩ := hadmits
          exact henabled.2
        refine ⟨R.sent c, _, _, _, rfl, rfl, hunjoined, rfl, ?_⟩
        show Lists draw.streams _
        rw [hdraw]
        exact hlists
      · obtain ⟨hc', hroster⟩ := hadmission.others c hcd hc
        obtain ⟨before, first, w, rest, heq, hfirst, hbefore, hshows⟩ := h.fed hopen' c hc'
        refine ⟨before, first, w, rest ++ sentTo c out, ?_, hfirst, hbefore, ?_, ?_⟩
        · rw [heq, List.append_assoc, List.cons_append]
        · rw [List.foldl_append, hshows.roster]
          exact hroster
        · have hcalm : ∀ body ∈ sentTo c out, Calm body := fun body hmem =>
            hadmission.calm c body hcd (mem_sentTo.mp hmem)
          rw [List.foldl_append, foldl_still fun body hmem => (hcalm body hmem).streams _]
          exact hshows.streams
  · have hfollows : ∀ c, Follows c R.host (Host.react L R.host e) := fun c =>
      follows_react h.sound henabled fun d draw hat => hadmits ⟨d, draw, hat⟩
    refine ⟨(hfollows 0).sound, harrived, fun c body hmem hwelcome => ?_, fun hopen c hc => ?_, hreads⟩
    · rcases List.mem_append.mp hmem with hmem | hmem
      · exact hold c body hmem hwelcome
      · exact absurd (welcome_of_noWelcome (hfollows c).noWelcome hmem) hwelcome
    · obtain ⟨hopen', hc', hshows⟩ := (hfollows c).shows hopen hc
      obtain ⟨before, first, w, rest, heq, hfirst, hbefore, hbefore'⟩ := h.fed hopen' c hc'
      refine ⟨before, first, w, rest ++ heard c (Host.react L R.host e).2, ?_, hfirst, hbefore, ?_⟩
      · show R.sent c ++ heard c (Host.react L R.host e).2 = _
        rw [heq, List.append_assoc, List.cons_append]
      · rw [List.foldl_append, List.foldl_append]
        exact hshows _ _ hbefore'

/-- **An event of a client** that leaves its link alone. -/
theorem Mirrored.setClient (h : Mirrored R) {k : Client}
    (hk : Reads k ((R.sent c).take (R.arrived c))) : Mirrored (R.setClient c k) := by
  refine ⟨h.sound, h.arrived, h.welcomed, h.fed, fun d => ?_⟩
  by_cases hd : d = c
  · subst hd
    show Reads (Function.update R.clients d k d) _
    rw [Function.update_self]
    exact hk
  · show Reads (Function.update R.clients c k d) _
    rw [Function.update_of_ne hd]
    exact h.reads d

/-- **A body arrives.** -/
theorem mirrored_frame (h : Mirrored R) (hturn : (R.clients c).draining = false) :
    Mirrored (R.next L cfg (.frame c)) := by
  unfold Room.next
  dsimp only
  cases hbody : (R.sent c)[R.arrived c]? with
  | none => exact h
  | some body =>
    obtain ⟨hlt, hget⟩ := List.getElem?_eq_some_iff.mp hbody
    have htake : (R.sent c).take (R.arrived c + 1) = (R.sent c).take (R.arrived c) ++ [body] := by
      rw [List.take_add_one, hbody]
      rfl
    refine ⟨h.sound, fun d => ?_, h.welcomed, h.fed, fun d => ?_⟩
    · by_cases hd : d = c
      · subst hd
        simpa [Room.setClient] using Nat.succ_le_of_lt hlt
      · simpa [Room.setClient, Function.update_of_ne hd] using h.arrived d
    · by_cases hd : d = c
      · subst hd
        simpa [Room.setClient, htake] using reads_deliver (h.reads d) hturn body
      · simpa [Room.setClient, Function.update_of_ne hd] using h.reads d

theorem mirrored_next (hmedia : L.media = true) {e : RoomEvent} (h : Mirrored R)
    (henabled : R.Enabled L e) (hfresh : FreshId R e) : Mirrored (R.next L cfg e) := by
  cases e with
  | host e => exact mirrored_host h henabled hmedia hfresh
  | frame c => exact mirrored_frame h henabled.2
  | task c nonce now => exact h.setClient (reads_runTask (h.reads c) nonce now)
  | expire c => exact h.setClient (reads_expire (h.reads c))
  | tick c nonce now => exact h.setClient (reads_tick (h.reads c) nonce now)

/-- In every state of every run. -/
theorem mirrored_exec (hmedia : L.media = true) {es : List RoomEvent}
    (hvalid : (room L cfg).Valid (.new L) es) (hfresh : (room L cfg).Along FreshId (.new L) es) :
    Mirrored ((room L cfg).exec (.new L) es) :=
  Machine.exec_invariant (M := room L cfg) (I := Mirrored)
    (fun R e h hstep =>
      show Mirrored (R.next L cfg e) from mirrored_next hmedia h hstep.1 hstep.2)
    (Machine.along_and.mpr ⟨hvalid, hfresh⟩) (mirrored_new L)

/-- The first `joined` is the first answer, if no answer stands before it. -/
theorem Opened.unique {before rest rest' : List Body} {first : Body} {w w' : Welcome}
    (hfirst : welcome first = some w) (hbefore : ∀ body ∈ before, welcome body = none)
    (h : Opened (before ++ first :: rest) w' rest') : w' = w ∧ rest' = rest := by
  obtain ⟨⟨skipped, first', heq, hfirst', hskipped⟩⟩ := h
  have hsame : skipped = before ∧ first' :: rest' = first :: rest := by
    induction before generalizing skipped with
    | nil =>
      cases skipped with
      | nil => exact ⟨rfl, heq.symm⟩
      | cons body skipped =>
        obtain ⟨rfl, -⟩ := List.cons.inj heq
        exact absurd (answers_of_welcome hfirst) (hskipped _ List.mem_cons_self)
    | cons body before ih =>
      cases skipped with
      | nil =>
        obtain ⟨rfl, -⟩ := List.cons.inj heq
        rw [hbefore _ List.mem_cons_self] at hfirst'
        cases hfirst'
      | cons body' skipped =>
        obtain ⟨rfl, heq'⟩ := List.cons.inj heq
        obtain ⟨hskip, hrest⟩ := ih (fun b hb => hbefore b (List.mem_cons_of_mem _ hb)) skipped heq'
          fun b hb => hskipped b (List.mem_cons_of_mem _ hb)
        exact ⟨congrArg _ hskip, hrest⟩
  obtain ⟨rfl, rfl⟩ := List.cons.inj hsame.2
  rw [hfirst] at hfirst'
  exact ⟨(Option.some.inj hfirst').symm, rfl⟩

/-! ### Convergence -/

/-- A client whose mirror is what the host has. -/
structure Converged (H : HostProcess) (k : Client) : Prop where
  connected : k.stage = .connected
  roster : k.roster = H.server.roster.snapshot
  /-- nobody is missing, and nobody is made up -/
  entries : ∀ e, e ∈ k.roster ↔ H.server.roster.entries.get e.peerId = some e
  order : k.roster.Pairwise fun a b => a.joinSeq < b.joinSeq
  nodup : (k.roster.map RosterEntry.peerId).Nodup
  streams : Lists k.streams H.media.router

theorem converged_of_shows (h : Ready H.server) {k : Client} (hstage : k.stage = .connected)
    (hshows : Shows H k.roster k.streams) : Converged H k where
  connected := hstage
  roster := hshows.roster
  entries e := by rw [hshows.roster, mem_snapshot h.seated]
  order := by
    rw [hshows.roster]
    exact snapshot_lt h.seated
  nodup := by
    rw [hshows.roster]
    exact nodup_snapshot h.seated
  streams := hshows.streams

/-- **Mirrors converge.**  In every run of a host that is not closing, whoever is attached, has not given
up, and has taken everything that was sent to it, has the roster of the host and the streams of its media
plane. -/
theorem mirror_converges (hmedia : L.media = true) {es : List RoomEvent}
    (hvalid : (room L cfg).Valid (.new L) es) (hfresh : (room L cfg).Along FreshId (.new L) es)
    (hopen : ((room L cfg).exec (.new L) es).host.server.closing = false) {c : ℕ}
    (hc : Attached ((room L cfg).exec (.new L) es).host.server c)
    (harrived : ((room L cfg).exec (.new L) es).arrived c =
      (((room L cfg).exec (.new L) es).sent c).length)
    (hidle : (((room L cfg).exec (.new L) es).clients c).queue = [])
    (hgoes : (((room L cfg).exec (.new L) es).clients c).gaveUp = false) :
    Converged ((room L cfg).exec (.new L) es).host (((room L cfg).exec (.new L) es).clients c) := by
  have h := mirrored_exec hmedia hvalid hfresh
  generalize (room L cfg).exec (.new L) es = R at *
  obtain ⟨before, first, w, rest, hsent, hfirst, hbefore, hshows⟩ := h.fed hopen c hc
  have hreads := h.reads c
  rw [harrived, List.take_length, hsent] at hreads
  have hmem : first ∈ before ++ first :: rest := by simp
  obtain ⟨hstage, w', rest', hopened, hroster, hstreams⟩ :=
    read_up hreads hidle hgoes hmem (answers_of_welcome hfirst)
  obtain ⟨rfl, rfl⟩ := hopened.unique hfirst hbefore
  rw [← hroster, ← hstreams] at hshows
  exact converged_of_shows h.sound.ready hstage hshows

/-- Everything arrives in one turn, and then the microtasks run. -/
def readUp (conn n : ℕ) : List RoomEvent :=
  List.replicate n (.frame conn) ++ List.replicate 3 (.task conn 7 0)

/-- One peer joins and publishes a stream, and another joins; both read what was sent to them. -/
def twoPeers : List RoomEvent := (crowd 1).map .host ++ readUp 0 4 ++ readUp 1 2

/-- The first has the answer, the stream and the other peer right behind its `joined`. -/
theorem twoPeers_converge :
    Converged ((room Signaling.smallRoom fun _ => ⟨0, 3⟩).exec (.new Signaling.smallRoom) twoPeers).host
      (((room Signaling.smallRoom fun _ => ⟨0, 3⟩).exec (.new Signaling.smallRoom) twoPeers).clients 0) :=
  mirror_converges rfl (by decide +kernel) (by decide +kernel) (by decide +kernel)
    (by decide +kernel) (by decide +kernel) (by decide +kernel) (by decide +kernel)

end ScreenSharing.Mirror
