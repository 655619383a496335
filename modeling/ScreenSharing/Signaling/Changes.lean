import ScreenSharing.Signaling.Server

/-!
# What one event can do to the signaling server

`Atom A B` lists the elementary changes the server's code is made of, each with its guard: bookkeeping
of a connection, of a link, of the counters; a new connection, from an ip and at a time that satisfy
`B`; the departure of a peer; the admission of a peer, on a connection and with a draw that satisfy
`A`; the steps of a shutdown; and outputs that announce nobody.  `Does A B` is a sequence of such
changes with their outputs.

`does_step` says that every event is such a sequence, where the only connection a peer can be
admitted on is one whose continuation in `#admit` runs at that event with a join that passes.  Every
invariant of the server is an induction over `Does`, and every law about admissions a choice of `A`.
-/

namespace ScreenSharing.Signaling

open Lib SignalingServer

/-- The peer a stage was admitted as. -/
def Stage.admittedAs : Stage → Option String
  | .admitted p => some p
  | _ => none

/-- Neither admitted nor refused. -/
def Stage.ongoing : Stage → Bool
  | .admitted _ | .refused _ => false
  | _ => true

/-- An output that tells of a new peer. -/
def Output.Announces : Output → Prop
  | .send _ (.joined ..) => True
  | .send _ (.rosterUpdate added _ _) => added ≠ []
  | .peerJoined _ _ => True
  | _ => False

/-- The elementary changes of the server. -/
inductive Atom (L : Config) (A : Conn → Draw → Prop) (B : String → ℕ → Prop) (S : SignalingServer) :
    SignalingServer → List Output → Prop
  | emit (out : List Output) (h : ∀ o ∈ out, ¬ o.Announces) : Atom L A B S S out
  /-- a connection changes, but is neither admitted nor refused nor, unless it is not admitted or
  the server is closing, closed -/
  | conn (c : ℕ) (k k' : Conn) (hget : S.conns.get c = some k)
      (hstage : k'.stage = k.stage ∨ (k.stage.admittedAs = none ∧ k'.stage.ongoing = true))
      (hclosed : k'.closed = k.closed ∨ k.stage.admittedAs = none ∨ S.closing = true) :
      Atom L A B S { S with conns := S.conns.set c k' } []
  | leave (c : ℕ) (k : Conn) (p : String) (hget : S.conns.get c = some k)
      (hstage : k.stage = .admitted p) (hclosing : S.closing = false) :
      Atom L A B S
        { S with
          conns := S.conns.set c { k with closed := true }
          roster := S.roster.remove p
          links := S.links.delete p } []
  | link (p : String) (l l' : PeerLink) (hget : S.links.get p = some l) (hconn : l'.conn = l.conn)
      (hid : l'.peerId = l.peerId) (htimer : l'.timer = l.timer) :
      Atom L A B S { S with links := S.links.set p l' } []
  | entry (p : String) (r r' : RosterEntry) (hget : S.roster.entries.get p = some r)
      (hid : r'.peerId = r.peerId) (hseq : r'.joinSeq = r.joinSeq)
      (hname : r'.nickname = r.nickname) (hhost : r'.isHost = r.isHost) :
      Atom L A B S
        { S with roster := { S.roster with entries := S.roster.entries.set p r' } } []
  | account (active transfers : ℕ) (limiter : RateLimiter)
      (probes : List (String × InboundEndpoint)) (pending : List String)
      (hactive : active ≤ S.activeHandshakes)
      (hlimiter : limiter = S.rateLimiter ∨ ∃ ip, limiter = S.rateLimiter.clear ip) :
      Atom L A B S
        { S with
          activeHandshakes := active, transfers := transfers, rateLimiter := limiter
          probes := probes, mediaPending := pending } []
  /-- a new connection, refused only for its reason -/
  | connect (k : Conn) (ip : String) (now active : ℕ) (limiter : RateLimiter)
      (hstage : k.stage.admittedAs = none) (hactive : active ≤ S.activeHandshakes + 1)
      (hlimiter : limiter = S.rateLimiter ∨ limiter = (S.rateLimiter.take now ip).1)
      (hrate : k.stage = .refused "rate_limited" → (S.rateLimiter.take now ip).2.isSome = true)
      (hbusy : k.stage = .refused "too_many_handshakes" →
        maxConcurrentHandshakes ≤ S.activeHandshakes) (hB : B ip now) :
      Atom L A B S
        { S with
          conns := S.conns.set S.nextConn k, nextConn := S.nextConn + 1
          activeHandshakes := active, rateLimiter := limiter } []
  | admission (c : ℕ) (k : Conn) (join : Join) (draw : Draw) (out : List Output)
      (hget : S.conns.get c = some k) (hstage : k.stage = .joinReceived join)
      (hadmits : S.admits L join = true) (hA : A k draw) :
      Atom L A B S
        { S with
          conns := S.conns.set c { k with stage := .admitted draw.peerId, flushQueued := true }
          roster := ({ S.roster with nextJoinSeq := S.roster.nextJoinSeq + 1 } : Roster).add
            (S.newEntry join draw)
          links := S.links.set draw.peerId (newLink L c k.ip draw) } out
  | setClosing : Atom L A B S { S with closing := true } []
  | stop (hclosing : S.closing = true) :
      Atom L A B S { S with links := S.links.mapValues PeerLink.stop } []
  | clear (hclosing : S.closing = true) : Atom L A B S { S with links := .empty } []
  | source (source : Source) : Atom L A B S { S with source := source } []

/-- A sequence of elementary changes, with their outputs. -/
inductive Does (L : Config) (A : Conn → Draw → Prop) (B : String → ℕ → Prop) :
    SignalingServer → SignalingServer → List Output → Prop
  | refl (S : SignalingServer) : Does L A B S S []
  | step {S S₁ S₂ : SignalingServer} {out₁ out₂ : List Output} (h₁ : Does L A B S S₁ out₁)
      (h₂ : Atom L A B S₁ S₂ out₂) : Does L A B S S₂ (out₁ ++ out₂)

variable {L : Config} {A : Conn → Draw → Prop} {B : String → ℕ → Prop} {S S₁ S₂ : SignalingServer}
  {out out₁ out₂ : List Output}

theorem Atom.does (h : Atom L A B S S₁ out) : Does L A B S S₁ out := by
  have hstep := (Does.refl (L := L) (A := A) (B := B) S).step h
  exact hstep

theorem Does.trans (h₁ : Does L A B S S₁ out₁) (h₂ : Does L A B S₁ S₂ out₂) :
    Does L A B S S₂ (out₁ ++ out₂) := by
  induction h₂ with
  | refl => simpa using h₁
  | step _ hatom ih =>
    rw [← List.append_assoc]
    exact ih.step hatom

/-- **The rule for invariants**: what every elementary change keeps, a sequence keeps. -/
theorem Does.invariant {I : SignalingServer → Prop}
    (hatom : ∀ S S' out, I S → Atom L A B S S' out → I S') (h : Does L A B S S₁ out) (hI : I S) :
    I S₁ := by
  induction h with
  | refl => exact hI
  | step _ hstep ih => exact hatom _ _ _ ih hstep

theorem Does.emit (h : ∀ o ∈ out, ¬ o.Announces) : Does L A B S S out := (Atom.emit out h).does

/-- Outputs on top of a change. -/
theorem Does.withOutput (h : Does L A B S S₁ out₁) (hout : ∀ o ∈ out, ¬ o.Announces) :
    Does L A B S S₁ (out₁ ++ out) := h.trans (.emit hout)

theorem Does.outputThen (hout : ∀ o ∈ out, ¬ o.Announces) (h : Does L A B S S₁ out₁) :
    Does L A B S S₁ (out ++ out₁) := (Does.emit hout).trans h

/-! ### Outputs -/

theorem mem_send {c : ℕ} {body : Body} {o : Output} (h : o ∈ S.send c body) : o = .send c body := by
  unfold SignalingServer.send at h
  split at h
  · exact List.mem_singleton.mp h
  · cases h

theorem mem_sendHandshake {c : ℕ} {msg : HostMessage} {o : Output}
    (h : o ∈ S.sendHandshake c msg) : o = .sendHandshake c msg := by
  unfold SignalingServer.sendHandshake at h
  split at h
  · exact List.mem_singleton.mp h
  · cases h

theorem mem_broadcast {body : Body} {p : Option String} {o : Output}
    (h : o ∈ S.broadcast body p) : ∃ q link, S.links.get q = some link ∧ some link.peerId ≠ p ∧
      o = .send link.conn body ∧ S.reaches link.conn = true := by
  obtain ⟨link, hlink, ho⟩ := List.mem_flatMap.mp h
  obtain ⟨q, hq⟩ := (InsertionMap.mem_values _ _).mp hlink
  split at ho
  · cases ho
  · next hne =>
    refine ⟨q, link, hq, hne, mem_send ho, ?_⟩
    unfold SignalingServer.send at ho
    split at ho
    · assumption
    · cases ho

theorem mem_sendTo {body : Body} {p : String} {o : Output} (h : o ∈ S.sendTo p body) :
    ∃ c, o = .send c body := by
  unfold SignalingServer.sendTo at h
  split at h
  · cases h
  · exact ⟨_, mem_send h⟩

/-- A body that tells of a new peer. -/
def AnnouncingBody : Body → Prop
  | .joined .. => True
  | .rosterUpdate added _ _ => added ≠ []
  | _ => False

theorem announces_send {c : ℕ} {body : Body} :
    (Output.send c body).Announces ↔ AnnouncingBody body := by
  cases body <;> rfl

theorem not_announcing_of_media {body : Body} (h : body.isMediaBody = true) :
    ¬ AnnouncingBody body := by
  cases body <;> first | exact id | cases h

theorem quiet_send {c : ℕ} {body : Body} (h : ¬ AnnouncingBody body) :
    ∀ o ∈ S.send c body, ¬ o.Announces := by
  intro o ho
  rw [mem_send ho, announces_send]
  exact h

theorem quiet_broadcast {body : Body} {p : Option String} (h : ¬ AnnouncingBody body) :
    ∀ o ∈ S.broadcast body p, ¬ o.Announces := by
  intro o ho
  obtain ⟨_, _, _, _, rfl, _⟩ := mem_broadcast ho
  rw [announces_send]
  exact h

theorem quiet_sendTo {body : Body} {p : String} (h : ¬ AnnouncingBody body) :
    ∀ o ∈ S.sendTo p body, ¬ o.Announces := by
  intro o ho
  obtain ⟨c, rfl⟩ := mem_sendTo ho
  rw [announces_send]
  exact h

theorem quiet_sendHandshake {c : ℕ} {msg : HostMessage} :
    ∀ o ∈ S.sendHandshake c msg, ¬ o.Announces := by
  intro o ho
  rw [mem_sendHandshake ho]
  exact id

/-! ### Connections -/

theorem connIs_iff {c : ℕ} {P : Conn → Bool} :
    ConnIs S c P ↔ ∃ k, S.conns.get c = some k ∧ P k = true := by
  unfold ConnIs
  cases hget : S.conns.get c with
  | none => simp
  | some k => simp

theorem modifyConn_some {c : ℕ} {k : Conn} {f : Conn → Conn} (hget : S.conns.get c = some k) :
    S.modifyConn c f = { S with conns := S.conns.set c (f k) } := by
  unfold SignalingServer.modifyConn
  rw [hget]

theorem modifyConn_none {c : ℕ} {f : Conn → Conn} (hget : S.conns.get c = none) :
    S.modifyConn c f = S := by
  unfold SignalingServer.modifyConn
  rw [hget]

/-- A change of the record of a connection that keeps its stage and its closed flag. -/
theorem does_modifyConn (c : ℕ) (f : Conn → Conn) (hstage : ∀ k, (f k).stage = k.stage)
    (hclosed : ∀ k, (f k).closed = k.closed) : Does L A B S (S.modifyConn c f) [] := by
  cases hget : S.conns.get c with
  | none =>
    rw [modifyConn_none hget]
    exact .refl S
  | some k =>
    rw [modifyConn_some hget]
    exact (Atom.conn c k (f k) hget (.inl (hstage k)) (.inl (hclosed k))).does

/-- A change of the record of a connection that is not admitted, and goes on. -/
theorem does_modifyUnadmitted {c : ℕ} {k : Conn} (f : Conn → Conn) (hget : S.conns.get c = some k)
    (hold : k.stage.admittedAs = none) (hnew : (f k).stage.ongoing = true) :
    Does L A B S (S.modifyConn c f) [] := by
  rw [modifyConn_some hget]
  exact (Atom.conn c k (f k) hget (.inr ⟨hold, hnew⟩) (.inr (.inl hold))).does

/-- The stages with a listener for the close event. -/
def Stage.hearsClose : Stage → Bool
  | .awaiting _ | .joining | .admitted _ => true
  | _ => false

theorem Stage.admittedAs_of_deaf {st : Stage} (h : st.hearsClose = false) :
    st.admittedAs = none := by
  cases st <;> first | rfl | cases h

/-- The record that a close leaves behind where nobody listens. -/
def Conn.shut (k : Conn) : Conn := { k with closed := true }

/-- The record that a close leaves behind where it ends a wait. -/
def Conn.shutAs (k : Conn) (stage : Stage) : Conn := { k with closed := true, stage := stage }

theorem emitClose_eq {c : ℕ} {k : Conn} (hget : S.conns.get c = some k) :
    S.emitClose L c =
      match k.stage with
      | .awaiting _ => (S.setStage c (.failed "closed"), [])
      | .joining => (S.setStage c (.joinFailed "connection closed before message"), [])
      | .admitted p => S.onPeerGone L p
      | _ => (S, []) := by
  unfold SignalingServer.emitClose
  rw [hget]
  cases hst : k.stage <;> simp [hst]

theorem dropConn_none {c : ℕ} (hget : S.conns.get c = none) : S.dropConn L c = (S, []) := by
  unfold SignalingServer.dropConn
  rw [modifyConn_none hget]
  unfold SignalingServer.emitClose
  rw [hget]
  rfl

theorem dropConn_eq {c : ℕ} {k : Conn} (hget : S.conns.get c = some k) :
    S.dropConn L c =
      match k.stage with
      | .awaiting _ =>
        ({ S with conns := S.conns.set c (k.shutAs (.failed "closed")) }, [])
      | .joining =>
        ({ S with
            conns := S.conns.set c (k.shutAs (.joinFailed "connection closed before message")) },
          [])
      | .admitted p => ({ S with conns := S.conns.set c k.shut } : SignalingServer).onPeerGone L p
      | _ => ({ S with conns := S.conns.set c k.shut }, []) := by
  have hshut : S.dropConn L c
      = ({ S with conns := S.conns.set c k.shut } : SignalingServer).emitClose L c := by
    unfold SignalingServer.dropConn
    rw [modifyConn_some hget]
    rfl
  have hnew : ({ S with conns := S.conns.set c k.shut } : SignalingServer).conns.get c
      = some k.shut := InsertionMap.get_set_self _ _ _
  rw [hshut, emitClose_eq hnew]
  have hst : k.shut.stage = k.stage := rfl
  rw [hst]
  cases k.stage with
  | awaiting w =>
    simp only [SignalingServer.setStage]
    rw [modifyConn_some hnew, InsertionMap.set_set]
    rfl
  | joining =>
    simp only [SignalingServer.setStage]
    rw [modifyConn_some hnew, InsertionMap.set_set]
    rfl
  | _ => rfl

theorem dropConn_deaf {c : ℕ} {k : Conn} (hget : S.conns.get c = some k)
    (hdeaf : k.stage.hearsClose = false) :
    S.dropConn L c = ({ S with conns := S.conns.set c k.shut }, []) := by
  rw [dropConn_eq hget]
  cases hst : k.stage <;> first | rfl | (rw [hst] at hdeaf; cases hdeaf)

/-- The departure of a peer on an open server. -/
theorem quiet_onPeerGone {p : String} : ∀ o ∈ (S.onPeerGone L p).2, ¬ o.Announces := by
  intro o ho
  unfold SignalingServer.onPeerGone at ho
  split at ho
  · cases ho
  · have hgone : ∀ o ∈ (if L.media then [Output.mediaPeerGone p] else []), ¬ o.Announces := by
      intro o ho
      split at ho
      · rw [List.mem_singleton.mp ho]
        exact id
      · cases ho
    dsimp only at ho
    split at ho
    · exact hgone o ho
    · rcases List.mem_append.mp ho with ho | ho
      · rcases List.mem_append.mp ho with ho | ho
        · exact hgone o ho
        · exact quiet_broadcast (by simp [AnnouncingBody]) o ho
      · rw [List.mem_singleton.mp ho]
        exact id

theorem onPeerGone_open {p : String} (h : S.closing = false) :
    (S.onPeerGone L p).1 =
      { S with roster := S.roster.remove p, links := S.links.delete p } := by
  unfold SignalingServer.onPeerGone
  rw [h, if_neg Bool.false_ne_true]
  dsimp only
  split <;> rfl

theorem onPeerGone_closing {p : String} (h : S.closing = true) : S.onPeerGone L p = (S, []) := by
  unfold SignalingServer.onPeerGone
  rw [h, if_pos rfl]

/-- **The end of a connection** does the bookkeeping of its wait, or the departure of its peer. -/
theorem does_dropConn (c : ℕ) : Does L A B S (S.dropConn L c).1 (S.dropConn L c).2 := by
  cases hget : S.conns.get c with
  | none =>
    rw [dropConn_none hget]
    exact .refl S
  | some k =>
    have hbook : ∀ k', k.stage.admittedAs = none → k'.stage = k.stage ∨ k'.stage.ongoing = true →
        Does L A B S { S with conns := S.conns.set c k' } [] := fun k' hold hnew =>
      (Atom.conn c k k' hget (hnew.imp_right fun h => ⟨hold, h⟩) (.inr (.inl hold))).does
    rw [dropConn_eq hget]
    cases hst : k.stage with
    | admitted p =>
      let S' : SignalingServer := { S with conns := S.conns.set c k.shut }
      show Does L A B S (S'.onPeerGone L p).1 (S'.onPeerGone L p).2
      by_cases hclosing : S.closing = true
      · have hclosing' : S'.closing = true := hclosing
        rw [onPeerGone_closing hclosing']
        exact (Atom.conn c k k.shut hget (.inl rfl) (.inr (.inr hclosing))).does
      · have hclosing' : S'.closing = false := by simpa using hclosing
        rw [onPeerGone_open hclosing']
        exact (Atom.leave c k p hget hst hclosing').does.withOutput quiet_onPeerGone
    | _ =>
      exact hbook _ (by rw [hst]; rfl) (by first | exact .inl rfl | exact .inr rfl)

/-- `Connection.close`. -/
theorem closeConn_open {c : ℕ} {k : Conn} (hget : S.conns.get c = some k)
    (hopen : k.closed = false) :
    S.closeConn L c = ((S.dropConn L c).1,
      (if S.sourceOpen then [.kick c] else []) ++ (S.dropConn L c).2) := by
  unfold SignalingServer.closeConn
  rw [hget]
  simp [hopen]

theorem closeConn_closed {c : ℕ} (hclosed : ((S.conns.get c).map Conn.closed).getD true = true) :
    S.closeConn L c = (S, []) := by
  unfold SignalingServer.closeConn
  rw [if_pos hclosed]

theorem does_closeConn (c : ℕ) : Does L A B S (S.closeConn L c).1 (S.closeConn L c).2 := by
  unfold SignalingServer.closeConn
  split
  · exact .refl S
  · refine Does.outputThen (fun o ho => ?_) (does_dropConn c)
    split at ho
    · rw [List.mem_singleton.mp ho]
      exact id
    · cases ho

/-- Closing a connection on which nobody hears the close: its record is marked, and that is all. -/
theorem closeConn_deaf {c : ℕ} {k : Conn} (hget : S.conns.get c = some k)
    (hdeaf : k.stage.hearsClose = false) :
    ∃ k', (S.closeConn L c).1 = { S with conns := S.conns.set c k' } ∧ k'.stage = k.stage ∧
      k'.ip = k.ip := by
  cases hclosed : k.closed with
  | true =>
    rw [closeConn_closed (by simp [hget, hclosed])]
    refine ⟨k, ?_, rfl, rfl⟩
    rw [InsertionMap.set_get_self hget]
  | false =>
    rw [closeConn_open hget hclosed, dropConn_deaf hget hdeaf]
    exact ⟨k.shut, rfl, rfl, rfl⟩

/-! ### Messages of a connection -/

/-- A server that is closing stays so. -/
theorem Atom.closing (h : Atom L A B S S₁ out) (hclosing : S.closing = true) : S₁.closing = true := by
  cases h <;> first | exact hclosing | rfl

theorem Does.closing (h : Does L A B S S₁ out) (hclosing : S.closing = true) : S₁.closing = true :=
  h.invariant (I := fun S => S.closing = true) (fun _ _ _ hS hatom => hatom.closing hS) hclosing

theorem quiet_one {o : Output} (h : ¬ o.Announces) : ∀ o' ∈ [o], ¬ o'.Announces := by
  intro o' ho'
  rw [List.mem_singleton.mp ho']
  exact h

theorem does_onPeerMessage (p : String) (body : Body) :
    Does L A B S (S.onPeerMessage L p body).1 (S.onPeerMessage L p body).2 := by
  unfold SignalingServer.onPeerMessage
  cases hlink : S.links.get p with
  | none => exact .refl S
  | some link =>
    have hunexpected : Does L A B S S [.error ("unexpected " ++ body.type ++ " from " ++ p)] :=
      .emit (quiet_one id)
    cases body with
    | ping nonce sentAt => exact .emit (quiet_send id)
    | pong nonce sentAt =>
      let link' := { link with heartbeat := link.heartbeat.map (Heartbeat.onPong nonce) }
      exact (Atom.link p link link' hlink rfl rfl rfl).does
    | bye reason =>
      let link' := { link with reason := LeaveReason.bye }
      exact (Atom.link p link link' hlink rfl rfl rfl).does.trans (does_closeConn link.conn)
    | _ =>
      dsimp only
      split
      · exact (Atom.account _ S.transfers _ S.probes _ le_rfl (.inl rfl)).does.withOutput
          (quiet_one id)
      · exact hunexpected

theorem does_emitItem {c : ℕ} {k : Conn} (item : Item) (hget : S.conns.get c = some k) :
    Does L A B S (S.emitItem L c k.stage item).1 (S.emitItem L c k.stage item).2 := by
  unfold SignalingServer.emitItem
  split
  · next hst =>
    refine does_modifyUnadmitted _ hget (by rw [hst]; rfl) ?_
    dsimp only
    split <;> rfl
  · next hst => exact does_modifyUnadmitted _ hget (by rw [hst]; rfl) rfl
  · next hst => exact does_modifyUnadmitted _ hget (by rw [hst]; rfl) rfl
  · exact does_onPeerMessage _ _
  · exact .refl S

theorem does_deliverItem (c : ℕ) (item : Item) :
    Does L A B S (S.deliverItem L c item).1 (S.deliverItem L c item).2 := by
  unfold SignalingServer.deliverItem
  cases hget : S.conns.get c with
  | none => exact .refl S
  | some k =>
    dsimp only
    split
    · exact does_emitItem item hget
    · exact does_modifyConn c _ (fun _ => rfl) (fun _ => rfl)

theorem does_deliverItems (c : ℕ) (items : List Item) :
    Does L A B S (deliverItems L c items S).1 (deliverItems L c items S).2 := by
  induction items generalizing S with
  | nil => exact .refl S
  | cons item rest ih => exact (does_deliverItem c item).trans ih

theorem does_flush (c : ℕ) : Does L A B S (S.flush L c).1 (S.flush L c).2 := by
  unfold SignalingServer.flush
  have htake : Does L A B S
      (S.modifyConn c fun k => { k with inbox := [], flushQueued := false }) [] :=
    does_modifyConn c _ (fun _ => rfl) (fun _ => rfl)
  exact htake.trans (does_deliverItems c _)

theorem does_fail (c : ℕ) (message : String) :
    Does L A B S (S.fail L c message).1 (S.fail L c message).2 := by
  unfold SignalingServer.fail
  cases hget : S.conns.get c with
  | none => exact .emit (quiet_one id)
  | some k =>
    rw [Option.map_some]
    cases hst : k.stage with
    | awaiting w =>
      exact (does_modifyUnadmitted _ hget (by rw [hst]; rfl) rfl).trans (does_closeConn c)
    | _ => exact .emit (quiet_one id)

theorem does_onFrame (c : ℕ) (frame : Frame) :
    Does L A B S (S.onFrame L c frame).1 (S.onFrame L c frame).2 := by
  unfold SignalingServer.onFrame
  split
  · exact .refl S
  · split
    · exact does_fail c _
    · exact does_fail c _
    · exact does_deliverItem c _
    · split
      · exact does_modifyConn c _ (fun _ => rfl) (fun _ => rfl)
      · exact does_fail c _
    · exact does_fail c _
    · exact does_deliverItem c _

/-! ### Admission -/

theorem quiet_refuse (ip reason : String) : ∀ o ∈ (S.refuse ip reason).2, ¬ o.Announces := by
  intro o ho
  unfold SignalingServer.refuse at ho
  dsimp only at ho
  split at ho
  · rcases List.mem_cons.mp ho with rfl | ho
    · exact id
    · exact quiet_one id o ho
  · cases ho

theorem does_refuse {limiter : RateLimiter} (ip reason : String) (now : ℕ)
    (hlimiter : limiter = S.rateLimiter ∨ limiter = (S.rateLimiter.take now ip).1)
    (hrate : reason = "rate_limited" → (S.rateLimiter.take now ip).2.isSome = true)
    (hbusy : reason = "too_many_handshakes" → maxConcurrentHandshakes ≤ S.activeHandshakes)
    (hB : B ip now) :
    Does L A B S (({ S with rateLimiter := limiter } : SignalingServer).refuse ip reason).1
      (({ S with rateLimiter := limiter } : SignalingServer).refuse ip reason).2 := by
  have hreason : ∀ r, Stage.refused reason = .refused r → reason = r := fun r h => by
    cases h
    rfl
  have hconnect := (Atom.connect (L := L) (A := A) (B := B) (S := S)
    ⟨ip, true, false, [], [], false, .refused reason⟩ ip now S.activeHandshakes limiter rfl
    (Nat.le_succ _) hlimiter (fun h => hrate (hreason _ h)) (fun h => hbusy (hreason _ h)) hB).does
  exact hconnect.withOutput (quiet_refuse ip reason)

theorem does_handleConnection (ip : String) (now : ℕ) (hB : B ip now) :
    Does L A B S (S.handleConnection ip now).1 (S.handleConnection ip now).2 := by
  unfold SignalingServer.handleConnection
  split
  · exact does_refuse ip _ now (.inl rfl) (fun h => absurd h (by decide))
      (fun h => absurd h (by decide)) hB
  · dsimp only
    split
    · next hwait =>
      exact (does_refuse ip _ now (.inr rfl) (fun _ => hwait)
        (fun h => absurd h (by decide)) hB).withOutput (quiet_one id)
    · split
      · next hbusy =>
        exact (does_refuse ip _ now (.inr rfl) (fun h => absurd h (by decide))
          (fun _ => hbusy) hB).withOutput (quiet_one id)
      · exact (Atom.connect ⟨ip, false, false, [], [], true, .awaiting .hello⟩ ip now
          (S.activeHandshakes + 1) _ rfl le_rfl (.inr rfl) (fun h => by cases h)
          (fun h => by cases h) hB).does

/-- Closing a connection whose continuation runs, and ending it. -/
theorem does_closeAndEnd {c : ℕ} {k : Conn} (hget : S.conns.get c = some k)
    (hdeaf : k.stage.hearsClose = false) :
    Does L A B S ((S.closeConn L c).1.setStage c .ended) (S.closeConn L c).2 := by
  obtain ⟨k', hclose, hstage, -⟩ := closeConn_deaf (L := L) hget hdeaf
  have hget' : (S.closeConn L c).1.conns.get c = some k' := by
    rw [hclose]
    exact InsertionMap.get_set_self _ _ _
  have hold : k'.stage.admittedAs = none := by
    rw [hstage]
    exact Stage.admittedAs_of_deaf hdeaf
  have hend : Does L A B (S.closeConn L c).1 ((S.closeConn L c).1.setStage c .ended) [] :=
    does_modifyUnadmitted _ hget' hold rfl
  simpa using (does_closeConn c).trans hend

theorem does_handshakeFailed {c : ℕ} {k : Conn} (ip reason : String)
    (hget : S.conns.get c = some k) (hdeaf : k.stage.hearsClose = false) :
    Does L A B S (S.handshakeFailed L c ip reason).1 (S.handshakeFailed L c ip reason).2 := by
  have hactive : ((S.closeConn L c).1.setStage c .ended).activeHandshakes
      = (S.closeConn L c).1.activeHandshakes := by
    unfold SignalingServer.setStage SignalingServer.modifyConn
    split <;> rfl
  let S' := (S.closeConn L c).1.setStage c .ended
  have haccount := (Atom.account (L := L) (A := A) (B := B) (S := S')
    ((S.closeConn L c).1.activeHandshakes - 1) S'.transfers S'.rateLimiter S'.probes
    S'.mediaPending (by rw [hactive]; exact Nat.sub_le _ _) (.inl rfl)).does
  have hall := (does_closeAndEnd (A := A) (B := B) hget hdeaf).trans haccount
  rw [List.append_nil] at hall
  exact hall.outputThen (quiet_one (o := .peerRejected ip reason) id)

theorem does_upgrade {c : ℕ} {k : Conn} (hget : S.conns.get c = some k)
    (hdeaf : k.stage.hearsClose = false) :
    Does L A B S (S.upgrade L c k).1 (S.upgrade L c k).2 := by
  unfold SignalingServer.upgrade
  generalize replay k.pendingBinary k.inbox = res
  obtain ⟨inbox, ok⟩ := res
  let k' : Conn := { k with encrypted := true, pendingBinary := [], inbox := inbox }
  have hmod : S.modifyConn c
      (fun k => { k with encrypted := true, pendingBinary := [], inbox := inbox })
      = { S with conns := S.conns.set c k' } := modifyConn_some hget
  have hconn : Does L A B S { S with conns := S.conns.set c k' } [] :=
    (Atom.conn c k k' hget (.inl rfl) (.inl rfl)).does
  have hget' : (S.conns.set c k').get c = some k' := InsertionMap.get_set_self _ _ _
  dsimp only
  rw [hmod]
  split
  · let S' : SignalingServer := { S with conns := S.conns.set c k' }
    have haccount := (Atom.account (L := L) (A := A) (B := B) (S := S') (S.activeHandshakes - 1) S.transfers
      (S.rateLimiter.clear k.ip) S.probes S.mediaPending (Nat.sub_le _ _) (.inr ⟨k.ip, rfl⟩)).does
    exact (hconn.trans haccount).trans
      (does_modifyUnadmitted _ hget' (Stage.admittedAs_of_deaf hdeaf) rfl)
  · exact hconn.trans (does_handshakeFailed k.ip _ hget' hdeaf)

theorem does_onReceived {c : ℕ} {k : Conn} (msg : HandshakeMessage)
    (hget : S.conns.get c = some k) (hdeaf : k.stage.hearsClose = false) :
    Does L A B S (S.onReceived L c k msg).1 (S.onReceived L c k msg).2 := by
  have hfailed := fun reason => does_handshakeFailed (L := L) (A := A) (B := B) k.ip reason hget hdeaf
  have hlisten : ∀ w, Does L A B S (S.listen c (.awaiting w)) [] := fun w =>
    does_modifyUnadmitted _ hget (Stage.admittedAs_of_deaf hdeaf) rfl
  cases msg with
  | hello protoVersion roomId =>
    simp only [SignalingServer.onReceived]
    split
    · exact (hfailed _).outputThen quiet_sendHandshake
    · split
      · exact (hfailed _).outputThen quiet_sendHandshake
      · exact (hlisten _).withOutput quiet_sendHandshake
  | pakePeer usable =>
    simp only [SignalingServer.onReceived]
    split
    · exact (hlisten _).withOutput quiet_sendHandshake
    · exact hfailed _
  | pakeConfirm verifies =>
    simp only [SignalingServer.onReceived]
    split
    · exact does_upgrade hget hdeaf
    · exact hfailed _
  | other => exact hfailed _

theorem does_reject {c : ℕ} {k : Conn} (ip : String) (reason : RejectedReason) (text : String)
    (hget : S.conns.get c = some k) (hdeaf : k.stage.hearsClose = false) :
    Does L A B S (S.reject L c ip reason text).1 (S.reject L c ip reason text).2 := by
  have htold : ∀ o ∈ S.send c (.rejected reason), ¬ o.Announces := quiet_send id
  have hclose := (does_closeAndEnd (L := L) (A := A) (B := B) hget hdeaf).outputThen htold
  exact hclose.withOutput (quiet_one (o := .peerRejected ip text) id)

theorem listen_admitted {c : ℕ} {k : Conn} (roster : Roster) (links : InsertionMap String PeerLink)
    (p : String) (hget : S.conns.get c = some k) :
    ({ S with roster := roster, links := links } : SignalingServer).listen c (.admitted p)
      = { S with
          conns := S.conns.set c { k with stage := .admitted p, flushQueued := true }
          roster := roster, links := links } := modifyConn_some hget

/-- **The admission of a peer**: one change, with the draw of the probe. -/
theorem does_admitPeer {c : ℕ} {k : Conn} {join : Join} (draw : Draw)
    (hget : S.conns.get c = some k) (hstage : k.stage = .joinReceived join)
    (hadmits : S.admits L join = true) (hA : A k draw) :
    Does L A B S (S.admitPeer L c k.ip join draw).1 (S.admitPeer L c k.ip join draw).2 := by
  unfold SignalingServer.admitPeer
  dsimp only
  rw [listen_admitted _ _ _ hget]
  generalize hout : SignalingServer.send _ c _ ++ _ ++ _ ++ _ = outs
  have hadmission := (Atom.admission (B := B) c k join draw outs hget hstage hadmits hA).does
  rw [← List.append_nil outs]
  exact hadmission.trans (Atom.account _ _ _ _ _ le_rfl (.inl rfl)).does

theorem admits_iff {join : Join} : S.admits L join = true ↔
    S.roster.size < L.roomParams.maxParticipants ∧
      S.roster.hasNickname L.toLowerCase join.nickname = false := by
  simp [SignalingServer.admits]

theorem does_admitConn {c : ℕ} {k : Conn} {join : Join} (draw : Draw)
    (hget : S.conns.get c = some k) (hstage : k.stage = .joinReceived join)
    (hA : S.admits L join = true → A k draw) :
    Does L A B S (S.admitConn L c k.ip join draw).1 (S.admitConn L c k.ip join draw).2 := by
  have hdeaf : k.stage.hearsClose = false := by rw [hstage]; rfl
  unfold SignalingServer.admitConn
  split
  · exact does_reject k.ip _ _ hget hdeaf
  · next hroom =>
    split
    · exact does_reject k.ip _ _ hget hdeaf
    · next hname =>
      have hadmits : S.admits L join = true :=
        admits_iff.mpr ⟨Nat.lt_of_not_le hroom, by simpa using hname⟩
      exact does_admitPeer draw hget hstage hadmits (hA hadmits)

theorem does_resume (c : ℕ) (draw : Draw)
    (hA : ∀ k join, S.conns.get c = some k → k.stage = .joinReceived join →
      S.admits L join = true → A k draw) :
    Does L A B S (S.resume L c draw).1 (S.resume L c draw).2 := by
  unfold SignalingServer.resume
  cases hget : S.conns.get c with
  | none => exact .refl S
  | some k =>
    dsimp only
    cases hst : k.stage with
    | received msg => exact does_onReceived msg hget (by rw [hst]; rfl)
    | failed reason => exact does_handshakeFailed k.ip reason hget (by rw [hst]; rfl)
    | joinReceived join => exact does_admitConn draw hget hst (hA k join hget hst)
    | joinFailed reason =>
      exact (does_closeAndEnd hget (by rw [hst]; rfl)).outputThen
        (quiet_one (o := .error reason) id)
    | _ => exact .refl S

/-! ### Timers and calls -/

theorem does_timeout (c : ℕ) : Does L A B S (S.timeout c) [] := by
  unfold SignalingServer.timeout
  cases hget : S.conns.get c with
  | none => exact .refl S
  | some k =>
    rw [Option.map_some]
    cases hst : k.stage with
    | awaiting w => exact does_modifyUnadmitted _ hget (by rw [hst]; rfl) rfl
    | joining => exact does_modifyUnadmitted _ hget (by rw [hst]; rfl) rfl
    | _ => exact .refl S

theorem does_tick (p : String) (nonce : ℤ) (now : ℚ) :
    Does L A B S (S.tick L p nonce now).1 (S.tick L p nonce now).2 := by
  unfold SignalingServer.tick
  cases hlink : S.links.get p with
  | none => exact .refl S
  | some link =>
    dsimp only
    cases link.heartbeat with
    | none => exact .refl S
    | some heartbeat =>
      have hbeat : ∀ l' : PeerLink, l'.conn = link.conn → l'.peerId = link.peerId →
          l'.timer = link.timer → Does L A B S { S with links := S.links.set p l' } [] :=
        fun l' hconn hid htimer => (Atom.link p link l' hlink hconn hid htimer).does
      let link' := { link with heartbeat := some (heartbeat.tick nonce).1 }
      dsimp only
      split
      · exact hbeat link' rfl rfl rfl
      · exact (hbeat link' rfl rfl rfl).withOutput (quiet_send id)
      · exact (hbeat { link' with reason := .timeout } rfl rfl rfl).trans (does_closeConn link.conn)

theorem does_probed (p : String) (endpoint : InboundEndpoint) (reachable : Bool) :
    Does L A B S (S.probed p endpoint reachable).1 (S.probed p endpoint reachable).2 := by
  unfold SignalingServer.probed
  have haccount := (Atom.account (L := L) (A := A) (B := B) (S := S) S.activeHandshakes S.transfers
    S.rateLimiter (S.probes.erase (p, endpoint)) S.mediaPending le_rfl (.inl rfl)).does
  dsimp only
  split
  · next link entry hlink hentry =>
    have hupdate := (Atom.entry (L := L) (A := A) (B := B)
      (S := { S with probes := S.probes.erase (p, endpoint) }) p entry
      { entry with
        inboundVerified := reachable
        inboundEndpoint := if reachable then some endpoint else none } hentry rfl rfl rfl rfl).does
    exact (haccount.trans hupdate).withOutput (quiet_broadcast fun h => h rfl)
  · exact haccount

theorem does_mediaReply (p : String) (reply : Option Body)
    (hreply : ∀ body ∈ reply, body.isMediaBody = true) :
    Does L A B S (S.mediaReply p reply).1 (S.mediaReply p reply).2 := by
  unfold SignalingServer.mediaReply
  have haccount := (Atom.account (L := L) (A := A) (B := B) (S := S) S.activeHandshakes S.transfers
    S.rateLimiter S.probes (S.mediaPending.erase p) le_rfl (.inl rfl)).does
  cases reply with
  | none => exact haccount
  | some body =>
    exact haccount.withOutput (quiet_sendTo (not_announcing_of_media (hreply body rfl)))

theorem does_closeLinks (bye : Bool) (links : List PeerLink) :
    Does L A B S (closeLinks L bye links S).1 (closeLinks L bye links S).2 := by
  induction links generalizing S with
  | nil => exact .refl S
  | cons link rest ih =>
    have htold : ∀ o ∈ (if bye then S.send link.conn (.bye "room_closing") else []),
        ¬ o.Announces := by
      intro o ho
      split at ho
      · exact quiet_send id o ho
      · cases ho
    have hone := (does_closeConn (L := L) (A := A) (B := B) (S := S) link.conn).outputThen htold
    exact hone.trans ih

theorem does_shutDown (bye : Bool) : Does L A B S (S.shutDown L bye).1 (S.shutDown L bye).2 := by
  let S₀ : SignalingServer := { S with closing := true }
  have hset : Does L A B S S₀ [] := Atom.setClosing.does
  have hlinks : Does L A B S₀ (closeLinks L bye S₀.links.values S₀).1
      (closeLinks L bye S₀.links.values S₀).2 := does_closeLinks bye _
  have hclear := (hset.trans hlinks).trans (Atom.clear (hlinks.closing rfl)).does
  simpa [SignalingServer.shutDown] using hclear.trans (Atom.source _).does

theorem does_transferHost : Does L A B S (S.transferHost L).1 (S.transferHost L).2 := by
  unfold SignalingServer.transferHost
  split
  · exact does_shutDown true
  · have hset : Does L A B S { S with closing := true } [] := Atom.setClosing.does
    have hstop := hset.trans (Atom.stop rfl).does
    exact (hstop.trans (Atom.account _ _ _ _ _ le_rfl (.inl rfl)).does).withOutput
      (quiet_broadcast id)

theorem does_graceOver : Does L A B S S.graceOver [] := by
  have hset : Does L A B S { S with closing := true } [] := Atom.setClosing.does
  have hclear := (hset.trans (Atom.clear rfl).does).trans (Atom.source S.source.close).does
  exact hclear.trans (Atom.account _ _ _ _ _ le_rfl (.inl rfl)).does

theorem does_dropAll (cs : List ℕ) : Does L A B S (dropAll L cs S).1 (dropAll L cs S).2 := by
  induction cs generalizing S with
  | nil => exact .refl S
  | cons c rest ih =>
    unfold dropAll
    dsimp only
    split
    · exact ih
    · exact (does_dropConn c).trans ih

theorem does_sourceLost (reason : String) :
    Does L A B S (S.sourceLost L reason).1 (S.sourceLost L reason).2 := by
  have hlose : Does L A B S { S with source := .gone } [] := (Atom.source .gone).does
  unfold SignalingServer.sourceLost
  dsimp only
  split
  · refine (hlose.trans (does_dropAll S.conns.keys)).withOutput fun o ho => ?_
    split at ho
    · cases ho
    · exact quiet_one id o ho
  · exact hlose

/-! ### Every event -/

/-- The continuation of `#admit` runs at `e`, on a connection with record `k`, and its join passes.
-/
def AdmitsOn (L : Config) (S : SignalingServer) (e : Event) (k : Conn) (draw : Draw) : Prop :=
  ∃ c join, e = .resume c draw ∧ S.conns.get c = some k ∧ k.stage = .joinReceived join ∧
    S.admits L join = true

/-- **Every event is a sequence of elementary changes**: the only connection a peer is admitted on is
one whose continuation in `#admit` runs, and a new connection is that of the event. -/
theorem does_event {e : Event} (henabled : Enabled L S e)
    (hA : ∀ k draw, AdmitsOn L S e k draw → A k draw)
    (hB : ∀ ip now, e = .connection ip now → B ip now) :
    Does L A B S (react L S e).1 (react L S e).2 := by
  cases e with
  | connection ip now => exact does_handleConnection ip now (hB ip now rfl)
  | deliver c frame => exact does_onFrame c frame
  | drop c => exact does_dropConn c
  | timeout c => exact does_timeout c
  | flush c => exact does_flush c
  | resume c draw =>
    exact does_resume c draw fun k join hget hstage hadmits =>
      hA k draw ⟨c, join, rfl, hget, hstage, hadmits⟩
  | tick p nonce now => exact does_tick p nonce now
  | probed p endpoint reachable => exact does_probed p endpoint reachable
  | mediaReply p reply => exact does_mediaReply p reply henabled.2
  | sendTo p body => exact .emit (quiet_sendTo (not_announcing_of_media henabled.2))
  | broadcast body => exact .emit (quiet_broadcast (not_announcing_of_media henabled.2))
  | transferHost => exact does_transferHost
  | graceOver => exact does_graceOver
  | close => exact does_shutDown true
  | crash => exact does_shutDown false
  | sourceLost reason => exact does_sourceLost reason

/-- The same, where nothing is asked of new connections. -/
theorem does_step {e : Event} (henabled : Enabled L S e)
    (hA : ∀ k draw, AdmitsOn L S e k draw → A k draw) :
    Does L A (fun _ _ => True) S (react L S e).1 (react L S e).2 :=
  does_event henabled hA fun _ _ _ => trivial

/-- An invariant of the elementary changes is an invariant of the server. -/
theorem server_invariant {I : SignalingServer → Prop} {e : Event}
    (hatom : ∀ S S' out, I S → Atom L A (fun _ _ => True) S S' out → I S')
    (henabled : Enabled L S e) (hA : ∀ k draw, AdmitsOn L S e k draw → A k draw) (hI : I S) :
    I ((server L).next S e) :=
  (does_step henabled hA).invariant hatom hI

/-- A join that passes is admitted. -/
theorem resume_of_admits {c : ℕ} {k : Conn} {join : Join} (draw : Draw)
    (hget : S.conns.get c = some k) (hstage : k.stage = .joinReceived join)
    (hadmits : S.admits L join = true) : S.resume L c draw = S.admitPeer L c k.ip join draw := by
  obtain ⟨hroom, hname⟩ := admits_iff.mp hadmits
  unfold SignalingServer.resume
  rw [hget]
  dsimp only
  rw [hstage]
  dsimp only
  unfold SignalingServer.admitConn
  rw [if_neg (Nat.not_le.mpr hroom), hname, if_neg Bool.false_ne_true]

/-- An admission sends, and tells its listeners. -/
theorem mem_admitPeer {c : ℕ} {ip : String} {join : Join} {draw : Draw} {o : Output}
    (ho : o ∈ (S.admitPeer L c ip join draw).2) :
    (∃ d body, o = .send d body) ∨ ∃ p nickname, o = .peerJoined p nickname := by
  unfold SignalingServer.admitPeer at ho
  dsimp only at ho
  simp only [List.mem_append, List.mem_singleton] at ho
  rcases ho with ((ho | ho) | ho) | ho
  · exact .inl ⟨_, _, mem_send ho⟩
  · obtain ⟨_, _, _, _, heq, _⟩ := mem_broadcast ho
    exact .inl ⟨_, _, heq⟩
  · exact .inr ⟨_, _, ho⟩
  · exact .inl ⟨_, _, mem_send ho⟩

/-- What an admission leaves behind. -/
theorem admitPeer_fields {c : ℕ} {k : Conn} {ip : String} (join : Join) (draw : Draw)
    (hget : S.conns.get c = some k) :
    (S.admitPeer L c ip join draw).1.conns
        = S.conns.set c { k with stage := .admitted draw.peerId, flushQueued := true } ∧
      (S.admitPeer L c ip join draw).1.roster.entries
        = S.roster.entries.set draw.peerId (S.newEntry join draw) ∧
      (S.admitPeer L c ip join draw).1.links = S.links.set draw.peerId (newLink L c ip draw) ∧
      (S.admitPeer L c ip join draw).1.closing = S.closing := by
  unfold SignalingServer.admitPeer
  dsimp only
  rw [listen_admitted _ _ _ hget]
  exact ⟨rfl, rfl, rfl, rfl⟩

end ScreenSharing.Signaling
