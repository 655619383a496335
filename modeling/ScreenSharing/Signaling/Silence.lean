import ScreenSharing.Signaling.Heard

/-!
# Silence after a handoff is announced

`transferHost` announces the successor, sets `#closing` and stops the heartbeats, because any
further frame on a survivor's connection may meet its new handshake.  During the grace wait the
links are still there, though, and `#closing` gates neither `broadcast` and `sendTo` nor what calls
them.

`Addresses` lists, for a state and an event, the peers the event has the server send to.
`silent_iff_undisturbed` says that the list is complete and exact: after the announcement no frame
goes out on a survivor's connection exactly if no event addresses a survivor whose connection is
open.
-/

namespace ScreenSharing.Signaling

open Lib Election SignalingServer

variable {L : Config} {A : Conn → Draw → Prop} {B : String → ℕ → Prop}
  {S S' : SignalingServer} {cs : List ℕ} {out out' : List Output}

/-- The event has the server send to `p`: a ping that is processed, an admission, the result of a
probe, a finished negotiation, a call from the media plane, or a second shutdown. -/
def Addresses (L : Config) (S : SignalingServer) (p : String) : Event → Prop
  | .deliver c frame =>
    frame.isPing = true ∧ ConnIs S c fun k => k.encrypted && k.stage = .admitted p
  | .flush c => ConnIs S c fun k => k.stage = .admitted p && pingsFirst k.inbox
  | .resume c draw => p ≠ draw.peerId ∧ ∃ k, AdmitsOn L S (.resume c draw) k draw
  | .probed q _ _ => S.links.has q = true ∧ S.roster.entries.has q = true
  | .mediaReply q reply => q = p ∧ reply.isSome = true
  | .sendTo q _ => q = p
  | .broadcast _ | .transferHost | .close => True
  | _ => False

/-- The event addresses a peer whose connection is among `cs`, and open. -/
def Disturbs (L : Config) (cs : List ℕ) (S : SignalingServer) (e : Event) : Prop :=
  ∃ p l, OpenLink cs S p l ∧ Addresses L S p e

/-! ### What each event says on the survivors' connections -/

theorem openLink_congr {p : String} {l : PeerLink} (hlinks : S'.links = S.links)
    (hreaches : S'.reaches = S.reaches) : OpenLink cs S' p l ↔ OpenLink cs S p l := by
  unfold OpenLink
  rw [hlinks, hreaches]

theorem reaches_modifyConn {c : ℕ} {f : Conn → Conn} (hclosed : ∀ k, (f k).closed = k.closed) :
    (S.modifyConn c f).reaches = S.reaches := by
  cases hget : S.conns.get c with
  | none => rw [modifyConn_none hget]
  | some k =>
    rw [modifyConn_some hget]
    funext d
    by_cases hd : d = c
    · subst hd
      simp [SignalingServer.reaches, SignalingServer.sourceOpen, hget, hclosed]
    · exact reaches_set hd

theorem links_modifyConn {c : ℕ} {f : Conn → Conn} : (S.modifyConn c f).links = S.links := by
  unfold SignalingServer.modifyConn
  split <;> rfl

/-- Who a connection was admitted as decides whose link its messages concern. -/
theorem admittedAs_eq_some {st : Stage} {p : String} (h : st.admittedAs = some p) :
    st = .admitted p := by
  cases st with
  | admitted q => rw [Option.some.inj h]
  | _ => cases h

theorem heard_deliverItem (hclosing : S.closing = true) (c : ℕ) (item : Item) :
    Heard cs (S.deliverItem L c item).2 ↔ ∃ p l, OpenLink cs S p l ∧
      ConnIs S c (fun k => k.stage = .admitted p) ∧ item.isPing = true := by
  by_cases hadm : ∃ k p, S.conns.get c = some k ∧ k.stage = .admitted p
  · obtain ⟨k, p, hget, hstage⟩ := hadm
    rw [(handles_deliverItem hclosing hget hstage item).heard]
    constructor
    · rintro ⟨⟨l, hl⟩, hping⟩
      exact ⟨p, l, hl, connIs_iff.mpr ⟨k, hget, by simpa using hstage⟩, hping⟩
    · rintro ⟨q, l, hl, hconn, hping⟩
      obtain ⟨k', hget', hstage'⟩ := connIs_iff.mp hconn
      rw [hget] at hget'
      cases hget'
      rw [decide_eq_true_eq, hstage] at hstage'
      cases hstage'
      exact ⟨⟨l, hl⟩, hping⟩
  · have hun : ∀ k, S.conns.get c = some k → k.stage.admittedAs = none := by
      intro k hget
      by_contra hne
      obtain ⟨p, hp⟩ := Option.ne_none_iff_exists'.mp hne
      exact hadm ⟨k, p, hget, admittedAs_eq_some hp⟩
    rw [(deliverItem_unadmitted item hun).1]
    refine iff_of_false not_heard_nil ?_
    rintro ⟨p, l, -, hconn, -⟩
    obtain ⟨k, hget, hstage⟩ := connIs_iff.mp hconn
    exact hadm ⟨k, p, hget, by simpa using hstage⟩

theorem heard_flush (hclosing : S.closing = true) (c : ℕ) :
    Heard cs (S.flush L c).2 ↔ Disturbs L cs S (.flush c) := by
  let S₁ := S.modifyConn c fun k => { k with inbox := [], flushQueued := false }
  have hlink : ∀ p l, OpenLink cs S₁ p l ↔ OpenLink cs S p l := fun p l =>
    openLink_congr links_modifyConn (reaches_modifyConn fun _ => rfl)
  have hclosing₁ : S₁.closing = true :=
    (does_modifyConn (L := L) (A := fun _ _ => True) (B := fun _ _ => True) c
      (fun k => { k with inbox := [], flushQueued := false }) (fun _ => rfl)
      (fun _ => rfl)).closing hclosing
  by_cases hadm : ∃ k p, S.conns.get c = some k ∧ k.stage = .admitted p
  · obtain ⟨k, p, hget, hstage⟩ := hadm
    have hget₁ : S₁.conns.get c = some { k with inbox := [], flushQueued := false } := by
      have hmod : S₁ = _ := modifyConn_some hget
      rw [hmod]
      exact InsertionMap.get_set_self _ _ _
    have hheld : S.flush L c = deliverItems L c k.inbox S₁ := by
      unfold SignalingServer.flush
      rw [hget]
      rfl
    rw [hheld, heard_deliverItems hclosing₁ hget₁ hstage]
    constructor
    · rintro ⟨⟨l, hl⟩, hpings⟩
      exact ⟨p, l, (hlink p l).mp hl, connIs_iff.mpr ⟨k, hget, by simp [hstage, hpings]⟩⟩
    · rintro ⟨q, l, hl, hconn⟩
      obtain ⟨k', hget', hcond⟩ := connIs_iff.mp hconn
      rw [hget] at hget'
      cases hget'
      rw [Bool.and_eq_true, decide_eq_true_eq, hstage] at hcond
      obtain ⟨hq, hpings⟩ := hcond
      cases hq
      exact ⟨⟨l, (hlink p l).mpr hl⟩, hpings⟩
  · have hun : ∀ k, S₁.conns.get c = some k → k.stage.admittedAs = none := by
      intro k hget
      by_contra hne
      obtain ⟨p, hp⟩ := Option.ne_none_iff_exists'.mp hne
      cases hget₀ : S.conns.get c with
      | none =>
        have hmod : S₁ = S := modifyConn_none hget₀
        rw [hmod, hget₀] at hget
        cases hget
      | some k₀ =>
        have hmod : S₁ = _ := modifyConn_some hget₀
        rw [hmod, InsertionMap.get_set_self] at hget
        cases hget
        exact hadm ⟨k₀, p, hget₀, admittedAs_eq_some hp⟩
    have hout : (S.flush L c).2 = [] := deliverItems_unadmitted _ hun
    rw [hout]
    refine iff_of_false not_heard_nil ?_
    rintro ⟨p, l, -, hconn⟩
    obtain ⟨k, hget, hcond⟩ := connIs_iff.mp hconn
    rw [Bool.and_eq_true, decide_eq_true_eq] at hcond
    exact hadm ⟨k, p, hget, hcond.1⟩

theorem on_fail (hclosing : S.closing = true) (c : ℕ) (message : String) :
    ∀ o ∈ (S.fail L c message).2, o.on = none := by
  intro o ho
  unfold SignalingServer.fail at ho
  split at ho
  · have hclosing' : (S.setStage c (.failed "bad_message")).closing = true := by
      unfold SignalingServer.setStage SignalingServer.modifyConn
      split <;> exact hclosing
    exact (closeConn_closing hclosing' c).quiet o ho
  · rw [List.mem_singleton.mp ho]
    rfl

theorem heard_deliver (hclosing : S.closing = true) (c : ℕ) (frame : Frame) :
    Heard cs (S.onFrame L c frame).2 ↔ Disturbs L cs S (.deliver c frame) := by
  have hfail : ∀ message, ¬ Heard cs (S.fail L c message).2 := fun message =>
    not_heard_of_none (on_fail hclosing c message)
  -- no ping, or no encrypted connection: nothing is said
  have hno : ∀ out', ¬ Heard cs out' →
      (frame.isPing = false ∨ ∀ k, S.conns.get c = some k → k.encrypted = false) →
      (Heard cs out' ↔ Disturbs L cs S (.deliver c frame)) := by
    intro out' hout hcond
    refine iff_of_false hout ?_
    rintro ⟨p, l, -, hping, hconn⟩
    obtain ⟨k, hget, hk⟩ := connIs_iff.mp hconn
    rw [Bool.and_eq_true] at hk
    rcases hcond with hcond | hcond
    · rw [hcond] at hping
      cases hping
    · rw [hcond k hget] at hk
      cases hk.1
  unfold SignalingServer.onFrame
  cases hget : S.conns.get c with
  | none => exact hno _ not_heard_nil (.inr fun k hk => by rw [hget] at hk; cases hk)
  | some k =>
    dsimp only
    have hitem : ∀ item : Item, item.isPing = false → ¬ Heard cs (S.deliverItem L c item).2 := by
      intro item hping hheard
      obtain ⟨_, _, _, _, hping'⟩ := (heard_deliverItem hclosing c item).mp hheard
      rw [hping] at hping'
      cases hping'
    cases frame with
    | text msg =>
      refine hno _ ?_ (.inl rfl)
      cases k.encrypted with
      | true => exact hfail _
      | false =>
        cases msg with
        | none => exact hfail _
        | some msg => exact hitem (.handshake msg) rfl
    | binary body =>
      cases henc : k.encrypted with
      | false =>
        have hplain : ∀ k', S.conns.get c = some k' → k'.encrypted = false := by
          intro k' hk'
          rw [hget] at hk'
          cases hk'
          exact henc
        refine hno _ ?_ (.inr hplain)
        cases body
        all_goals
          dsimp only
          split
          · exact not_heard_nil
          · exact hfail _
      | true =>
        cases body with
        | none => exact hno _ (hfail _) (.inl rfl)
        | some body =>
          dsimp only
          rw [heard_deliverItem hclosing]
          have hping : (Frame.binary (some body)).isPing = (Item.message body).isPing := by
            cases body <;> rfl
          refine exists_congr fun p => exists_congr fun l => and_congr_right fun _ => ?_
          show _ ↔ (Frame.binary (some body)).isPing = true ∧ _
          rw [hping, connIs_iff, connIs_iff]
          constructor
          · rintro ⟨⟨k', hk', hst⟩, hp⟩
            rw [hget] at hk'
            cases hk'
            exact ⟨hp, k, hget, by rw [henc]; exact hst⟩
          · rintro ⟨hp, k', hk', hst⟩
            rw [Bool.and_eq_true] at hst
            exact ⟨⟨k', hk', hst.2⟩, hp⟩

/-- The end of a handshake, or of an admission that is refused, is said on that connection only. -/
theorem on_handshakeFailed (hclosing : S.closing = true) (c : ℕ) (ip reason : String) :
    ∀ o ∈ (S.handshakeFailed L c ip reason).2, o.on = none := by
  intro o ho
  rcases List.mem_cons.mp ho with rfl | ho
  · rfl
  · exact (closeConn_closing hclosing c).quiet o ho

theorem on_reject (hclosing : S.closing = true) (c : ℕ) (ip : String) (reason : RejectedReason)
    (text : String) : ∀ o ∈ (S.reject L c ip reason text).2, o.on = none ∨ o.on = some c := by
  intro o ho
  rcases List.mem_append.mp ho with ho | ho
  · rcases List.mem_append.mp ho with ho | ho
    · exact on_send o ho
    · exact .inl ((closeConn_closing hclosing c).quiet o ho)
  · rw [List.mem_singleton.mp ho]
    exact .inl rfl

theorem on_upgrade (hclosing : S.closing = true) (c : ℕ) (k : Conn) :
    ∀ o ∈ (S.upgrade L c k).2, o.on = none := by
  intro o ho
  unfold SignalingServer.upgrade at ho
  generalize replay k.pendingBinary k.inbox = res at ho
  obtain ⟨inbox, ok⟩ := res
  dsimp only at ho
  split at ho
  · cases ho
  · refine on_handshakeFailed ?_ c k.ip _ o ho
    unfold SignalingServer.modifyConn
    split <;> exact hclosing

theorem on_onReceived (hclosing : S.closing = true) (c : ℕ) (k : Conn) (msg : HandshakeMessage) :
    ∀ o ∈ (S.onReceived L c k msg).2, o.on = none ∨ o.on = some c := by
  have hfailed : ∀ reason, ∀ o ∈ (S.handshakeFailed L c k.ip reason).2,
      o.on = none ∨ o.on = some c := fun reason o ho =>
    .inl (on_handshakeFailed hclosing c k.ip reason o ho)
  have hboth : ∀ msg reason, ∀ o ∈ S.sendHandshake c msg ++
      (S.handshakeFailed L c k.ip reason).2, o.on = none ∨ o.on = some c := by
    intro msg reason o ho
    rcases List.mem_append.mp ho with ho | ho
    · exact on_sendHandshake o ho
    · exact hfailed reason o ho
  intro o ho
  cases msg with
  | hello protoVersion roomId =>
    simp only [SignalingServer.onReceived] at ho
    split at ho
    · exact hboth _ _ o ho
    · split at ho
      · exact hboth _ _ o ho
      · exact on_sendHandshake o ho
  | pakePeer usable =>
    simp only [SignalingServer.onReceived] at ho
    split at ho
    · exact on_sendHandshake o ho
    · exact hfailed _ o ho
  | pakeConfirm verifies =>
    simp only [SignalingServer.onReceived] at ho
    split at ho
    · exact .inl (on_upgrade hclosing c k o ho)
    · exact hfailed _ o ho
  | other => exact hfailed _ o ho

/-- A continuation that admits nobody speaks on its own connection only. -/
theorem on_resume (hclosing : S.closing = true) (c : ℕ) (draw : Draw)
    (hno : ¬ ∃ k, AdmitsOn L S (.resume c draw) k draw) :
    ∀ o ∈ (S.resume L c draw).2, o.on = none ∨ o.on = some c := by
  intro o ho
  unfold SignalingServer.resume at ho
  cases hget : S.conns.get c with
  | none =>
    rw [hget] at ho
    cases ho
  | some k =>
    rw [hget] at ho
    dsimp only at ho
    cases hst : k.stage with
    | received msg =>
      rw [hst] at ho
      exact on_onReceived hclosing c k msg o ho
    | failed reason =>
      rw [hst] at ho
      exact .inl (on_handshakeFailed hclosing c k.ip reason o ho)
    | joinReceived join =>
      rw [hst] at ho
      dsimp only [SignalingServer.admitConn] at ho
      split at ho
      · exact on_reject hclosing c k.ip _ _ o ho
      · next hroom =>
        split at ho
        · exact on_reject hclosing c k.ip _ _ o ho
        · next hname =>
          have hadmits : S.admits L join = true :=
            admits_iff.mpr ⟨Nat.lt_of_not_le hroom, by simpa using hname⟩
          exact absurd ⟨k, c, join, rfl, hget, hst, hadmits⟩ hno
    | joinFailed reason =>
      rw [hst] at ho
      rcases List.mem_cons.mp ho with rfl | ho
      · exact .inl rfl
      · exact .inl ((closeConn_closing hclosing c).quiet o ho)
    | _ =>
      rw [hst] at ho
      cases ho

/-! ### The survivors -/

/-- What holds, from the announcement on, of the connections `cs` of the survivors: they stay
admitted, and no timer runs for them. -/
structure Announced (cs : List ℕ) (S : SignalingServer) : Prop where
  closing : S.closing = true
  linked : Linked S
  admitted : ∀ c ∈ cs, ∃ k, S.conns.get c = some k ∧ k.stage.admittedAs ≠ none
  timers : ∀ p l, S.links.get p = some l → l.timer = true → l.conn ∉ cs

theorem Announced.not_mem (h : Announced cs S) {c : ℕ} {k : Conn} (hget : S.conns.get c = some k)
    (hadm : k.stage.admittedAs = none) : c ∉ cs := by
  intro hc
  obtain ⟨k', hk', hadm'⟩ := h.admitted c hc
  rw [hget] at hk'
  cases hk'
  exact hadm' hadm

theorem Announced.nextConn (h : Announced cs S) : S.nextConn ∉ cs := by
  intro hc
  obtain ⟨k, hk, -⟩ := h.admitted _ hc
  exact Nat.lt_irrefl _ (h.linked.fresh _ k hk)

theorem Atom.keepsStages (hlinked : Linked S) (hatom : Atom L A B S S' out) : KeepsStages S S' := by
  cases hatom with
  | conn c k k' hget hstage => exact keepsStages_set _ hget (hstage.symm.imp_left And.left)
  | leave c k p hget => exact keepsStages_set { k with closed := true } hget (.inr rfl)
  | connect k =>
    intro d kd hkd _
    have hd : d ≠ S.nextConn := Nat.ne_of_lt (hlinked.fresh d kd hkd)
    exact ⟨kd, by rw [InsertionMap.get_set_ne _ _ hd]; exact hkd, rfl⟩
  | admission c k join draw out hget hstage =>
    refine keepsStages_set _ hget (.inl ?_)
    rw [hstage]
    rfl
  | _ => exact .refl

theorem Announced.atom (h : Announced cs S) (hatom : Atom L A B S S' out) : Announced cs S' := by
  have hstages := hatom.keepsStages h.linked
  refine ⟨hatom.closing h.closing, h.linked.atom hatom, fun c hc => ?_, fun p l hl htimer => ?_⟩
  · obtain ⟨k, hk, hadm⟩ := h.admitted c hc
    obtain ⟨k', hk', hstage⟩ := hstages c k hk hadm
    exact ⟨k', hk', by rw [hstage]; exact hadm⟩
  · cases hatom with
    | leave _ _ _ _ _ hopen =>
      rw [h.closing] at hopen
      cases hopen
    | link q m m' hget hconn _ htimer' =>
      by_cases hp : p = q
      · subst hp
        rw [InsertionMap.get_set_self] at hl
        cases hl
        rw [hconn]
        exact h.timers p m hget (htimer' ▸ htimer)
      · rw [InsertionMap.get_set_ne _ _ hp] at hl
        exact h.timers p l hl htimer
    | admission c k join draw out hget hstage =>
      by_cases hp : p = draw.peerId
      · subst hp
        rw [InsertionMap.get_set_self] at hl
        cases hl
        exact h.not_mem hget (by rw [hstage]; rfl)
      · rw [InsertionMap.get_set_ne _ _ hp] at hl
        exact h.timers p l hl htimer
    | stop =>
      rw [InsertionMap.get_mapValues, Option.map_eq_some_iff] at hl
      obtain ⟨m, -, rfl⟩ := hl
      cases htimer
    | clear => cases hl
    | _ => exact h.timers p l hl htimer

theorem announced_next {e : Event} (h : Announced cs S) (henabled : Enabled L S e) :
    Announced cs ((server L).next S e) :=
  server_invariant (A := fun _ _ => True) (fun _ _ _ hS hatom => hS.atom hatom) henabled
    (fun _ _ _ => trivial) h

/-! ### One event after the announcement -/

/-- An admission is told to everybody else. -/
theorem heard_admitPeer (h : Announced cs S) {c : ℕ} {k : Conn} {join : Join} (draw : Draw)
    (hget : S.conns.get c = some k) (hstage : k.stage = .joinReceived join)
    (hadmits : S.admits L join = true) :
    Heard cs (S.admitPeer L c k.ip join draw).2 ↔
      ∃ p l, OpenLink cs S p l ∧ p ≠ draw.peerId := by
  have hc : c ∉ cs := h.not_mem hget (by rw [hstage]; rfl)
  unfold SignalingServer.admitPeer
  dsimp only
  rw [listen_admitted _ _ _ hget]
  generalize hS' : ({ S with
    conns := S.conns.set c { k with stage := .admitted draw.peerId, flushQueued := true }
    roster := _, links := S.links.set draw.peerId (newLink L c k.ip draw) } : SignalingServer) = S'
  have hself : ∀ body, ¬ Heard cs (S'.send c body) := fun body =>
    not_heard_of_on hc on_send
  have hother : ∀ p l, p ≠ draw.peerId → (OpenLink cs S' p l ↔ OpenLink cs S p l) := by
    intro p l hp
    subst hS'
    unfold OpenLink
    dsimp only
    rw [InsertionMap.get_set_ne _ _ hp]
    refine and_congr_right fun _ => and_congr_right fun hl => ?_
    have hne : l.conn ≠ c := fun heq => hc (heq ▸ hl)
    have hreach := reaches_set (S := S)
      (k := { k with stage := .admitted draw.peerId, flushQueued := true }) hne
    rw [← hreach]
    rfl
  have hlinked' : Linked S' := by
    have hatom := Atom.admission (A := fun _ _ => True) (B := fun _ _ => True) c k join draw [] hget hstage hadmits trivial
    rw [← hS']
    exact h.linked.atom hatom
  have hjoined : ∀ nickname, ¬ Heard cs [.peerJoined draw.peerId nickname] := fun nickname =>
    not_heard_of_none (by simp [Output.on])
  rw [heard_append, heard_append, heard_append, heard_broadcast hlinked', or_iff_left (hself _),
    or_iff_left (hjoined _), or_iff_right (hself _)]
  refine exists_congr fun p => exists_congr fun l => ?_
  rw [ne_eq, Option.some_inj]
  exact and_congr_left fun hp => hother p l hp

theorem heard_resume (h : Announced cs S) {c : ℕ} (draw : Draw)
    (henabled : Enabled L S (.resume c draw)) :
    Heard cs (S.resume L c draw).2 ↔ Disturbs L cs S (.resume c draw) := by
  by_cases hadm : ∃ k, AdmitsOn L S (.resume c draw) k draw
  · obtain ⟨k, c', join, heq, hget, hstage, hadmits⟩ := hadm
    cases heq
    rw [resume_of_admits draw hget hstage hadmits, heard_admitPeer h draw hget hstage hadmits]
    constructor
    · rintro ⟨p, l, hl, hp⟩
      exact ⟨p, l, hl, hp, k, c, join, rfl, hget, hstage, hadmits⟩
    · rintro ⟨p, l, hl, hp, -⟩
      exact ⟨p, l, hl, hp⟩
  · have hc : c ∉ cs := by
      obtain ⟨k, hget, hqueued⟩ := connIs_iff.mp henabled
      refine h.not_mem hget ?_
      cases hst : k.stage with
      | admitted p =>
        rw [hst] at hqueued
        cases hqueued
      | _ => rfl
    refine iff_of_false (not_heard_of_on hc (on_resume h.closing c draw hadm)) ?_
    rintro ⟨p, l, -, -, hk⟩
    exact hadm hk

/-- Timers that still run belong to peers that joined after the announcement. -/
theorem not_heard_tick (h : Announced cs S) {p : String} (nonce : ℤ) (now : ℚ)
    (henabled : Enabled L S (.tick p nonce now)) : ¬ Heard cs (S.tick L p nonce now).2 := by
  unfold SignalingServer.tick
  cases hl : S.links.get p with
  | none => exact not_heard_nil
  | some link =>
    have htimer : link.timer = true := by
      have hcond : ((S.links.get p).map PeerLink.timer).getD false = true := henabled
      rw [hl] at hcond
      exact hcond
    have hc : link.conn ∉ cs := h.timers p link hl htimer
    dsimp only
    cases link.heartbeat with
    | none => exact not_heard_nil
    | some heartbeat =>
      dsimp only
      split
      · exact not_heard_nil
      · exact not_heard_of_on hc on_send
      · exact not_heard_of_none (closeConn_closing (by exact h.closing) link.conn).quiet

theorem heard_probed (h : Announced cs S) (q : String) (endpoint : InboundEndpoint)
    (reachable : Bool) :
    Heard cs (S.probed q endpoint reachable).2 ↔
      Disturbs L cs S (.probed q endpoint reachable) := by
  unfold SignalingServer.probed
  dsimp only
  split
  · next l entry hl hentry =>
    have hlinked : ∀ roster probes,
        Linked { S with roster := roster, probes := probes } := fun _ _ =>
      ⟨h.linked.fresh, h.linked.linked⟩
    rw [heard_broadcast_all (hlinked _ _)]
    have hl' : S.links.has q = true := (InsertionMap.has_iff _ _).mpr ⟨l, hl⟩
    have hentry' : S.roster.entries.has q = true := (InsertionMap.has_iff _ _).mpr ⟨entry, hentry⟩
    refine exists_congr fun p => exists_congr fun m => ?_
    exact (and_iff_left ⟨hl', hentry'⟩).symm
  · next hno =>
    refine iff_of_false not_heard_nil ?_
    rintro ⟨p, l, -, hl', hentry'⟩
    obtain ⟨m, hm⟩ := (InsertionMap.has_iff _ _).mp hl'
    obtain ⟨entry, hentry⟩ := (InsertionMap.has_iff _ _).mp hentry'
    exact hno m entry hm hentry

theorem heard_sendTo_iff (q : String) (body : Body) :
    Heard cs (S.sendTo q body) ↔ Disturbs L cs S (.sendTo q body) := by
  rw [heard_sendTo]
  constructor
  · rintro ⟨l, hl⟩
    exact ⟨q, l, hl, rfl⟩
  · rintro ⟨p, l, hl, rfl⟩
    exact ⟨l, hl⟩

theorem heard_mediaReply (q : String) (reply : Option Body) :
    Heard cs (S.mediaReply q reply).2 ↔ Disturbs L cs S (.mediaReply q reply) := by
  unfold SignalingServer.mediaReply
  cases reply with
  | none =>
    refine iff_of_false not_heard_nil ?_
    rintro ⟨p, l, -, -, hsome⟩
    cases hsome
  | some body =>
    dsimp only
    rw [heard_sendTo]
    constructor
    · rintro ⟨l, hl⟩
      exact ⟨q, l, hl, rfl, rfl⟩
    · rintro ⟨p, l, hl, rfl, -⟩
      exact ⟨l, hl⟩

/-- The loop over the links tells everybody whose turn finds the connection open. -/
theorem heard_closeLinks (hclosing : S.closing = true) (links : List PeerLink) :
    Heard cs (closeLinks L true links S).2 ↔
      ∃ l ∈ links, l.conn ∈ cs ∧ S.reaches l.conn = true := by
  induction links generalizing S with
  | nil => simp [closeLinks]
  | cons link rest ih =>
    have hshuts := closeConn_closing (L := L) hclosing link.conn
    have hsplit : (closeLinks L true (link :: rest) S).2 =
        S.send link.conn (.bye "room_closing") ++ (S.closeConn L link.conn).2 ++
          (closeLinks L true rest (S.closeConn L link.conn).1).2 := rfl
    rw [hsplit, heard_append, heard_append, heard_send, ih hshuts.closing,
      or_iff_left (not_heard_of_none hshuts.quiet)]
    simp only [List.mem_cons, exists_eq_or_imp, hshuts.reaches]
    constructor
    · rintro (hhead | ⟨l, hl, hc, hreach, -⟩)
      · exact .inl hhead
      · exact .inr ⟨l, hl, hc, hreach⟩
    · rintro (hhead | ⟨l, hl, hc, hreach⟩)
      · exact .inl hhead
      · by_cases heq : l.conn = link.conn
        · exact .inl (heq ▸ ⟨hc, hreach⟩)
        · exact .inr ⟨l, hl, hc, hreach, heq⟩

theorem not_heard_closeLinks (hclosing : S.closing = true) (links : List PeerLink) :
    ¬ Heard cs (closeLinks L false links S).2 := by
  induction links generalizing S with
  | nil => exact not_heard_nil
  | cons link rest ih =>
    have hshuts := closeConn_closing (L := L) hclosing link.conn
    have hsplit : (closeLinks L false (link :: rest) S).2 =
        [] ++ (S.closeConn L link.conn).2 ++
          (closeLinks L false rest (S.closeConn L link.conn).1).2 := rfl
    rw [hsplit, List.nil_append, heard_append]
    exact not_or.mpr ⟨not_heard_of_none hshuts.quiet, ih hshuts.closing⟩

theorem heard_shutDown (hclosing : S.closing = true) :
    Heard cs (S.shutDown L true).2 ↔ ∃ p l, OpenLink cs S p l := by
  have hself : ({ S with closing := true } : SignalingServer) = S := by
    rw [← hclosing]
  have hout : (S.shutDown L true).2 = (closeLinks L true S.links.values S).2 := by
    unfold SignalingServer.shutDown
    rw [hself]
  rw [hout, heard_closeLinks hclosing]
  constructor
  · rintro ⟨l, hl, hc, hreach⟩
    obtain ⟨p, hp⟩ := (InsertionMap.mem_values _ _).mp hl
    exact ⟨p, l, hp, hc, hreach⟩
  · rintro ⟨p, l, hp, hc, hreach⟩
    exact ⟨l, (InsertionMap.mem_values _ _).mpr ⟨p, hp⟩, hc, hreach⟩

theorem heard_transferHost (h : Announced cs S) :
    Heard cs (S.transferHost L).2 ↔ ∃ p l, OpenLink cs S p l := by
  unfold SignalingServer.transferHost
  split
  · exact heard_shutDown h.closing
  · have hself : ({ S with closing := true } : SignalingServer) = S := by
      rw [← h.closing]
    dsimp only
    rw [hself]
    exact heard_broadcast_all h.linked

theorem dropAll_quiet (hclosing : S.closing = true) (ds : List ℕ) :
    (dropAll L ds S).2 = [] ∧ (dropAll L ds S).1.closing = true := by
  induction ds generalizing S with
  | nil => exact ⟨rfl, hclosing⟩
  | cons d rest ih =>
    unfold dropAll
    dsimp only
    split
    · exact ih hclosing
    · next hopen =>
      obtain ⟨k, hget⟩ : ∃ k, S.conns.get d = some k := by
        cases hget : S.conns.get d with
        | none =>
          rw [hget] at hopen
          exact absurd rfl hopen
        | some k => exact ⟨k, rfl⟩
      obtain ⟨k', hdrop, -⟩ := dropConn_closing (L := L) hclosing hget
      rw [hdrop]
      exact ih hclosing

theorem not_heard_sourceLost (hclosing : S.closing = true) (reason : String) :
    ¬ Heard cs (S.sourceLost L reason).2 := by
  unfold SignalingServer.sourceLost
  dsimp only
  split
  · obtain ⟨hout, hclosing'⟩ := dropAll_quiet (L := L) (S := { S with source := .gone }) hclosing
      S.conns.keys
    rw [hout, hclosing']
    exact not_heard_nil
  · exact not_heard_nil

/-- **One event after the announcement**: something is said on a survivor's connection exactly if
the event addresses a survivor whose connection is open. -/
theorem heard_step (h : Announced cs S) {e : Event} (henabled : Enabled L S e) :
    Heard cs ((server L).out S e) ↔ Disturbs L cs S e := by
  -- events that address nobody
  have hno : (∀ p, ¬ Addresses L S p e) → ¬ Heard cs ((server L).out S e) →
      (Heard cs ((server L).out S e) ↔ Disturbs L cs S e) := fun haddr hheard =>
    iff_of_false hheard fun ⟨p, _, _, hp⟩ => haddr p hp
  have hall : (Heard cs ((server L).out S e) ↔ ∃ p l, OpenLink cs S p l) →
      (∀ p, Addresses L S p e) → (Heard cs ((server L).out S e) ↔ Disturbs L cs S e) := by
    intro hheard haddr
    rw [hheard]
    exact exists_congr fun p => exists_congr fun l => (and_iff_left (haddr p)).symm
  cases e with
  | connection ip now =>
    refine hno (fun _ => id) (not_heard_of_on h.nextConn ?_)
    intro o ho
    change o ∈ (S.handleConnection ip now).2 at ho
    unfold SignalingServer.handleConnection at ho
    rw [h.closing, if_pos rfl] at ho
    unfold SignalingServer.refuse at ho
    dsimp only at ho
    split at ho
    · rcases List.mem_cons.mp ho with rfl | ho
      · exact .inr rfl
      · rw [List.mem_singleton.mp ho]
        exact .inl rfl
    · cases ho
  | deliver c frame => exact heard_deliver h.closing c frame
  | drop c =>
    refine hno (fun _ => id) ?_
    obtain ⟨k, hget, -⟩ := connIs_iff.mp henabled.2
    obtain ⟨k', hdrop, -⟩ := dropConn_closing (L := L) h.closing hget
    change ¬ Heard cs (S.dropConn L c).2
    rw [hdrop]
    exact not_heard_nil
  | timeout c => exact hno (fun _ => id) not_heard_nil
  | flush c => exact heard_flush h.closing c
  | resume c draw => exact heard_resume h draw henabled
  | tick p nonce now => exact hno (fun _ => id) (not_heard_tick h nonce now henabled)
  | probed p endpoint reachable => exact heard_probed h p endpoint reachable
  | mediaReply p reply => exact heard_mediaReply p reply
  | sendTo p body => exact heard_sendTo_iff p body
  | broadcast body => exact hall (heard_broadcast_all h.linked) fun _ => trivial
  | transferHost => exact hall (heard_transferHost h) fun _ => trivial
  | graceOver => exact hno (fun _ => id) not_heard_nil
  | close => exact hall (heard_shutDown h.closing) fun _ => trivial
  | crash =>
    refine hno (fun _ => id) ?_
    exact not_heard_closeLinks (S := { S with closing := true }) rfl _
  | sourceLost reason => exact hno (fun _ => id) (not_heard_sourceLost h.closing reason)

/-! ### Runs -/

/-- The connections of the peers that are linked. -/
def survivors (S : SignalingServer) : List ℕ := S.links.values.map PeerLink.conn

/-- A peer can take over. -/
def HasSuccessor (S : SignalingServer) : Prop :=
  successionOrder (electionEntriesFromRoster S.roster.snapshot) ≠ []

instance : Decidable (HasSuccessor S) :=
  inferInstanceAs (Decidable (successionOrder _ ≠ []))

/-- After the announcement, the survivors are those who were linked before it. -/
theorem announced_transferHost (hlinked : Linked S) (hsuccessor : HasSuccessor S) :
    Announced (survivors S) ((server L).next S .transferHost) := by
  have hnext : (server L).next S .transferHost =
      { S with
        closing := true
        links := S.links.mapValues PeerLink.stop
        transfers := S.transfers + 1 } := by
    change (S.transferHost L).1 = _
    unfold SignalingServer.transferHost
    split
    · next hnil => exact absurd hnil hsuccessor
    · rfl
  have hdoes : Linked ((server L).next S .transferHost) :=
    linked_next (e := .transferHost) trivial hlinked
  refine ⟨by rw [hnext], hdoes, fun c hc => ?_, fun p l hl htimer => ?_⟩
  · obtain ⟨l, hl, rfl⟩ := List.mem_map.mp hc
    obtain ⟨p, hp⟩ := (InsertionMap.mem_values _ _).mp hl
    obtain ⟨-, k, hk, hadm⟩ := hlinked.linked p l hp
    exact ⟨k, by rw [hnext]; exact hk, by rw [hadm]; exact Option.some_ne_none p⟩
  · rw [hnext, InsertionMap.get_mapValues, Option.map_eq_some_iff] at hl
    obtain ⟨m, -, rfl⟩ := hl
    cases htimer

/-- No frame goes out on the connections `cs`. -/
def Silent (L : Config) (cs : List ℕ) (S : SignalingServer) (e : Event) : Prop :=
  ¬ Heard cs ((server L).out S e)

/-- The event addresses nobody whose connection is among `cs`, and open. -/
def Undisturbed (L : Config) (cs : List ℕ) (S : SignalingServer) (e : Event) : Prop :=
  ¬ Disturbs L cs S e

/-- **Silence after the announcement, exactly.**  Whatever run led to the announcement and follows
it: no later event has the server send a frame on a survivor's connection if and only if no later
event addresses a survivor whose connection is open. -/
theorem silent_iff_undisturbed (L : Config) (pre post : List Event)
    (hvalid : (server L).Valid (.new L) (pre ++ .transferHost :: post))
    (hsuccessor : HasSuccessor ((server L).exec (.new L) pre)) :
    (server L).Along (Silent L (survivors ((server L).exec (.new L) pre)))
        ((server L).exec (.new L) (pre ++ [.transferHost])) post ↔
      (server L).Along (Undisturbed L (survivors ((server L).exec (.new L) pre)))
        ((server L).exec (.new L) (pre ++ [.transferHost])) post := by
  obtain ⟨hpre, -, hpost⟩ := ((server L).along_append _ _ _ _).mp hvalid
  have hlinked : Linked ((server L).exec (.new L) pre) :=
    Machine.exec_invariant (fun S e hS henabled => linked_next henabled hS) hpre linked_new
  rw [(server L).exec_append]
  refine Machine.along_congr (fun S e hS henabled => announced_next hS henabled)
    (fun S e hS henabled => not_congr (heard_step hS henabled)) hpost ?_
  exact announced_transferHost hlinked hsuccessor

/-- A ping of the successor arrives after the announcement. -/
def latePing : Event := .deliver 0 (.binary (some (.ping 5 0)))

theorem late_ping_answered :
    (server smallRoom).Valid (.new smallRoom)
        (admission 0 "ana" "p_0000000a" ++ .transferHost :: [latePing]) ∧
      HasSuccessor ((server smallRoom).exec (.new smallRoom) (admission 0 "ana" "p_0000000a")) ∧
      ¬ (server smallRoom).Along
        (Silent smallRoom
          (survivors ((server smallRoom).exec (.new smallRoom) (admission 0 "ana" "p_0000000a"))))
        ((server smallRoom).exec (.new smallRoom)
          (admission 0 "ana" "p_0000000a" ++ [.transferHost])) [latePing] := by
  refine ⟨by decide +kernel, by decide +kernel, fun h => ?_⟩
  refine h.1 ⟨.send 0 (.pong 5 0), ?_, 0, ?_, rfl⟩
  · decide +kernel
  · decide +kernel

/-- The grace wait passes without a word. -/
theorem silent_iff_undisturbed_graceOver :
    (server smallRoom).Along
        (Silent smallRoom
          (survivors ((server smallRoom).exec (.new smallRoom) (admission 0 "ana" "p_0000000a"))))
        ((server smallRoom).exec (.new smallRoom)
          (admission 0 "ana" "p_0000000a" ++ [.transferHost])) [.drop 0, .graceOver] ↔
      (server smallRoom).Along
        (Undisturbed smallRoom
          (survivors ((server smallRoom).exec (.new smallRoom) (admission 0 "ana" "p_0000000a"))))
        ((server smallRoom).exec (.new smallRoom)
          (admission 0 "ana" "p_0000000a" ++ [.transferHost])) [.drop 0, .graceOver] :=
  silent_iff_undisturbed smallRoom (admission 0 "ana" "p_0000000a") [.drop 0, .graceOver]
    (by decide +kernel) (by decide +kernel)

end ScreenSharing.Signaling
