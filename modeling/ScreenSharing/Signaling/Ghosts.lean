import ScreenSharing.Signaling.Links

/-!
# Ghosts in the roster

A peer leaves the roster when its connection emits `close`, which a connection does once.  Between
the frame that carries the join and the continuation of `#admit` no close listener is installed, so
a connection that closes in between is admitted all the same, and nobody will hear of its close: the
heartbeat ends in `Connection.close`, a no-op there.

`noGhost_iff_openAdmissions` says that this is the only source of ghosts: along every run, the
roster of a server that is not closing lists live peers only, exactly if no join that passes is
resumed on a connection that has closed.
-/

namespace ScreenSharing.Signaling

open Lib SignalingServer

variable {L : Config} {A : Conn → Draw → Prop} {B : String → ℕ → Prop}
  {S S' : SignalingServer} {e : Event} {out : List Output}

/-- The peer has a link, whose connection is not closed. -/
def Live (S : SignalingServer) (p : String) : Prop :=
  ∃ l k, S.links.get p = some l ∧ S.conns.get l.conn = some k ∧ k.closed = false

/-- Unless the server is closing, everybody in the roster but the host is live. -/
def NoGhost (L : Config) (S : SignalingServer) : Prop :=
  S.closing = false → ∀ p, p ≠ L.hostPeerId → S.roster.entries.has p = true → Live S p

/-- No continuation is queued. -/
def AtRest (S : SignalingServer) : Prop :=
  ∀ k ∈ S.conns.values, k.stage.queued = false ∧ k.flushQueued = false

instance : Decidable (AtRest S) :=
  inferInstanceAs (Decidable (∀ k ∈ S.conns.values, _))

/-- A live peer stays live when the record of another connection changes. -/
theorem Live.setConn {p : String} (hlive : Live S p) {c : ℕ} (k : Conn)
    (hne : ∀ l, S.links.get p = some l → l.conn ≠ c) :
    Live { S with conns := S.conns.set c k } p := by
  obtain ⟨l, kl, hl, hkl, hopen⟩ := hlive
  exact ⟨l, kl, hl, by rw [InsertionMap.get_set_ne _ _ (hne l hl)]; exact hkl, hopen⟩

/-- **What makes no ghost**: an elementary change that admits on open connections only, but for a
peer with the host's id, leaves no ghost behind. -/
theorem NoGhost.atom (hlinked : Linked S) (h : NoGhost L S)
    (hA : ∀ k draw, A k draw → S.closing = true ∨ k.closed = false ∨ draw.peerId = L.hostPeerId)
    (hatom : Atom L A B S S' out) : NoGhost L S' := by
  intro hopen p hp hhas
  cases hatom with
  | conn c k k' hget hstage hclosed =>
    obtain ⟨l, kl, hl, hkl, hkopen⟩ := h hopen p hp hhas
    by_cases hc : l.conn = c
    · -- the connection of a link is not closed by a change of its record
      obtain ⟨-, ka, hka, hadm⟩ := hlinked.linked p l hl
      rw [hc, hget] at hkl hka
      cases hkl
      cases hka
      refine ⟨l, k', hl, by rw [hc]; exact InsertionMap.get_set_self _ _ _, ?_⟩
      rcases hclosed with heq | hnone | hclosing
      · rw [heq]
        exact hkopen
      · rw [hnone] at hadm
        cases hadm
      · exact absurd hclosing (by rw [hopen]; exact Bool.false_ne_true)
    · exact ⟨l, kl, hl, by rw [InsertionMap.get_set_ne _ _ hc]; exact hkl, hkopen⟩
  | leave c k q hget hstage =>
    obtain ⟨entry, hentry⟩ := (InsertionMap.has_iff _ _).mp hhas
    obtain ⟨hentry, hpq⟩ := InsertionMap.get_of_get_delete hentry
    obtain ⟨l, kl, hl, hkl, hkopen⟩ := h hopen p hp ((InsertionMap.has_iff _ _).mpr ⟨entry, hentry⟩)
    have hc : l.conn ≠ c := by
      refine hlinked.ne_conn hl hget ?_
      rw [hstage]
      exact fun heq => hpq (Option.some.inj heq).symm
    refine ⟨l, kl, ?_, by rw [InsertionMap.get_set_ne _ _ hc]; exact hkl, hkopen⟩
    rw [InsertionMap.get_delete_ne _ hpq]
    exact hl
  | link q l l' hget hconn =>
    obtain ⟨m, km, hm, hkm, hkopen⟩ := h hopen p hp hhas
    by_cases hq : p = q
    · subst hq
      rw [hget] at hm
      cases hm
      exact ⟨l', km, InsertionMap.get_set_self _ _ _, by rw [hconn]; exact hkm, hkopen⟩
    · exact ⟨m, km, by rw [InsertionMap.get_set_ne _ _ hq]; exact hm, hkm, hkopen⟩
  | entry q r r' hget => exact h hopen p hp (InsertionMap.has_of_has_set hget hhas)
  | connect k =>
    refine (h hopen p hp hhas).setConn k fun l hl => ?_
    obtain ⟨-, kl, hkl, -⟩ := hlinked.linked p l hl
    exact Nat.ne_of_lt (hlinked.fresh _ kl hkl)
  | admission c k join draw out hget hstage hadmits hAk =>
    by_cases heq : p = draw.peerId
    · subst heq
      refine ⟨newLink L c k.ip draw, _, InsertionMap.get_set_self _ _ _,
        InsertionMap.get_set_self _ _ _, ?_⟩
      rcases hA k draw hAk with hclosing | hkopen | hhost
      · exact absurd hclosing (by rw [hopen]; exact Bool.false_ne_true)
      · exact hkopen
      · exact absurd hhost hp
    · have hhas' : S.roster.entries.has p = true := by
        have hset : (S.roster.entries.set draw.peerId (S.newEntry join draw)).has p = true := hhas
        rwa [InsertionMap.has, InsertionMap.get_set_ne _ _ heq] at hset
      obtain ⟨l, kl, hl, hkl, hkopen⟩ := h hopen p hp hhas'
      have hc : l.conn ≠ c := by
        refine hlinked.ne_conn hl hget ?_
        rw [hstage]
        exact fun heq => by cases heq
      refine ⟨l, kl, ?_, by rw [InsertionMap.get_set_ne _ _ hc]; exact hkl, hkopen⟩
      rw [InsertionMap.get_set_ne _ _ heq]
      exact hl
  | setClosing => cases hopen
  | stop hclosing => exact absurd hclosing (by rw [hopen]; exact Bool.false_ne_true)
  | clear hclosing => exact absurd hclosing (by rw [hopen]; exact Bool.false_ne_true)
  | _ => exact h hopen p hp hhas

/-- The step leaves no ghost behind. -/
def LeavesNoGhost (L : Config) (S : SignalingServer) (e : Event) : Prop :=
  NoGhost L ((server L).next S e)

/-- Unless the server is closing, a join that passes is resumed on an open connection. -/
def OpenAdmissions (L : Config) (S : SignalingServer) (e : Event) : Prop :=
  ∀ k draw, AdmitsOn L S e k draw →
    S.closing = true ∨ k.closed = false ∨ draw.peerId = L.hostPeerId

/-- One step from a roster without ghosts. -/
theorem leavesNoGhost_of_open (hlinked : Linked S) (h : NoGhost L S) (henabled : Enabled L S e)
    (hadmissions : OpenAdmissions L S e) : LeavesNoGhost L S e := by
  -- the flag `closing` of a state in between is at least that of the state before the event
  let I : SignalingServer → Prop := fun S' =>
    Linked S' ∧ NoGhost L S' ∧ (S.closing = true → S'.closing = true)
  have hinv : I ((server L).next S e) :=
    server_invariant (fun S₁ S₂ out hI hatom =>
      ⟨hI.1.atom hatom,
        NoGhost.atom hI.1 hI.2.1 (fun k draw hk => hk.imp_left hI.2.2) hatom,
        fun hclosing => hatom.closing (hI.2.2 hclosing)⟩)
      henabled hadmissions ⟨hlinked, h, id⟩
  exact hinv.2.1

/-- An admission on a closed connection leaves a ghost. -/
theorem open_of_leavesNoGhost (h : LeavesNoGhost L S e) : OpenAdmissions L S e := by
  rintro k draw ⟨c, join, rfl, hget, hstage, hadmits⟩
  by_contra hcon
  push Not at hcon
  obtain ⟨hclosing, hclosed, hhost⟩ := hcon
  have hnext : (server L).next S (.resume c draw) = (S.admitPeer L c k.ip join draw).1 :=
    congrArg Prod.fst (resume_of_admits draw hget hstage hadmits)
  obtain ⟨hconns, hroster, hlinks, hflag⟩ := admitPeer_fields (L := L) join draw hget
  unfold LeavesNoGhost at h
  rw [hnext] at h
  have hhas : (S.admitPeer L c k.ip join draw).1.roster.entries.has draw.peerId = true := by
    rw [hroster]
    exact (InsertionMap.has_iff _ _).mpr ⟨_, InsertionMap.get_set_self _ _ _⟩
  obtain ⟨l, kl, hl, hkl, hopen⟩ := h (by rw [hflag]; simpa using hclosing) draw.peerId hhost hhas
  rw [hlinks, InsertionMap.get_set_self] at hl
  cases hl
  rw [hconns] at hkl
  have hself : (S.conns.set c
      { k with stage := .admitted draw.peerId, flushQueued := true }).get c = some kl := hkl
  rw [InsertionMap.get_set_self] at hself
  cases hself
  exact hclosed hopen

theorem noGhost_new : NoGhost L (.new L) := by
  intro _ p hp hhas
  have hset : (InsertionMap.empty.set L.hostPeerId
      ⟨L.hostPeerId, L.hostNickname, 0, true, true, none, none⟩ :
      InsertionMap String RosterEntry).has p = true := hhas
  rw [InsertionMap.has, InsertionMap.get_set_ne _ _ hp] at hset
  cases hset

/-- **No ghosts, exactly.**  Along any run of the server, every step leaves a roster without ghosts
if and only if no join that passes is resumed on a closed connection while the server is not
closing. -/
theorem noGhost_iff_openAdmissions (L : Config) (es : List Event)
    (hvalid : (server L).Valid (.new L) es) :
    (server L).Along (LeavesNoGhost L) (.new L) es ↔
      (server L).Along (OpenAdmissions L) (.new L) es := by
  constructor
  · exact Machine.Along.mono fun S e => open_of_leavesNoGhost
  · intro hadmissions
    refine Machine.along_of_invariant (G := fun S e => Enabled L S e ∧ OpenAdmissions L S e)
      (I := fun S => Linked S ∧ NoGhost L S) (fun S e hI hG => ?_) (fun S e hI hG => ?_)
      (Machine.along_and.mpr ⟨hvalid, hadmissions⟩) ⟨linked_new, noGhost_new⟩
    · exact ⟨linked_next hG.1 hI.1, leavesNoGhost_of_open hI.1 hI.2 hG.1 hG.2⟩
    · exact leavesNoGhost_of_open hI.1 hI.2 hG.1 hG.2

/-- The join of a peer and its disconnect arrive together. -/
def ghostRun : List Event :=
  handshake 0 ++
    [.deliver 0 (joinFrame "ana"), .drop 0, .resume 0 ⟨"p_0000000a", 7, 0, []⟩, .flush 0]

theorem ghost_run_leaves_ghost : (server smallRoom).Valid (.new smallRoom) ghostRun ∧
    AtRest ((server smallRoom).exec (.new smallRoom) ghostRun) ∧
    ¬ NoGhost smallRoom ((server smallRoom).exec (.new smallRoom) ghostRun) := by
  refine ⟨by decide +kernel, by decide +kernel, fun h => ?_⟩
  obtain ⟨l, k, hl, hk, hopen⟩ := h (by decide +kernel) "p_0000000a" (by decide) (by decide +kernel)
  have hclosed : (((server smallRoom).exec (.new smallRoom) ghostRun).links.get "p_0000000a").bind
      (fun l =>
        (((server smallRoom).exec (.new smallRoom) ghostRun).conns.get l.conn).map Conn.closed)
      = some true := by decide +kernel
  rw [hl, Option.bind_some, hk, Option.map_some, hopen] at hclosed
  cases hclosed

theorem noGhost_iff_openAdmissions_admission :
    (server smallRoom).Along (LeavesNoGhost smallRoom) (.new smallRoom)
        (admission 0 "ana" "p_0000000a") ↔
      (server smallRoom).Along (OpenAdmissions smallRoom) (.new smallRoom)
        (admission 0 "ana" "p_0000000a") :=
  noGhost_iff_openAdmissions smallRoom _ (by decide +kernel)

end ScreenSharing.Signaling
