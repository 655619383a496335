import ScreenSharing.Signaling.Changes

/-!
# Admission on a closing server

`#closing` is read at the start of `#handleConnection` and not again: neither after the handshake
nor after the wait for the join.  So a connection that got past that check before the flag was set
is admitted as if nothing had happened.  `closedDoor_iff_noLateJoin` says that this is the only
way a closing server admits anybody: along every run, the law holds exactly if no join that passes
the checks of `#admit` is resumed while the server is closing.
-/

namespace ScreenSharing.Signaling

open Lib SignalingServer

variable {L : Config} {S S₁ : SignalingServer} {e : Event} {out : List Output}
  {B : String → ℕ → Prop}

/-- A step that adds nobody to the roster or the links, and tells nobody of a new peer. -/
structure AdmitsNobody (L : Config) (S : SignalingServer) (e : Event) : Prop where
  roster : ∀ p, ((server L).next S e).roster.entries.has p = true → S.roster.entries.has p = true
  links : ∀ p, ((server L).next S e).links.has p = true → S.links.has p = true
  outputs : ∀ o ∈ (server L).out S e, ¬ o.Announces

/-- The join of some connection is resumed, and passes. -/
def JoinPasses (L : Config) (S : SignalingServer) (e : Event) : Prop :=
  ∃ k draw, AdmitsOn L S e k draw

/-- What a sequence of changes without an admission leaves in the roster and the links. -/
theorem Does.keeps (h : Does L (fun _ _ => False) B S S₁ out) :
    (∀ p, S₁.roster.entries.has p = true → S.roster.entries.has p = true) ∧
      (∀ p, S₁.links.has p = true → S.links.has p = true) ∧ ∀ o ∈ out, ¬ o.Announces := by
  induction h with
  | refl => exact ⟨fun _ => id, fun _ => id, fun o ho => by cases ho⟩
  | step _ hatom ih =>
    obtain ⟨hroster, hlinks, hquiet⟩ := ih
    cases hatom with
    | emit _ hout =>
      refine ⟨hroster, hlinks, fun o ho => ?_⟩
      rcases List.mem_append.mp ho with ho | ho
      · exact hquiet o ho
      · exact hout o ho
    | admission _ _ _ _ _ _ _ _ hA => exact hA.elim
    | leave _ _ p =>
      rw [List.append_nil]
      refine ⟨fun q hq => hroster q ?_, fun q hq => hlinks q ?_, hquiet⟩
      · obtain ⟨entry, hentry⟩ := (InsertionMap.has_iff _ _).mp hq
        exact (InsertionMap.has_iff _ _).mpr ⟨entry, (InsertionMap.get_of_get_delete hentry).1⟩
      · obtain ⟨link, hlink⟩ := (InsertionMap.has_iff _ _).mp hq
        exact (InsertionMap.has_iff _ _).mpr ⟨link, (InsertionMap.get_of_get_delete hlink).1⟩
    | link p l l' hget =>
      rw [List.append_nil]
      refine ⟨hroster, fun q hq => hlinks q ?_, hquiet⟩
      exact InsertionMap.has_of_has_set hget hq
    | entry p r r' hget =>
      rw [List.append_nil]
      refine ⟨fun q hq => hroster q ?_, hlinks, hquiet⟩
      exact InsertionMap.has_of_has_set hget hq
    | stop =>
      rw [List.append_nil]
      refine ⟨hroster, fun q hq => hlinks q ?_, hquiet⟩
      simpa [InsertionMap.has] using hq
    | clear =>
      rw [List.append_nil]
      refine ⟨hroster, fun q hq => ?_, hquiet⟩
      cases hq
    | _ =>
      rw [List.append_nil]
      exact ⟨hroster, hlinks, hquiet⟩

theorem admitsNobody_of_not_passes (henabled : Enabled L S e) (hno : ¬ JoinPasses L S e) :
    AdmitsNobody L S e := by
  have hdoes : Does L (fun _ _ => False) (fun _ _ => True) S (react L S e).1 (react L S e).2 :=
    does_step henabled fun k draw hk => hno ⟨k, draw, hk⟩
  obtain ⟨hroster, hlinks, hquiet⟩ := hdoes.keeps
  exact ⟨hroster, hlinks, hquiet⟩

/-- An admission emits `peer-joined`. -/
theorem peerJoined_of_passes (hpasses : JoinPasses L S e) :
    ∃ p nickname, Output.peerJoined p nickname ∈ (server L).out S e := by
  obtain ⟨k, draw, c, join, rfl, hget, hstage, hadmits⟩ := hpasses
  refine ⟨draw.peerId, join.nickname, ?_⟩
  change _ ∈ (S.resume L c draw).2
  rw [resume_of_admits draw hget hstage hadmits]
  simp [SignalingServer.admitPeer, SignalingServer.newEntry]

/-- **An open door, exactly**: a step admits nobody if and only if no join passes at it. -/
theorem admitsNobody_iff (henabled : Enabled L S e) :
    AdmitsNobody L S e ↔ ¬ JoinPasses L S e := by
  constructor
  · intro hnobody hpasses
    obtain ⟨p, nickname, hmem⟩ := peerJoined_of_passes hpasses
    exact hnobody.outputs _ hmem trivial
  · exact admitsNobody_of_not_passes henabled

/-- On a closing server, the step admits nobody. -/
def ClosedDoor (L : Config) (S : SignalingServer) (e : Event) : Prop :=
  S.closing = true → AdmitsNobody L S e

/-- On a closing server, no join passes at the step. -/
def NoLateJoin (L : Config) (S : SignalingServer) (e : Event) : Prop :=
  S.closing = true → ¬ JoinPasses L S e

/-- **No admission after closing, exactly.**  Along any run of the server, closing servers admit
nobody if and only if no join that passes is resumed while the server is closing. -/
theorem closedDoor_iff_noLateJoin (L : Config) (es : List Event)
    (hvalid : (server L).Valid (.new L) es) :
    (server L).Along (ClosedDoor L) (.new L) es ↔
      (server L).Along (NoLateJoin L) (.new L) es := by
  refine Machine.along_congr (I := fun _ => True) (fun _ _ _ _ => trivial)
    (fun S e _ henabled => ?_) hvalid trivial
  exact forall_congr' fun _ => admitsNobody_iff henabled

/-- The handoff is announced while a peer is between its handshake and its join. -/
def lateJoinRun : List Event :=
  admission 0 "ana" "p_0000000a" ++ handshake 1 ++
    [.transferHost, .deliver 1 (joinFrame "bob"), .resume 1 ⟨"p_0000000b", 9, 0, []⟩]

theorem late_join_admitted : (server smallRoom).Valid (.new smallRoom) lateJoinRun ∧
    ¬ (server smallRoom).Along (ClosedDoor smallRoom) (.new smallRoom) lateJoinRun := by
  refine ⟨by decide +kernel, fun halong => ?_⟩
  have hstep := Machine.along_iff_split.mp halong (lateJoinRun.take 27)
    (.resume 1 ⟨"p_0000000b", 9, 0, []⟩) [] rfl (by decide +kernel)
  have hhas := hstep.roster "p_0000000b" (by decide +kernel)
  exact absurd hhas (by decide +kernel)

/-- A join that is resumed, if it passes. -/
def passes (L : Config) (S : SignalingServer) : Event → Bool
  | .resume c _ =>
    match (S.conns.get c).map Conn.stage with
    | some (.joinReceived join) => S.admits L join
    | _ => false
  | _ => false

theorem passes_of_joinPasses (h : JoinPasses L S e) : passes L S e = true := by
  obtain ⟨k, draw, c, join, rfl, hget, hstage, hadmits⟩ := h
  simpa [passes, hget, hstage] using hadmits

/-- The handoff is announced while a peer is between its handshake and its join, and the join that
comes then asks for a nickname that is taken. -/
def refusedJoinRun : List Event :=
  admission 0 "ana" "p_0000000a" ++ handshake 1 ++
    [.transferHost, .deliver 1 (joinFrame "ana"), .resume 1 ⟨"p_0000000b", 9, 0, []⟩, .graceOver]

theorem closedDoor_iff_noLateJoin_refusedJoinRun :
    (server smallRoom).Along (ClosedDoor smallRoom) (.new smallRoom) refusedJoinRun := by
  have hquiet : (server smallRoom).Along (fun S e => S.closing = true → passes smallRoom S e = false)
      (.new smallRoom) refusedJoinRun := by decide +kernel
  exact (closedDoor_iff_noLateJoin smallRoom refusedJoinRun (by decide +kernel)).mpr
    (hquiet.mono fun S e hno hclosing hpasses =>
      Bool.false_ne_true ((hno hclosing).symm.trans (passes_of_joinPasses hpasses)))

end ScreenSharing.Signaling
