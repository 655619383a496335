import ScreenSharing.Signaling.Closing

/-!
# Admission

`#admit` looks at the roster after the join has arrived and adds the new entry in the same segment, so
no other admission comes between the checks and the change.  `Orderly` is what this keeps of the
roster: its size, the one host entry, nicknames and joinSeqs that differ.  An event that admits nobody
shrinks the roster or changes what a probe found out; one that admits a peer adds an entry with the
next joinSeq.

`admission_invariants` is the statement about runs.  Ids are drawn at random; that a drawn id is not
in the roster is the one assumption about them.
-/

namespace ScreenSharing.Signaling

open Lib SignalingServer

variable {L : Config} {S S' : SignalingServer} {e : Event} {r : Roster} {out : List Output}
  {B : String → ℕ → Prop}

/-! ### The roster -/

/-- A roster that respects the limits of its room. -/
structure Orderly (L : Config) (r : Roster) : Prop where
  seated : r.Seated
  room : r.size ≤ L.roomParams.maxParticipants
  host : ∃ e, r.entries.get L.hostPeerId = some e ∧ e.isHost = true
  guests : ∀ p e, r.entries.get p = some e → e.isHost = true → p = L.hostPeerId
  names : ∀ p q e f, r.entries.get p = some e → r.entries.get q = some f →
    L.toLowerCase e.nickname = L.toLowerCase f.nickname → p = q

theorem orderly_new (hmax : 1 ≤ L.roomParams.maxParticipants) :
    Orderly L (.new L.hostPeerId L.hostNickname) := by
  have hget : ∀ p e, (Roster.new L.hostPeerId L.hostNickname).entries.get p = some e →
      p = L.hostPeerId := by
    intro p e h
    have hset : (InsertionMap.empty.set L.hostPeerId (⟨L.hostPeerId, L.hostNickname, 0, true, true,
        none, none⟩ : RosterEntry)).get p = some e := h
    rw [InsertionMap.get_set] at hset
    split at hset
    · assumption
    · cases hset
  refine ⟨Roster.seated_new _ _, hmax, ⟨_, InsertionMap.get_set_self _ _ _, rfl⟩,
    fun p e h _ => hget p e h, fun p q e f he hf _ => ?_⟩
  rw [hget p e he, hget q f hf]

theorem Orderly.remove (h : Orderly L r) {p : String} (hp : p ≠ L.hostPeerId) :
    Orderly L (r.remove p) := by
  have hold : ∀ q e, (r.remove p).entries.get q = some e → r.entries.get q = some e :=
    fun q e hget => (InsertionMap.get_of_get_delete hget).1
  refine ⟨h.seated.remove p, ?_, ?_, fun q e hget => h.guests q e (hold q e hget),
    fun q q' e f he hf => h.names q q' e f (hold q e he) (hold q' f hf)⟩
  · exact Nat.le_trans (InsertionMap.size_delete_le _ _) h.room
  · obtain ⟨e, hget, hhost⟩ := h.host
    exact ⟨e, (InsertionMap.get_delete_ne _ hp.symm).trans hget, hhost⟩

/-- An entry is replaced by one with its id, its place and its name. -/
theorem Orderly.update (h : Orderly L r) {p : String} {e e' : RosterEntry}
    (hget : r.entries.get p = some e) (hid : e'.peerId = e.peerId) (hseq : e'.joinSeq = e.joinSeq)
    (hname : e'.nickname = e.nickname) (hhost : e'.isHost = e.isHost) :
    Orderly L { r with entries := r.entries.set p e' } := by
  have hold : ∀ q f, (r.entries.set p e').get q = some f →
      ∃ g, r.entries.get q = some g ∧ f.nickname = g.nickname ∧ f.isHost = g.isHost := by
    intro q f hf
    rw [InsertionMap.get_set] at hf
    split at hf
    · next heq =>
      cases hf
      exact ⟨e, by rw [heq]; exact hget, hname, hhost⟩
    · exact ⟨f, hf, rfl, rfl⟩
  refine ⟨h.seated.update hget hid hseq, ?_, ?_, fun q f hf hyes => ?_,
    fun q q' f f' hf hf' heq => ?_⟩
  · show (r.entries.set p e').size ≤ _
    rw [InsertionMap.size_set_of_get hget]
    exact h.room
  · obtain ⟨g, hg, hyes⟩ := h.host
    by_cases hp : L.hostPeerId = p
    · rw [hp, hget] at hg
      cases hg
      exact ⟨e', by rw [hp]; exact InsertionMap.get_set_self _ _ _, by rw [hhost]; exact hyes⟩
    · exact ⟨g, (InsertionMap.get_set_ne _ _ hp).trans hg, hyes⟩
  · obtain ⟨g, hg, -, hsame⟩ := hold q f hf
    exact h.guests q g hg (by rw [← hsame]; exact hyes)
  · obtain ⟨g, hg, hn, -⟩ := hold q f hf
    obtain ⟨g', hg', hn', -⟩ := hold q' f' hf'
    exact h.names q q' g g' hg hg' (by rw [← hn, ← hn']; exact heq)

theorem ne_of_hasNickname {nickname : String} (h : r.hasNickname L.toLowerCase nickname = false)
    {p : String} {e : RosterEntry} (hget : r.entries.get p = some e) :
    L.toLowerCase e.nickname ≠ L.toLowerCase nickname := by
  have hmem : e ∈ r.entries.values := (InsertionMap.mem_values _ _).mpr ⟨p, hget⟩
  have hne := List.any_eq_false.mp h e hmem
  simpa using hne

/-- **An admission keeps the roster in order**, if the id is new and the checks were passed. -/
theorem Orderly.add (h : Orderly L S.roster) {join : Join} {draw : Draw}
    (hfree : S.roster.entries.get draw.peerId = none) (hadmits : S.admits L join = true) :
    Orderly L (({ S.roster with nextJoinSeq := S.roster.nextJoinSeq + 1 } : Roster).add
      (S.newEntry join draw)) := by
  obtain ⟨hroom, hname⟩ := admits_iff.mp hadmits
  have hcases : ∀ q f, (S.roster.entries.set draw.peerId (S.newEntry join draw)).get q = some f →
      (q = draw.peerId ∧ f = S.newEntry join draw) ∨ S.roster.entries.get q = some f := by
    intro q f hf
    rw [InsertionMap.get_set] at hf
    split at hf
    · next heq =>
      cases hf
      exact .inl ⟨heq, rfl⟩
    · exact .inr hf
  refine ⟨h.seated.add rfl, ?_, ?_, fun q f hf hyes => ?_, fun q q' f f' hf hf' heq => ?_⟩
  · show (S.roster.entries.set draw.peerId _).size ≤ _
    rw [InsertionMap.size_set_of_free hfree]
    exact hroom
  · obtain ⟨e, hget, hyes⟩ := h.host
    have hne : L.hostPeerId ≠ draw.peerId := by
      intro heq
      rw [heq, hfree] at hget
      cases hget
    exact ⟨e, (InsertionMap.get_set_ne _ _ hne).trans hget, hyes⟩
  · rcases hcases q f hf with ⟨-, rfl⟩ | hold
    · cases hyes
    · exact h.guests q f hold hyes
  · rcases hcases q f hf with ⟨rfl, rfl⟩ | hold
    · rcases hcases q' f' hf' with ⟨rfl, -⟩ | hold'
      · rfl
      · exact absurd heq.symm (ne_of_hasNickname hname hold')
    · rcases hcases q' f' hf' with ⟨rfl, rfl⟩ | hold'
      · exact absurd heq (ne_of_hasNickname hname hold)
      · exact h.names q q' f f' hold hold' heq

/-! ### One event -/

/-- The roster is in order, and the host's id is nobody else's. -/
structure InOrder (L : Config) (S : SignalingServer) : Prop where
  roster : Orderly L S.roster
  guests : ∀ c k, S.conns.get c = some k → k.stage.admittedAs ≠ some L.hostPeerId

theorem inOrder_new (hmax : 1 ≤ L.roomParams.maxParticipants) : InOrder L (.new L) :=
  ⟨orderly_new hmax, fun c k h => by cases h⟩

/-- A change that admits nobody. -/
theorem InOrder.atom (h : InOrder L S) (hatom : Atom L (fun _ _ => False) B S S' out) :
    InOrder L S' ∧ S'.roster.nextJoinSeq = S.roster.nextJoinSeq := by
  have hset : ∀ c k', k'.stage.admittedAs ≠ some L.hostPeerId → ∀ d kd,
      (S.conns.set c k').get d = some kd → kd.stage.admittedAs ≠ some L.hostPeerId := by
    intro c k' hk'
    exact InsertionMap.forall_get_set h.guests hk'
  cases hatom with
  | conn c k k' hget hstage =>
    refine ⟨⟨h.roster, hset c k' ?_⟩, rfl⟩
    rcases hstage with heq | ⟨-, hongoing⟩
    · rw [heq]
      exact h.guests c k hget
    · intro hadm
      cases hst : k'.stage with
      | admitted p =>
        rw [hst] at hongoing
        cases hongoing
      | _ =>
        rw [hst] at hadm
        cases hadm
  | leave c k p hget hstage =>
    have hp : p ≠ L.hostPeerId := by
      have hne := h.guests c k hget
      rw [hstage] at hne
      exact fun heq => hne (congrArg some heq)
    exact ⟨⟨h.roster.remove hp, hset c _ (h.guests c k hget)⟩, rfl⟩
  | entry p f f' hget hid hseq hname hhost =>
    exact ⟨⟨h.roster.update hget hid hseq hname hhost, h.guests⟩, rfl⟩
  | connect k ip now active limiter hstage =>
    exact ⟨⟨h.roster, hset S.nextConn k (by rw [hstage]; exact fun h => by cases h)⟩, rfl⟩
  | admission c k join draw out hget hstage hadmits hA => exact hA.elim
  | _ => exact ⟨⟨h.roster, h.guests⟩, rfl⟩

/-- **An event that admits nobody** keeps the order, and hands out no joinSeq. -/
theorem inOrder_of_not_admits (h : InOrder L S) (henabled : Enabled L S e)
    (hnone : ¬ JoinPasses L S e) : InOrder L ((server L).next S e) ∧
      ((server L).next S e).roster.nextJoinSeq = S.roster.nextJoinSeq := by
  have hdoes : Does L (fun _ _ => False) (fun _ _ => True) S (react L S e).1 (react L S e).2 :=
    does_step henabled fun k draw hadm => hnone ⟨k, draw, hadm⟩
  refine hdoes.invariant (I := fun S' => InOrder L S' ∧
    S'.roster.nextJoinSeq = S.roster.nextJoinSeq) (fun S₁ S₂ out hI hatom => ?_) ⟨h, rfl⟩
  obtain ⟨hnext, hseq⟩ := hI.1.atom hatom
  exact ⟨hnext, hseq.trans hI.2⟩

/-- What an admission does to the roster. -/
theorem next_admitsOn {k : Conn} {draw : Draw} (hadm : AdmitsOn L S e k draw) :
    ∃ c join, S.conns.get c = some k ∧ S.admits L join = true ∧
      ((server L).next S e).roster =
        ({ S.roster with nextJoinSeq := S.roster.nextJoinSeq + 1 } : Roster).add
          (S.newEntry join draw) ∧
      ((server L).next S e).conns =
        S.conns.set c { k with stage := .admitted draw.peerId, flushQueued := true } := by
  obtain ⟨c, join, rfl, hget, hstage, hadmits⟩ := hadm
  have hnext : (server L).next S (.resume c draw) = (S.admitPeer L c k.ip join draw).1 :=
    congrArg Prod.fst (resume_of_admits draw hget hstage hadmits)
  refine ⟨c, join, hget, hadmits, ?_, ?_⟩
  · rw [hnext]
    unfold SignalingServer.admitPeer
    dsimp only
    rw [listen_admitted _ _ _ hget]
  · rw [hnext]
    exact (admitPeer_fields join draw hget).1

/-- Whoever is admitted at the event draws an id that is not in the roster. -/
def DrawsFresh (L : Config) (S : SignalingServer) (e : Event) : Prop :=
  ∀ k draw, AdmitsOn L S e k draw → S.roster.entries.has draw.peerId = false

/-- **One event keeps the order**, and no joinSeq is handed out twice. -/
theorem inOrder_next (h : InOrder L S) (henabled : Enabled L S e) (hfresh : DrawsFresh L S e) :
    InOrder L ((server L).next S e) ∧
      S.roster.nextJoinSeq ≤ ((server L).next S e).roster.nextJoinSeq := by
  by_cases hadmits : JoinPasses L S e
  · obtain ⟨k, draw, hadm⟩ := hadmits
    have hfree := (InsertionMap.has_eq_false _ _).mp (hfresh k draw hadm)
    obtain ⟨c, join, hget, hpass, hroster, hconns⟩ := next_admitsOn hadm
    refine ⟨⟨?_, ?_⟩, ?_⟩
    · rw [hroster]
      exact h.roster.add hfree hpass
    · rw [hconns]
      refine InsertionMap.forall_get_set h.guests fun heq => ?_
      obtain ⟨host, hhost, -⟩ := h.roster.host
      have hid : draw.peerId = L.hostPeerId := Option.some.inj heq
      rw [hid, hhost] at hfree
      cases hfree
    · rw [hroster]
      exact Nat.le_succ _
  · obtain ⟨hnext, hseq⟩ := inOrder_of_not_admits h henabled hadmits
    exact ⟨hnext, Nat.le_of_eq hseq.symm⟩

/-! ### Rejections -/

/-- The roster, its counter and the links are left alone. -/
structure Untouched (S S' : SignalingServer) : Prop where
  roster : S'.roster = S.roster
  links : S'.links = S.links

theorem Untouched.trans {S₁ S₂ S₃ : SignalingServer} (h : Untouched S₁ S₂)
    (h' : Untouched S₂ S₃) : Untouched S₁ S₃ :=
  ⟨h'.roster.trans h.roster, h'.links.trans h.links⟩

theorem untouched_modifyConn (c : ℕ) (f : Conn → Conn) : Untouched S (S.modifyConn c f) := by
  unfold SignalingServer.modifyConn
  split <;> exact ⟨rfl, rfl⟩

theorem untouched_closeAndEnd {c : ℕ} {k : Conn} (hget : S.conns.get c = some k)
    (hdeaf : k.stage.hearsClose = false) :
    Untouched S ((S.closeConn L c).1.setStage c .ended) := by
  obtain ⟨k', hclose, -, -⟩ := closeConn_deaf (L := L) hget hdeaf
  have hsame : Untouched S { S with conns := S.conns.set c k' } := ⟨rfl, rfl⟩
  rw [hclose]
  exact hsame.trans (untouched_modifyConn c _)

theorem untouched_handshakeFailed {c : ℕ} {k : Conn} (ip reason : String)
    (hget : S.conns.get c = some k) (hdeaf : k.stage.hearsClose = false) :
    Untouched S (S.handshakeFailed L c ip reason).1 := by
  have hclose := untouched_closeAndEnd (L := L) hget hdeaf
  exact ⟨hclose.roster, hclose.links⟩

theorem untouched_upgrade {c : ℕ} {k : Conn} (hget : S.conns.get c = some k)
    (hdeaf : k.stage.hearsClose = false) : Untouched S (S.upgrade L c k).1 := by
  unfold SignalingServer.upgrade
  generalize replay k.pendingBinary k.inbox = res
  obtain ⟨inbox, ok⟩ := res
  let f : Conn → Conn := fun k => { k with encrypted := true, pendingBinary := [], inbox := inbox }
  have hconn : Untouched S (S.modifyConn c f) := untouched_modifyConn c f
  have hget' : (S.modifyConn c f).conns.get c = some (f k) := by
    rw [modifyConn_some hget]
    exact InsertionMap.get_set_self _ _ _
  dsimp only
  split
  · have hlisten : ∀ S₁ : SignalingServer, Untouched S₁ (S₁.listen c .joining) :=
      fun S₁ => untouched_modifyConn c _
    exact ⟨(hlisten _).roster.trans hconn.roster, (hlisten _).links.trans hconn.links⟩
  · exact hconn.trans (untouched_handshakeFailed k.ip _ hget' hdeaf)

theorem untouched_onReceived {c : ℕ} {k : Conn} (msg : HandshakeMessage)
    (hget : S.conns.get c = some k) (hdeaf : k.stage.hearsClose = false) :
    Untouched S (S.onReceived L c k msg).1 := by
  have hfailed := fun reason => untouched_handshakeFailed (L := L) k.ip reason hget hdeaf
  have hlisten : ∀ w, Untouched S (S.listen c (.awaiting w)) := fun w => untouched_modifyConn c _
  cases msg with
  | hello protoVersion roomId =>
    simp only [SignalingServer.onReceived]
    split
    · exact hfailed "version_mismatch"
    · split
      · exact hfailed "room_id_mismatch"
      · exact hlisten .pakePeer
  | pakePeer usable =>
    simp only [SignalingServer.onReceived]
    split
    · exact hlisten .pakeConfirm
    · exact hfailed "bad_message"
  | pakeConfirm verifies =>
    simp only [SignalingServer.onReceived]
    split
    · exact untouched_upgrade hget hdeaf
    · exact hfailed "bad_password"
  | other => exact hfailed "bad_message"

theorem untouched_admitConn {c : ℕ} {k : Conn} {join : Join} (draw : Draw)
    (hget : S.conns.get c = some k) (hdeaf : k.stage.hearsClose = false)
    (hrejects : S.admits L join ≠ true) : Untouched S (S.admitConn L c k.ip join draw).1 := by
  unfold SignalingServer.admitConn
  split
  · exact untouched_closeAndEnd hget hdeaf
  · next hroom =>
    split
    · exact untouched_closeAndEnd hget hdeaf
    · next hname =>
      exact absurd (admits_iff.mpr ⟨Nat.lt_of_not_le hroom, by simpa using hname⟩) hrejects

/-- **A continuation of `#handleConnection` that admits nobody** touches neither the roster nor the
links: a join that is rejected, a handshake or a wait that fails, a step of the handshake. -/
theorem untouched_resume {c : ℕ} {draw : Draw} (hnone : ¬ JoinPasses L S (.resume c draw)) :
    Untouched S ((server L).next S (.resume c draw)) := by
  show Untouched S (S.resume L c draw).1
  unfold SignalingServer.resume
  cases hget : S.conns.get c with
  | none => exact ⟨rfl, rfl⟩
  | some k =>
    dsimp only
    cases hst : k.stage with
    | received msg => exact untouched_onReceived msg hget (by rw [hst]; rfl)
    | failed reason => exact untouched_handshakeFailed k.ip reason hget (by rw [hst]; rfl)
    | joinReceived join =>
      have hrejects : S.admits L join ≠ true :=
        fun hadmits => hnone ⟨k, draw, c, join, rfl, hget, hst, hadmits⟩
      exact untouched_admitConn draw hget (by rw [hst]; rfl) hrejects
    | joinFailed reason => exact untouched_closeAndEnd hget (by rw [hst]; rfl)
    | _ => exact ⟨rfl, rfl⟩

/-! ### Runs -/

/-- **A run keeps the order**, and no joinSeq is handed out twice. -/
theorem inOrder_exec (es : List Event) : ∀ {S : SignalingServer}, InOrder L S →
    (server L).Valid S es → (server L).Along (DrawsFresh L) S es →
    InOrder L ((server L).exec S es) ∧
      S.roster.nextJoinSeq ≤ ((server L).exec S es).roster.nextJoinSeq := by
  induction es with
  | nil => exact fun h _ _ => ⟨h, Nat.le_refl _⟩
  | cons e es ih =>
    intro S h hvalid hfresh
    obtain ⟨hnext, hle⟩ := inOrder_next h hvalid.1 hfresh.1
    obtain ⟨hend, hle'⟩ := ih hnext hvalid.2 hfresh.2
    exact ⟨hend, Nat.le_trans hle hle'⟩

/-- **The invariants of admission.**  In every run of a room for at least one participant whose drawn
ids are new: the roster stays in order; whoever is admitted gets a joinSeq larger than all those in
any roster before; and a continuation that admits nobody touches neither the roster nor the links. -/
theorem admission_invariants (L : Config) (hmax : 1 ≤ L.roomParams.maxParticipants)
    (es : List Event) (hvalid : (server L).Valid (.new L) es)
    (hfresh : (server L).Along (DrawsFresh L) (.new L) es) :
    Orderly L ((server L).exec (.new L) es).roster ∧
      (∀ pre mid e post k draw, es = pre ++ mid ++ e :: post →
        AdmitsOn L ((server L).exec (.new L) (pre ++ mid)) e k draw →
        ∃ entry, ((server L).exec (.new L) (pre ++ mid ++ [e])).roster.entries.get draw.peerId
            = some entry ∧
          ∀ p earlier, ((server L).exec (.new L) pre).roster.entries.get p = some earlier →
            earlier.joinSeq < entry.joinSeq) ∧
      ∀ pre c draw post, es = pre ++ .resume c draw :: post →
        ¬ JoinPasses L ((server L).exec (.new L) pre) (.resume c draw) →
        Untouched ((server L).exec (.new L) pre)
          ((server L).exec (.new L) (pre ++ [.resume c draw])) := by
  refine ⟨(inOrder_exec es (inOrder_new hmax) hvalid hfresh).1.roster, ?_, ?_⟩
  · rintro pre mid e post k draw rfl hadm
    have hrun := (Machine.along_append _ _ _ _ _).mp hvalid
    have hids := (Machine.along_append _ _ _ _ _).mp hfresh
    obtain ⟨hpre, hmid⟩ := (Machine.along_append _ _ _ _ _).mp hrun.1
    obtain ⟨hpreIds, hmidIds⟩ := (Machine.along_append _ _ _ _ _).mp hids.1
    obtain ⟨horder, -⟩ := inOrder_exec pre (inOrder_new hmax) hpre hpreIds
    obtain ⟨-, hle⟩ := inOrder_exec mid horder hmid hmidIds
    rw [← Machine.exec_append] at hle
    obtain ⟨c, join, -, -, hroster, -⟩ := next_admitsOn hadm
    refine ⟨SignalingServer.newEntry ((server L).exec (.new L) (pre ++ mid)) join draw, ?_,
      fun p earlier hearlier => ?_⟩
    · rw [Machine.exec_append _ _ (pre ++ mid), Machine.exec_cons, Machine.exec_nil, hroster]
      exact InsertionMap.get_set_self _ _ _
    · exact Nat.lt_of_lt_of_le (horder.roster.seated.lt p earlier hearlier) hle
  · rintro pre c draw post - hnone
    rw [Machine.exec_append, Machine.exec_cons, Machine.exec_nil]
    exact untouched_resume hnone

/-- Every draw is of a new id, whether or not a peer is admitted. -/
def FreshDraw (S : SignalingServer) : Event → Prop
  | .resume _ draw => S.roster.entries.has draw.peerId = false
  | _ => True

instance : Decidable (FreshDraw S e) := by
  apply e.casesOn (motive := fun e => Decidable (FreshDraw S e)) <;> intros <;> unfold FreshDraw <;>
    infer_instance

theorem FreshDraw.drawsFresh (h : FreshDraw S e) : DrawsFresh L S e := by
  rintro k draw ⟨c, join, rfl, -⟩
  exact h

/-- Somebody is admitted, and somebody else asks for the same name. -/
def twoAnas : List Event :=
  admission 0 "ana" "p_0000000a" ++ handshake 1 ++
    [.deliver 1 (joinFrame "ana"), .resume 1 ⟨"p_0000000b", 7, 0, []⟩]

theorem admission_invariants_twoAnas :
    Orderly smallRoom ((server smallRoom).exec (.new smallRoom) twoAnas).roster ∧
      ((server smallRoom).exec (.new smallRoom) twoAnas).roster.size = 2 :=
  ⟨(admission_invariants smallRoom (by decide) twoAnas (by decide +kernel)
      (Machine.Along.mono (P := fun S e => FreshDraw S e) (fun _ _ h => h.drawsFresh)
        (by decide +kernel))).1,
    by decide +kernel⟩

end ScreenSharing.Signaling
