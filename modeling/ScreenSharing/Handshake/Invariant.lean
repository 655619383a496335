import ScreenSharing.Handshake.Exchange

/-!
# What holds between two honest sides

A run of two honest sides has two parts.  In the first one both are in the clear.  In the second one
the peer is upgraded (`PeerUp`), and the host is in one of three phases (`HostPhase`): it waits for the
confirmation, behind which the frames of the peer are on their way; it has the confirmation and has
not resumed, and early frames gather; or it is upgraded, and what it has heard, its inbox and the frames
on their way are together all that the peer has sent, in this order.

The host hears in order because a delivery finds the inbox empty whenever somebody listens: the flush
that a new listener queues is run before the next turn (`hprompt`).
-/

namespace ScreenSharing.Handshake

open Lib Crypto Net

variable {P J : Type*} [AddCommGroup P] {L : Setup P J}

def binary (frames : List Bytes) : List Frame := frames.map fun data => (data, true)

theorem binary_frames_append (hC : L.Correct) (role : ConnectionRole) (n : ℕ)
    (envs envs' : List Envelope) : binary (Setup.frames hC role n (envs ++ envs')) =
      binary (Setup.frames hC role n envs) ++
        binary (Setup.frames hC role (n + envs.length) envs') := by
  unfold binary
  rw [Setup.frames_append, List.map_append]

/-! ### The invariant -/

inductive PeerStage (L : Setup P J) (p : Peer L.prim.order) : Prop
  | returned (hpc : p.pc = .returned L.isk) (hsaid : p.said = []) (hseq : p.conn.seq = 0)
      (hepoch : p.conn.epoch = 0)
  | joined (listening : Bool) (rest : List Envelope) (hpc : p.pc = .sentJoin listening)
      (hsaid : p.said = L.joinEnvelope :: rest)

/-- The peer is upgraded. -/
structure PeerUp (hC : L.Correct) (S : Room L.prim.order) : Prop where
  stage : PeerStage L S.peer
  tasks : Tasks S.peer.queue S.peer.pc.settled
  channel : ∃ taken later, S.host.said = taken ++ later ∧ Linked hC .peer S.peer taken.length ∧
    S.toPeer = binary (Setup.frames hC .host taken.length later)

inductive HostStage (h : Host) : Prop
  | returned (isk : Bytes) (hpc : h.pc = .returned isk) (hheard : h.heard = [])
  | awaitJoin (hpc : h.pc = .awaitJoin) (hheard : h.heard = [])
  | gotJoin (join : Join) (hpc : h.pc = .gotJoin join) (hheard : h.heard ≠ [])
  | admitted (hpc : h.pc = .admitted) (hheard : h.heard ≠ [])

/-- How far the host is, once the peer is upgraded. -/
inductive HostPhase (hC : L.Correct) (S : Room L.prim.order) : Prop
  | waiting (hfresh : Fresh L.hostConn S.host false) (hpc : S.host.pc = .awaitConfirm L.responded)
      (htoHost : S.toHost =
        texts L [L.pakeConfirm] ++ binary (Setup.frames hC .peer 0 S.peer.said))
  | confirmed (early later : List Envelope) (hsaid : S.peer.said = early ++ later)
      (hfresh : Fresh { L.hostConn with pendingBinary := Setup.frames hC .peer 0 early } S.host true)
      (hpc : S.host.pc = .gotConfirm L.responded (bytesToHex L.macPeer))
      (htoHost : S.toHost = binary (Setup.frames hC .peer early.length later))
  | up (held later : List Envelope) (hsaid : S.peer.said = S.host.heard ++ held ++ later)
      (hlinked : Linked hC .host S.host (S.host.heard ++ held).length)
      (hstage : HostStage S.host) (htasks : Tasks S.host.queue S.host.pc.settled)
      (hinbox : S.host.conn.inbox = held.map .message)
      (htoHost : S.toHost = binary (Setup.frames hC .peer (S.host.heard ++ held).length later))
      (hprompt : hostListens S.host.pc .message = true → held ≠ [] →
        S.host.draining = true ∧ .flush ∈ S.host.queue)

/-- What holds in every run of honest sides. -/
def Sound (hC : L.Correct) (S : Room L.prim.order) : Prop :=
  Clear S ∨ PeerUp hC S ∧ HostPhase hC S

/-! ### One side at a time -/

section

variable {hC : L.Correct} {S S' : Room L.prim.order}

/-- The host does not notice what the peer does, except for the frame that it sends. -/
theorem HostPhase.of_peer (h : HostPhase hC S) (hhost : S'.host = S.host)
    (hsent : S'.peer.said = S.peer.said ∧ S'.toHost = S.toHost ∨ ∃ env,
      S'.peer.said = S.peer.said ++ [env] ∧
        S'.toHost = S.toHost ++ [(Setup.frame hC .peer S.peer.said.length env, true)]) :
    HostPhase hC S' := by
  -- what is new on the channel
  obtain ⟨new, hsaid', htoHost'⟩ : ∃ new, S'.peer.said = S.peer.said ++ new ∧
      S'.toHost = S.toHost ++ binary (Setup.frames hC .peer S.peer.said.length new) := by
    rcases hsent with ⟨hsaid, htoHost⟩ | ⟨env, hsaid, htoHost⟩
    · exact ⟨[], by rw [List.append_nil, hsaid], by rw [htoHost]; exact (List.append_nil _).symm⟩
    · exact ⟨[env], hsaid, htoHost⟩
  cases h with
  | waiting hfresh hpc htoHost =>
    refine .waiting (by rw [hhost]; exact hfresh) (by rw [hhost]; exact hpc) ?_
    rw [htoHost', htoHost, hsaid', binary_frames_append, Nat.zero_add, List.append_assoc]
  | confirmed early later hsaid hfresh hpc htoHost =>
    refine .confirmed early (later ++ new) ?_ (by rw [hhost]; exact hfresh)
      (by rw [hhost]; exact hpc) ?_
    · rw [hsaid', hsaid, List.append_assoc]
    · rw [htoHost', htoHost, binary_frames_append, hsaid, List.length_append]
  | up held later hsaid hlinked hstage htasks hinbox htoHost hprompt =>
    rw [← hhost] at hlinked hstage htasks hinbox hprompt
    refine .up held (later ++ new) ?_ hlinked hstage htasks hinbox ?_ hprompt
    · rw [hsaid', hhost, hsaid, List.append_assoc]
    · have hlen : S.peer.said.length = (S.host.heard ++ held).length + later.length := by
        rw [hsaid, List.length_append]
      rw [hhost, htoHost', htoHost, binary_frames_append, hlen]

/-- The peer does not notice what the host does, except for the frame that it sends. -/
theorem PeerUp.of_host (h : PeerUp hC S) (hpeer : S'.peer = S.peer)
    (hsent : S'.host.said = S.host.said ∧ S'.toPeer = S.toPeer ∨ ∃ env,
      S'.host.said = S.host.said ++ [env] ∧
        S'.toPeer = S.toPeer ++ [(Setup.frame hC .host S.host.said.length env, true)]) :
    PeerUp hC S' := by
  obtain ⟨taken, later, hsaid, hlinked, htoPeer⟩ := h.channel
  refine ⟨by rw [hpeer]; exact h.stage, by rw [hpeer]; exact h.tasks, ?_⟩
  rcases hsent with ⟨hsaid', htoPeer'⟩ | ⟨env, hsaid', htoPeer'⟩
  · exact ⟨taken, later, by rw [hsaid', hsaid], by rw [hpeer]; exact hlinked,
      by rw [htoPeer', htoPeer]⟩
  · refine ⟨taken, later ++ [env], ?_, by rw [hpeer]; exact hlinked, ?_⟩
    · rw [hsaid', hsaid, List.append_assoc]
    · rw [htoPeer', htoPeer, hsaid, List.length_append, binary_frames_append]
      rfl

/-- What the host has sent can be received. -/
theorem HostPhase.sendable (h : HostPhase hC S) :
    (∀ env ∈ S.host.said, L.Sendable env) ∧ S.host.said.length ≤ maxU64 + 1 := by
  have hfresh : ∀ {conn settled}, Fresh conn S.host settled →
      (∀ env ∈ S.host.said, L.Sendable env) ∧ S.host.said.length ≤ maxU64 + 1 := by
    intro conn settled hfresh
    rw [hfresh.said]
    exact ⟨fun env henv => absurd henv List.not_mem_nil, Nat.zero_le _⟩
  cases h with
  | waiting hf _ _ => exact hfresh hf
  | confirmed _ _ _ hf _ _ => exact hfresh hf
  | up _ _ _ hlinked _ _ _ _ _ => exact ⟨hlinked.sendable, hlinked.bound⟩

/-- What the peer has sent can be received. -/
theorem PeerUp.sendable (h : PeerUp hC S) :
    (∀ env ∈ S.peer.said, L.Sendable env) ∧ S.peer.said.length ≤ maxU64 + 1 := by
  obtain ⟨_, _, _, hlinked, _⟩ := h.channel
  exact ⟨hlinked.sendable, hlinked.bound⟩

theorem PeerStage.congr {p p' : Peer L.prim.order} (h : PeerStage L p) (hpc : p'.pc = p.pc)
    (hsaid : p'.said = p.said) (hseq : p'.conn.seq = p.conn.seq)
    (hepoch : p'.conn.epoch = p.conn.epoch) : PeerStage L p' := by
  cases h with
  | returned hpc' hsaid' hseq' hepoch' =>
    exact .returned (hpc.trans hpc') (hsaid.trans hsaid') (hseq.trans hseq') (hepoch.trans hepoch')
  | joined listening rest hpc' hsaid' =>
    exact .joined listening rest (hpc.trans hpc') (hsaid.trans hsaid')

theorem PeerStage.onItem {p : Peer L.prim.order} (h : PeerStage L p) (item : InboxItem) :
    (peerProgram L.prim.order).onItem p.pc item = (p.pc, false) := by
  cases h with
  | returned hpc _ _ _ => rw [hpc]; rfl
  | joined listening rest hpc _ => rw [hpc]; rfl

theorem sendBody_error {Pc : Type*} {p p' : Process Pc} {body : Body} {e : ConnectionError}
    (h : p.send L.gcm L.wire body = (p', .error e)) : sendBody L body p = (p', []) := by
  unfold sendBody
  rw [h]

theorem sendBody_ok {Pc : Type*} {p p' : Process Pc} {body : Body} {frame : Bytes}
    (h : p.send L.gcm L.wire body = (p', .ok frame)) : sendBody L body p = (p', [(frame, true)]) := by
  unfold sendBody
  rw [h]

/-- A step of the host that sends nothing. -/
theorem sound_of_host (hpeer : PeerUp hC S) (hsame : S'.peer = S.peer)
    (htoPeer : S'.toPeer = S.toPeer) (hsaid : S'.host.said = S.host.said)
    (hhost : HostPhase hC S') : Sound hC S' :=
  .inr ⟨hpeer.of_host hsame (.inl ⟨hsaid, htoPeer⟩), hhost⟩

/-- The first envelope of the peer is its join. -/
theorem first_is_join (hpeer : PeerUp hC S) {env : Envelope} {rest : List Envelope}
    (h : S.peer.said = env :: rest) : env = L.joinEnvelope := by
  cases hpeer.stage with
  | returned _ hsaid _ _ =>
    rw [hsaid] at h
    cases h
  | joined _ rest' _ hsaid =>
    rw [hsaid] at h
    exact (List.cons.inj h).1.symm

theorem HostStage.congr {p p' : Host} (h : HostStage p) (hpc : p'.pc = p.pc)
    (hheard : p'.heard = p.heard) : HostStage p' := by
  cases h with
  | returned isk hpc' hheard' => exact .returned isk (hpc.trans hpc') (hheard.trans hheard')
  | awaitJoin hpc' hheard' => exact .awaitJoin (hpc.trans hpc') (hheard.trans hheard')
  | gotJoin join hpc' hheard' =>
    exact .gotJoin join (hpc.trans hpc') (by rw [hheard]; exact hheard')
  | admitted hpc' hheard' => exact .admitted (hpc.trans hpc') (by rw [hheard]; exact hheard')

/-- A step of the peer that sends nothing. -/
theorem sound_of_peer (hhost : HostPhase hC S) (hsame : S'.host = S.host)
    (htoHost : S'.toHost = S.toHost) (hsaid : S'.peer.said = S.peer.said)
    (hpeer : PeerUp hC S') : Sound hC S' :=
  .inr ⟨hpeer, hhost.of_peer hsame (.inl ⟨hsaid, htoHost⟩)⟩

end

/-- A binary frame before the upgrade. -/
theorem onFrame_early {p : Host} {data : Bytes} (hclear : p.conn.encoder = none)
    (hroom : p.conn.pendingBinary.length < 64) :
    p.onFrame L.decipher L.wire hostProgram (data, true) =
      { p with conn := { p.conn with pendingBinary := p.conn.pendingBinary ++ [data] } } := by
  have hreceive : p.conn.receive L.decipher L.wire data true =
      ({ p.conn with pendingBinary := p.conn.pendingBinary ++ [data] }, .ok none) := by
    unfold Connection.receive Connection.encrypted
    rw [hclear, Option.isSome_none, if_neg Bool.false_ne_true, if_pos rfl, if_pos hroom,
      ← hclear]
  unfold Process.onFrame Process.onMessage
  rw [hreceive]

/-! ### The inbox of the host -/

section

variable {p : Host} {env : Envelope}

theorem deliver_join {join : Join} (hpc : p.pc = .awaitJoin) (hbody : env.body = .join join) :
    p.deliver hostProgram (.message env) =
      { p.settle (.gotJoin join) with heard := p.heard ++ [env] } := by
  have hitem : hostProgram.onItem p.pc (.message env) = (.gotJoin join, true) := by
    rw [hpc]
    simp only [hostProgram, hostOnItem, hbody]
  rw [deliver_emit (by rw [hpc]; rfl)]
  unfold Process.emit
  rw [hitem]

theorem deliver_admitted (hpc : p.pc = .admitted) :
    p.deliver hostProgram (.message env) = { p with heard := p.heard ++ [env] } := by
  rw [deliver_emit (by rw [hpc]; rfl)]
  obtain ⟨conn, pc, queue, draining, heard, said, faults⟩ := p
  dsimp only at hpc
  rw [hpc]
  rfl

/-- An admitted host hears everything, in order. -/
theorem flushItems_admitted (held : List Envelope) (p : Host) (hpc : p.pc = .admitted) :
    Process.flushItems hostProgram (held.map .message) p = { p with heard := p.heard ++ held } := by
  induction held generalizing p with
  | nil => simp [Process.flushItems]
  | cons env held ih =>
    show Process.flushItems hostProgram (held.map .message)
      (p.deliver hostProgram (.message env)) = _
    rw [deliver_admitted hpc]
    refine (ih { p with heard := p.heard ++ [env] } hpc).trans ?_
    simp

/-- **A flush** moves envelopes from the inbox to what was heard, in order, and leaves none that
somebody listens for. -/
theorem flush_host {held : List Envelope} (hstage : HostStage p)
    (htasks : Tasks p.queue p.pc.settled) (hinbox : p.conn.inbox = held.map .message)
    (hfirst : ∀ env rest, p.heard = [] → held = env :: rest → ∃ join, env.body = .join join) :
    ∃ held', p.heard ++ held = (p.flush hostProgram).heard ++ held' ∧
      (p.flush hostProgram).conn.inbox = held'.map .message ∧ HostStage (p.flush hostProgram) ∧
      Tasks (p.flush hostProgram).queue (p.flush hostProgram).pc.settled ∧
      (hostListens (p.flush hostProgram).pc .message = true → held' = []) ∧
      (p.flush hostProgram).conn.encoder = p.conn.encoder ∧
      (p.flush hostProgram).conn.decoder = p.conn.decoder ∧
      (p.flush hostProgram).faults = p.faults ∧ (p.flush hostProgram).said = p.said := by
  -- without a message listener the items go back
  have hback : hostListens p.pc .message = false → p.flush hostProgram = p := by
    intro hsilent
    refine flush_hold fun item hmem => ?_
    rw [hinbox] at hmem
    obtain ⟨env, -, rfl⟩ := List.mem_map.mp hmem
    exact hsilent
  cases hstage with
  | returned isk hpc hheard =>
    rw [hback (by rw [hpc]; rfl)]
    refine ⟨held, rfl, hinbox, .returned isk hpc hheard, htasks, ?_, rfl, rfl, rfl, rfl⟩
    rw [hpc]
    exact fun h => by cases h
  | gotJoin join hpc hheard =>
    rw [hback (by rw [hpc]; rfl)]
    refine ⟨held, rfl, hinbox, .gotJoin join hpc hheard, htasks, ?_, rfl, rfl, rfl, rfl⟩
    rw [hpc]
    exact fun h => by cases h
  | admitted hpc hheard =>
    have hflush : p.flush hostProgram =
        { p with conn := { p.conn with inbox := [] }, heard := p.heard ++ held } := by
      unfold Process.flush
      rw [hinbox]
      exact flushItems_admitted held { p with conn := { p.conn with inbox := [] } } hpc
    rw [hflush]
    refine ⟨[], (List.append_nil _).symm, rfl, .admitted hpc ?_, htasks, fun _ => rfl,
      rfl, rfl, rfl, rfl⟩
    show p.heard ++ held ≠ []
    simp [hheard]
  | awaitJoin hpc hheard =>
    cases held with
    | nil =>
      rw [flush_nil hinbox]
      exact ⟨[], rfl, hinbox, .awaitJoin hpc hheard, htasks, fun _ => rfl, rfl, rfl, rfl, rfl⟩
    | cons env rest =>
      obtain ⟨join, hbody⟩ := hfirst env rest hheard rfl
      have hflush : p.flush hostProgram = { p.settle (.gotJoin join) with
          conn := { p.conn with inbox := rest.map .message }
          heard := p.heard ++ [env] } := by
        let p₀ : Host := { p with conn := { p.conn with inbox := [] } }
        unfold Process.flush
        rw [hinbox]
        show Process.flushItems hostProgram (rest.map .message)
          (p₀.deliver hostProgram (.message env)) = _
        rw [deliver_join (p := p₀) hpc hbody, flushItems_hold]
        · rfl
        · intro item hmem
          obtain ⟨env', -, rfl⟩ := List.mem_map.mp hmem
          rfl
      rw [hflush]
      rw [hpc] at htasks
      refine ⟨rest, ?_, rfl, .gotJoin join rfl ?_, tasks_settle htasks, fun h => (by cases h),
        rfl, rfl, rfl, rfl⟩
      · show p.heard ++ env :: rest = (p.heard ++ [env]) ++ rest
        simp
      · show p.heard ++ [env] ≠ []
        simp

end

/-! ### Steps in the clear -/

section

variable [DecidableEq P] {S : Room L.prim.order}

theorem step_hostTask {host : Host} {frames : List Frame}
    (h : S.host.runTask hostProgram (resumeHost L.prim L.decipher L.wire L.host) = (host, frames)) :
    S.step L .hostTask = { S with host := host, toPeer := S.toPeer ++ frames } := by
  unfold Room.step
  rw [h]

theorem step_peerTask {peer : Peer L.prim.order} {frames : List Frame}
    (h : S.peer.runTask (peerProgram L.prim.order)
      (resumePeer L.prim L.gcm L.decipher L.wire L.peer) = (peer, frames)) :
    S.step L .peerTask = { S with peer := peer, toHost := S.toHost ++ frames } := by
  unfold Room.step
  rw [h]

theorem step_deliverToHost {frame : Frame} {rest : List Frame} (h : S.toHost = frame :: rest) :
    S.step L .deliverToHost =
      { S with host := S.host.onFrame L.decipher L.wire hostProgram frame, toHost := rest } := by
  unfold Room.step
  rw [h]

theorem step_deliverToPeer {frame : Frame} {rest : List Frame} (h : S.toPeer = frame :: rest) :
    S.step L .deliverToPeer =
      { S with
        peer := S.peer.onFrame L.decipher L.wire (peerProgram L.prim.order) frame
        toPeer := rest } := by
  unfold Room.step
  rw [h]

theorem clear_hostTask (hh : L.Honest) (h : Clear S) (hqueue : S.host.queue ≠ []) :
    Clear (S.step L .hostTask) := by
  obtain ⟨toHost, toPeer, hstage, htoHost, htoPeer⟩ := h.stage
  obtain ⟨task, queue, hqueue⟩ := List.exists_cons_of_ne_nil hqueue
  have hpop := h.host.pop hqueue
  have hclear : S.host.conn.encoder = none := by rw [h.host.conn]; rfl
  cases task with
  | flush =>
    have hflush : (({ S.host with queue := queue } : Host)).flush hostProgram =
        { S.host with queue := queue } := flush_nil (by
      show S.host.conn.inbox = []
      rw [h.host.conn]
      rfl)
    rw [step_hostTask (runTask_flush hqueue), hflush, List.append_nil]
    exact ⟨⟨hpop.conn, hpop.heard, hpop.said, hpop.faultless, hpop.tasks⟩, h.peer,
      toHost, toPeer, hstage, htoHost, htoPeer⟩
  | resume =>
    have hsettled : S.host.pc.settled = true :=
      (tasks_of_resume (by rw [← hqueue]; exact h.host.tasks)).1
    generalize hhost : S.host.pc = hostPc at hstage hsettled
    generalize hpeer : S.peer.pc = peerPc at hstage
    cases hstage with
    | gotHello =>
      rw [step_hostTask (runTask_resume hqueue (resumeHost_gotHello hh hclear hhost))]
      have hwait := hpop.wait HostPc.awaitPakePeer
      refine ⟨⟨hwait.conn, hwait.heard, hwait.said, hwait.faultless, hwait.tasks⟩, h.peer,
        [], [L.ack], ?_, htoHost, by rw [htoPeer]; rfl⟩
      show Early L .awaitPakePeer S.peer.pc [] [L.ack]
      rw [hpeer]
      exact .ack
    | gotPakePeer =>
      rw [step_hostTask (runTask_resume hqueue (resumeHost_gotPakePeer hh hclear hhost))]
      have hwait := hpop.wait (HostPc.awaitConfirm L.responded)
      refine ⟨⟨hwait.conn, hwait.heard, hwait.said, hwait.faultless, hwait.tasks⟩, h.peer,
        [], [L.pakeHost], ?_, htoHost, by rw [htoPeer]; rfl⟩
      show Early L (.awaitConfirm L.responded) S.peer.pc [] [L.pakeHost]
      rw [hpeer]
      exact .pakeHost
    | hello => cases hsettled
    | ack => cases hsettled
    | gotAck => cases hsettled
    | awaitW => cases hsettled
    | gotW => cases hsettled
    | pakePeer => cases hsettled
    | pakeHost => cases hsettled
    | gotPakeHost => cases hsettled

theorem sound_peerTask_of_clear (hC : L.Correct) (hh : L.Honest) (h : Clear S)
    (hqueue : S.peer.queue ≠ []) : Sound hC (S.step L .peerTask) := by
  obtain ⟨toHost, toPeer, hstage, htoHost, htoPeer⟩ := h.stage
  obtain ⟨task, queue, hqueue⟩ := List.exists_cons_of_ne_nil hqueue
  have hpop := h.peer.pop hqueue
  have hclear : S.peer.conn.encoder = none := by rw [h.peer.conn]; rfl
  cases task with
  | flush =>
    have hflush : (({ S.peer with queue := queue } : Peer L.prim.order)).flush
        (peerProgram L.prim.order) = { S.peer with queue := queue } := flush_nil (by
      show S.peer.conn.inbox = []
      rw [h.peer.conn]
      rfl)
    rw [step_peerTask (runTask_flush hqueue), hflush, List.append_nil]
    exact .inl ⟨h.host, ⟨hpop.conn, hpop.heard, hpop.said, hpop.faultless, hpop.tasks⟩,
      toHost, toPeer, hstage, htoHost, htoPeer⟩
  | resume =>
    have hsettled : S.peer.pc.settled = true :=
      (tasks_of_resume (by rw [← hqueue]; exact h.peer.tasks)).1
    generalize hhost : S.host.pc = hostPc at hstage
    generalize hpeer : S.peer.pc = peerPc at hstage hsettled
    cases hstage with
    | gotAck =>
      rw [step_peerTask (runTask_resume hqueue (resumePeer_gotAck hh hpeer)), List.append_nil]
      refine .inl ⟨h.host, ⟨hpop.conn, hpop.heard, hpop.said, hpop.faultless, hpop.tasks⟩,
        [], [], ?_, htoHost, htoPeer⟩
      show Early L S.host.pc _ [] []
      rw [hhost]
      exact .awaitW
    | gotW =>
      rw [step_peerTask (runTask_resume hqueue (resumePeer_gotW hh hclear hpeer))]
      have hwait := hpop.wait (PeerPc.awaitPakeHost L.begun)
      refine .inl ⟨h.host, ⟨hwait.conn, hwait.heard, hwait.said, hwait.faultless, hwait.tasks⟩,
        [L.pakePeer], [], ?_, by rw [htoHost]; rfl, htoPeer⟩
      show Early L S.host.pc _ [L.pakePeer] []
      rw [hhost]
      exact .pakePeer
    | gotPakeHost =>
      -- the peer upgrades; from here on it is the second part of the run
      rw [step_peerTask (runTask_resume hqueue (resumePeer_gotPakeHost hC h.peer.conn hpeer))]
      have hsettle := hpop.settle (PeerPc.returned L.isk)
      have hsaid : S.peer.said = [] := h.peer.said
      refine .inr ⟨⟨.returned rfl hsaid ?_ ?_, hsettle.tasks, [], [], h.host.said, ?_, htoPeer⟩,
        .waiting ?_ hhost ?_⟩
      · show S.peer.conn.seq = 0
        rw [h.peer.conn]
        rfl
      · show S.peer.conn.epoch = 0
        rw [h.peer.conn]
        rfl
      · refine ⟨?_, rfl, h.peer.faultless, ?_, ?_⟩
        · show some (Setup.encoder hC .peer 0) = some (Setup.encoder hC .peer S.peer.said.length)
          rw [hsaid]
          rfl
        · show ∀ env ∈ S.peer.said, L.Sendable env
          rw [hsaid]
          exact fun env henv => absurd henv List.not_mem_nil
        · show S.peer.said.length ≤ maxU64 + 1
          rw [hsaid]
          exact Nat.zero_le _
      · have hhostFresh := h.host
        rw [hhost] at hhostFresh
        exact hhostFresh
      · show S.toHost ++ texts L [L.pakeConfirm] =
          texts L [L.pakeConfirm] ++ binary (Setup.frames hC .peer 0 S.peer.said)
        rw [hsaid, htoHost]
        rfl
    | hello => cases hsettled
    | gotHello => cases hsettled
    | ack => cases hsettled
    | awaitW => cases hsettled
    | pakePeer => cases hsettled
    | gotPakePeer => cases hsettled
    | pakeHost => cases hsettled

theorem clear_deliverToHost (hC : L.Correct) (hh : L.Honest) (h : Clear S)
    (hsome : S.toHost ≠ []) : Clear (S.step L .deliverToHost) := by
  obtain ⟨toHost, toPeer, hstage, htoHost, htoPeer⟩ := h.stage
  have hclear : S.host.conn.encoder = none := by rw [h.host.conn]; rfl
  have hhostFresh := h.host
  generalize hhost : S.host.pc = hostPc at hstage hhostFresh
  generalize hpeer : S.peer.pc = peerPc at hstage
  cases hstage with
  | hello =>
    rw [step_deliverToHost htoHost, onFrame_text hC (by simp [Setup.messages])
      (Setup.conforms_hello hh) hclear,
      deliver_settle (by rw [hhost]; rfl) (by rw [hhost]; rfl)]
    refine ⟨hhostFresh.settle _, h.peer, [], [], ?_, rfl, htoPeer⟩
    show Early L _ S.peer.pc [] []
    rw [hpeer]
    exact .gotHello
  | pakePeer =>
    rw [step_deliverToHost htoHost, onFrame_text hC (by simp [Setup.messages])
      Setup.conforms_pakePeer hclear,
      deliver_settle (by rw [hhost]; rfl) (by rw [hhost]; rfl)]
    refine ⟨hhostFresh.settle _, h.peer, [], [], ?_, rfl, htoPeer⟩
    show Early L _ S.peer.pc [] []
    rw [hpeer]
    exact .gotPakePeer
  | gotHello => exact absurd htoHost hsome
  | ack => exact absurd htoHost hsome
  | gotAck => exact absurd htoHost hsome
  | awaitW => exact absurd htoHost hsome
  | gotW => exact absurd htoHost hsome
  | gotPakePeer => exact absurd htoHost hsome
  | pakeHost => exact absurd htoHost hsome
  | gotPakeHost => exact absurd htoHost hsome

theorem clear_deliverToPeer (hC : L.Correct) (hh : L.Honest) (h : Clear S)
    (hsome : S.toPeer ≠ []) : Clear (S.step L .deliverToPeer) := by
  obtain ⟨toHost, toPeer, hstage, htoHost, htoPeer⟩ := h.stage
  have hclear : S.peer.conn.encoder = none := by rw [h.peer.conn]; rfl
  have hpeerFresh := h.peer
  generalize hhost : S.host.pc = hostPc at hstage
  generalize hpeer : S.peer.pc = peerPc at hstage hpeerFresh
  cases hstage with
  | ack =>
    rw [step_deliverToPeer htoPeer, onFrame_text hC (by simp [Setup.messages])
      (Setup.conforms_ack hh) hclear,
      deliver_settle (by rw [hpeer]; rfl) (by rw [hpeer]; rfl)]
    refine ⟨h.host, hpeerFresh.settle _, [], [], ?_, htoHost, rfl⟩
    show Early L S.host.pc _ [] []
    rw [hhost]
    exact .gotAck
  | pakeHost =>
    rw [step_deliverToPeer htoPeer, onFrame_text hC (by simp [Setup.messages])
      (Setup.conforms_pakeHost hC) hclear,
      deliver_settle (by rw [hpeer]; rfl) (by rw [hpeer]; rfl)]
    refine ⟨h.host, hpeerFresh.settle _, [], [], ?_, htoHost, rfl⟩
    show Early L S.host.pc _ [] []
    rw [hhost]
    exact .gotPakeHost
  | hello => exact absurd htoPeer hsome
  | gotHello => exact absurd htoPeer hsome
  | gotAck => exact absurd htoPeer hsome
  | awaitW => exact absurd htoPeer hsome
  | gotW => exact absurd htoPeer hsome
  | pakePeer => exact absurd htoPeer hsome
  | gotPakePeer => exact absurd htoPeer hsome
  | gotPakeHost => exact absurd htoPeer hsome

theorem clear_derived (hh : L.Honest) (h : Clear S) {sid : String} {params : ArgonParams}
    (hpc : S.peer.pc = .awaitW sid params) : Clear (S.step L .derived) := by
  obtain ⟨toHost, toPeer, hstage, htoHost, htoPeer⟩ := h.stage
  have hpeerFresh := h.peer
  rw [hpc] at hpeerFresh
  unfold Room.step
  rw [hpc]
  dsimp only
  generalize hhost : S.host.pc = hostPc at hstage
  rw [hpc] at hstage
  cases hstage
  refine ⟨h.host, hpeerFresh.settle _, [], [], ?_, htoHost, htoPeer⟩
  show Early L S.host.pc (.gotW _ (L.peer.deriveW L.host.argonParams)) [] []
  rw [hhost, hh.key]
  exact .gotW

end

end ScreenSharing.Handshake
