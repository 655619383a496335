import ScreenSharing.Handshake.Invariant

/-!
# Steps of two honest sides

The steps after the upgrade of the peer, side by side with the phases of the host.  `sound_step` puts
all steps together.
-/

namespace ScreenSharing.Handshake

open Lib Crypto Net

variable {P J : Type*} [AddCommGroup P] {L : Setup P J} [DecidableEq P] {hC : L.Correct}
  {S : Room L.prim.order}

/-! ### Steps of an upgraded peer -/

theorem sound_peerFlush (hpeer : PeerUp hC S) (hhost : HostPhase hC S) {queue : List Task}
    (hqueue : S.peer.queue = .flush :: queue) : Sound hC (S.step L .peerTask) := by
  obtain ⟨taken, later, hsaid, hlinked, htoPeer⟩ := hpeer.channel
  let p₀ : Peer L.prim.order := { S.peer with queue := queue }
  have hstage : PeerStage L p₀ := hpeer.stage.congr rfl rfl rfl rfl
  have hidle : Idle p₀ (p₀.flush (peerProgram L.prim.order)) := idle_flush hstage.onItem
  have htasks : Tasks queue S.peer.pc.settled :=
    tasks_of_flush (by rw [← hqueue]; exact hpeer.tasks)
  rw [step_peerTask (runTask_flush hqueue), List.append_nil]
  refine sound_of_peer hhost rfl rfl hidle.said ⟨?_, ?_, taken, later, hsaid, ?_, htoPeer⟩
  · exact hstage.congr hidle.pc hidle.said hidle.seq hidle.epoch
  · show Tasks (p₀.flush (peerProgram L.prim.order)).queue
      (p₀.flush (peerProgram L.prim.order)).pc.settled
    rw [hidle.queue, hidle.pc]
    exact htasks
  · exact hlinked.congr hidle.encoder hidle.decoder hidle.faults hidle.said

theorem resumePeer_send {p : Peer L.prim.order} (hpc : p.pc = .returned L.isk) :
    resumePeer L.prim L.gcm L.decipher L.wire L.peer p =
      match ({ p with conn := { p.conn with outboundFrom := "pending" } } :
          Peer L.prim.order).send L.gcm L.wire (.join L.peer.join) with
      | (p', .error e) => (p'.throw (peerProgram L.prim.order) (.connection e), [])
      | (p', .ok frame) => (p'.wait (.sentJoin true), [(frame, true)]) := by
  obtain ⟨conn, pc, queue, draining, heard, said, faults⟩ := p
  dsimp only at hpc
  rw [hpc]
  unfold resumePeer
  dsimp only
  generalize Process.send L.gcm L.wire _ (Body.join L.peer.join) = result
  obtain ⟨p', _ | frame⟩ := result <;> rfl

/-- `connect` sends the join. -/
theorem resumePeer_returned (hh : L.Honest) {p : Peer L.prim.order} {n : ℕ}
    (hlinked : Linked hC .peer p n) (hpc : p.pc = .returned L.isk) (hsaid : p.said = [])
    (hseq : p.conn.seq = 0) (hepoch : p.conn.epoch = 0) :
    resumePeer L.prim L.gcm L.decipher L.wire L.peer p =
      (({ p with
        conn := { p.conn with
          outboundFrom := "pending"
          encoder := some (Setup.encoder hC .peer (p.said.length + 1))
          seq := p.conn.seq + 1 }
        said := p.said ++ [L.joinEnvelope] } : Peer L.prim.order).wait (.sentJoin true),
        [(Setup.frame hC .peer p.said.length L.joinEnvelope, true)]) := by
  let p₀ : Peer L.prim.order := { p with conn := { p.conn with outboundFrom := "pending" } }
  have hlinked₀ : Linked hC .peer p₀ n := hlinked.congr rfl rfl rfl rfl
  have henv : p₀.conn.envelope (.join L.peer.join) = L.joinEnvelope := by
    show (⟨protocolVersion, p.conn.epoch, p.conn.seq, "pending", .join L.peer.join⟩ : Envelope) = _
    rw [hepoch, hseq]
    rfl
  have hcount : p₀.said.length ≤ maxU64 := by
    show p.said.length ≤ maxU64
    rw [hsaid]
    exact Nat.zero_le _
  have hsend := send_linked_ok hlinked₀ (.join L.peer.join)
    (by rw [henv]; exact hh.join_length) hcount
  rw [henv] at hsend
  rw [resumePeer_send hpc, hsend]

theorem sound_peerResume (hh : L.Honest) (hpeer : PeerUp hC S) (hhost : HostPhase hC S)
    {queue : List Task} (hqueue : S.peer.queue = .resume :: queue) :
    Sound hC (S.step L .peerTask) := by
  obtain ⟨taken, later, hsaid, hlinked, htoPeer⟩ := hpeer.channel
  obtain ⟨hsettled, htasks⟩ := tasks_of_resume (by rw [← hqueue]; exact hpeer.tasks)
  cases hpeer.stage with
  | joined listening rest hpc _ =>
    rw [hpc] at hsettled
    cases hsettled
  | returned hpc hpeerSaid hseq hepoch =>
    let p₀ : Peer L.prim.order := { S.peer with queue := queue }
    have hlinked₀ : Linked hC .peer p₀ taken.length := hlinked.congr rfl rfl rfl rfl
    rw [step_peerTask (runTask_resume hqueue
      (resumePeer_returned hh hlinked₀ hpc hpeerSaid hseq hepoch))]
    have hsendable : L.Sendable L.joinEnvelope := ⟨rfl, hh.join_fits, hh.join_length⟩
    refine .inr ⟨⟨?_, ?_, taken, later, hsaid, ?_, htoPeer⟩, hhost.of_peer rfl (.inr ?_)⟩
    · refine .joined true [] rfl ?_
      show S.peer.said ++ [L.joinEnvelope] = [L.joinEnvelope]
      rw [hpeerSaid]
      rfl
    · exact tasks_wait htasks
    · have hcount : p₀.said.length ≤ maxU64 := by
        show S.peer.said.length ≤ maxU64
        rw [hpeerSaid]
        exact Nat.zero_le _
      exact (hlinked₀.sent hsendable hcount { p₀.conn with
        outboundFrom := "pending"
        encoder := some (Setup.encoder hC .peer (p₀.said.length + 1))
        seq := p₀.conn.seq + 1 } rfl rfl).congr rfl rfl rfl rfl
    · exact ⟨L.joinEnvelope, rfl, rfl⟩

theorem sound_deliverToPeer (hpeer : PeerUp hC S) (hhost : HostPhase hC S) (hsome : S.toPeer ≠ []) :
    Sound hC (S.step L .deliverToPeer) := by
  obtain ⟨taken, later, hsaid, hlinked, htoPeer⟩ := hpeer.channel
  cases later with
  | nil => exact absurd htoPeer hsome
  | cons env later =>
    obtain ⟨hsendable, hbound⟩ := hhost.sendable
    have henv : L.Sendable env := hsendable env (by rw [hsaid]; simp)
    have hcount : taken.length ≤ maxU64 := by
      rw [hsaid, List.length_append, List.length_cons] at hbound
      omega
    let p₀ : Peer L.prim.order := { S.peer with conn := { S.peer.conn with
      decoder := some (Setup.decoder hC .host (taken.length + 1)) } }
    have honFrame : S.peer.onFrame L.decipher L.wire (peerProgram L.prim.order)
        (Setup.frame hC .host taken.length env, true) =
          p₀.deliver (peerProgram L.prim.order) (.message env) := by
      unfold Process.onFrame
      rw [show ConnectionRole.host = other .peer from rfl,
        onMessage_linked hlinked (peerProgram L.prim.order) hcount henv]
      rfl
    have hidle : Idle p₀ (p₀.deliver (peerProgram L.prim.order) (.message env)) :=
      idle_deliver (hpeer.stage.onItem _)
    rw [step_deliverToPeer htoPeer, honFrame]
    refine sound_of_peer hhost rfl rfl hidle.said
      ⟨?_, ?_, taken ++ [env], later, ?_, ?_, ?_⟩
    · exact hpeer.stage.congr hidle.pc hidle.said hidle.seq hidle.epoch
    · show Tasks (p₀.deliver (peerProgram L.prim.order) (.message env)).queue
        (p₀.deliver (peerProgram L.prim.order) (.message env)).pc.settled
      rw [hidle.queue, hidle.pc]
      exact hpeer.tasks
    · rw [hsaid, List.append_assoc]
      rfl
    · rw [List.length_append]
      exact hlinked.took.idle hidle
    · rw [List.length_append]
      rfl

theorem step_peerSends {body : Body} {peer : Peer L.prim.order} {frames : List Frame}
    (h : sendBody L body S.peer = (peer, frames)) : S.step L (.peerSends body) =
      { S with peer := peer, toHost := S.toHost ++ frames } := by
  show { S with peer := (sendBody L body S.peer).1
                toHost := S.toHost ++ (sendBody L body S.peer).2 } = _
  rw [h]

theorem step_hostSends {body : Body} {host : Host} {frames : List Frame}
    (h : sendBody L body S.host = (host, frames)) : S.step L (.hostSends body) =
      { S with host := host, toPeer := S.toPeer ++ frames } := by
  show { S with host := (sendBody L body S.host).1
                toPeer := S.toPeer ++ (sendBody L body S.host).2 } = _
  rw [h]

/-- The code around the peer sends a body. -/
theorem sound_peerSends (hpeer : PeerUp hC S) (hhost : HostPhase hC S) {body : Body}
    (hjoined : S.peer.pc.joined = true) (hfits : L.Fits (S.peer.conn.envelope body)) :
    Sound hC (S.step L (.peerSends body)) := by
  obtain ⟨taken, later, hsaid, hlinked, htoPeer⟩ := hpeer.channel
  obtain ⟨listening, rest, hpc, hpeerSaid⟩ : ∃ listening rest, S.peer.pc = .sentJoin listening ∧
      S.peer.said = L.joinEnvelope :: rest := by
    cases hpeer.stage with
    | returned hpc _ _ _ =>
      rw [hpc] at hjoined
      cases hjoined
    | joined listening rest hpc hpeerSaid => exact ⟨listening, rest, hpc, hpeerSaid⟩
  rcases send_linked hlinked hfits with ⟨e, hsend⟩ | ⟨henv, hcount, hsend⟩
  · rw [step_peerSends (sendBody_error hsend), List.append_nil]
    exact sound_of_peer hhost rfl rfl rfl ⟨.joined listening rest hpc hpeerSaid, hpeer.tasks,
      taken, later, hsaid, hlinked.congr rfl rfl rfl rfl, htoPeer⟩
  · rw [step_peerSends (sendBody_ok hsend)]
    refine .inr ⟨⟨?_, hpeer.tasks, taken, later, hsaid, ?_, htoPeer⟩,
      hhost.of_peer rfl (.inr ⟨_, rfl, rfl⟩)⟩
    · refine .joined listening (rest ++ [S.peer.conn.envelope body]) hpc ?_
      show S.peer.said ++ _ = _
      rw [hpeerSaid]
      rfl
    · exact hlinked.sent henv hcount _ rfl rfl

theorem sound_peerListens (hpeer : PeerUp hC S) (hhost : HostPhase hC S) {listening : Bool}
    (hjoined : S.peer.pc.joined = true) : Sound hC (S.step L (.peerListens listening)) := by
  obtain ⟨taken, later, hsaid, hlinked, htoPeer⟩ := hpeer.channel
  have htasks := hpeer.tasks
  cases hpeer.stage with
  | returned hpc _ _ _ =>
    rw [hpc] at hjoined
    cases hjoined
  | joined listening' rest hpc hpeerSaid =>
    rw [hpc] at htasks
    cases listening with
    | true => exact sound_of_peer hhost rfl rfl rfl ⟨.joined true rest rfl hpeerSaid,
        tasks_wait htasks, taken, later, hsaid, hlinked.congr rfl rfl rfl rfl, htoPeer⟩
    | false => exact sound_of_peer hhost rfl rfl rfl ⟨.joined false rest rfl hpeerSaid,
        htasks, taken, later, hsaid, hlinked.congr rfl rfl rfl rfl, htoPeer⟩

theorem sound_peerNamed (hpeer : PeerUp hC S) (hhost : HostPhase hC S) {peerId : String} :
    Sound hC (S.step L (.peerNamed peerId)) := by
  obtain ⟨taken, later, hsaid, hlinked, htoPeer⟩ := hpeer.channel
  exact sound_of_peer hhost rfl rfl rfl ⟨hpeer.stage.congr rfl rfl rfl rfl, hpeer.tasks,
    taken, later, hsaid, hlinked.congr rfl rfl rfl rfl, htoPeer⟩

/-! ### Steps of the host -/

/-- **The host upgrades**, and takes the early frames. -/
theorem resumeHost_gotConfirm {p : Host} {early : List Envelope}
    (hconn : p.conn = { L.hostConn with pendingBinary := Setup.frames hC .peer 0 early })
    (hpc : p.pc = .gotConfirm L.responded (bytesToHex L.macPeer)) (hsaid : p.said = [])
    (hfaults : p.faults = []) (hsend : ∀ env ∈ early, L.Sendable env)
    (hbound : early.length ≤ maxU64 + 1) :
    resumeHost L.prim L.decipher L.wire L.host p =
      (({ p with conn := { p.conn with
          encoder := some (Setup.encoder hC .host 0)
          decoder := some (Setup.decoder hC .peer early.length)
          pendingBinary := []
          inbox := early.map .message } } : Host).settle (.returned L.isk), []) := by
  let p₀ : Host := { p with conn := { p.conn with
    encoder := some (Setup.encoder hC .host 0)
    decoder := some (Setup.decoder hC .peer 0)
    pendingBinary := [] } }
  have hlinked : Linked hC .host p₀ 0 := by
    refine ⟨?_, rfl, hfaults, ?_, ?_⟩
    · show some (Setup.encoder hC .host 0) = some (Setup.encoder hC .host p.said.length)
      rw [hsaid]
      rfl
    · show ∀ env ∈ p.said, L.Sendable env
      simp [hsaid]
    · show p.said.length ≤ maxU64 + 1
      simp [hsaid]
  have hdrain := drain_linked hostProgram early p₀ hlinked
    (by show hostListens p.pc .message = false; rw [hpc]; rfl) hsend (by omega)
  have hupgrade : p.upgrade L.decipher L.wire hostProgram (deriveTransportKeys L.prim L.isk) =
      ({ p with conn := { p.conn with
          encoder := some (Setup.encoder hC .host 0)
          decoder := some (Setup.decoder hC .peer early.length)
          pendingBinary := []
          inbox := early.map .message } }, none) := by
    have hclear : p.conn.encoder = none := by rw [hconn]; rfl
    have hrole : p.conn.role = .host := by rw [hconn]; rfl
    have hpending : p.conn.pendingBinary = Setup.frames hC .peer 0 early := by rw [hconn]
    have hinbox : p.conn.inbox = [] := by rw [hconn]; rfl
    unfold Process.upgrade
    rw [show deriveTransportKeys L.prim L.isk = L.keys from rfl, upgrade_conn hC hrole hclear,
      hpending]
    refine hdrain.trans ?_
    rw [Nat.zero_add]
    show (({ p with conn := { p.conn with
      encoder := some (Setup.encoder hC .host 0)
      decoder := some (Setup.decoder hC .peer early.length)
      pendingBinary := []
      inbox := p.conn.inbox ++ early.map .message } } : Host), _) = _
    rw [hinbox]
    rfl
  unfold resumeHost
  rw [hpc]
  dsimp only
  rw [hexToBytes_bytesToHex]
  dsimp only
  rw [Setup.verifyPeer_honest, if_neg (by decide), show L.responded.isk = L.isk from rfl, hupgrade]
  rfl

/-- While the host is in the clear, its flushes do nothing. -/
theorem hostFlush_fresh {conn : Connection} {settled : Bool} (hfresh : Fresh conn S.host settled)
    (hinbox : conn.inbox = []) {queue : List Task} (hqueue : S.host.queue = .flush :: queue) :
    S.step L .hostTask = { S with host := { S.host with
        queue := queue
        draining := !queue.isEmpty } } ∧
      Fresh conn { S.host with queue := queue, draining := !queue.isEmpty } settled := by
  have hpop := hfresh.pop hqueue
  have hflush : ({ S.host with queue := queue } : Host).flush hostProgram =
      { S.host with queue := queue } := flush_nil (by
    show S.host.conn.inbox = []
    rw [hfresh.conn, hinbox])
  rw [step_hostTask (runTask_flush hqueue), hflush, List.append_nil]
  exact ⟨rfl, hpop.conn, hpop.heard, hpop.said, hpop.faultless, hpop.tasks⟩

/-- The confirmation fits, and the early frames become the inbox. -/
theorem sound_hostUpgrade (hpeer : PeerUp hC S) {early later : List Envelope}
    (hsaid : S.peer.said = early ++ later)
    (hfresh : Fresh { L.hostConn with pendingBinary := Setup.frames hC .peer 0 early } S.host true)
    (hpc : S.host.pc = .gotConfirm L.responded (bytesToHex L.macPeer))
    (htoHost : S.toHost = binary (Setup.frames hC .peer early.length later)) {queue : List Task}
    (hqueue : S.host.queue = .resume :: queue) : Sound hC (S.step L .hostTask) := by
  obtain ⟨hsendable, hbound⟩ := hpeer.sendable
  have hearly : ∀ env ∈ early, L.Sendable env := fun env henv =>
    hsendable env (by rw [hsaid]; exact List.mem_append_left _ henv)
  have hlen : early.length ≤ maxU64 + 1 := by
    rw [hsaid, List.length_append] at hbound
    omega
  have htasks := (tasks_of_resume (by rw [← hqueue]; exact hfresh.tasks)).2
  have hresume := resumeHost_gotConfirm (p := { S.host with queue := queue })
    hfresh.conn hpc hfresh.said hfresh.faultless hearly hlen
  rw [step_hostTask (runTask_resume hqueue hresume), List.append_nil]
  refine sound_of_host hpeer rfl rfl rfl (.up early later ?_ ?_ ?_ ?_ rfl ?_ ?_)
  · show S.peer.said = S.host.heard ++ early ++ later
    rw [hfresh.heard, hsaid]
    rfl
  · refine ⟨?_, ?_, hfresh.faultless, ?_, ?_⟩
    · show some (Setup.encoder hC .host 0) = some (Setup.encoder hC .host S.host.said.length)
      rw [hfresh.said]
      rfl
    · show some (Setup.decoder hC .peer early.length) =
        some (Setup.decoder hC .peer (S.host.heard ++ early).length)
      rw [hfresh.heard]
      rfl
    · show ∀ env ∈ S.host.said, L.Sendable env
      simp [hfresh.said]
    · show S.host.said.length ≤ maxU64 + 1
      simp [hfresh.said]
  · exact .returned L.isk rfl hfresh.heard
  · exact tasks_settle htasks
  · show S.toHost = binary (Setup.frames hC .peer (S.host.heard ++ early).length later)
    rw [htoHost, hfresh.heard]
    rfl
  · exact fun h => by cases h

/-- An upgraded host flushes its inbox. -/
theorem sound_hostFlush (hpeer : PeerUp hC S) {held later : List Envelope}
    (hsaid : S.peer.said = S.host.heard ++ held ++ later)
    (hlinked : Linked hC .host S.host (S.host.heard ++ held).length) (hstage : HostStage S.host)
    (htasks : Tasks S.host.queue S.host.pc.settled) (hinbox : S.host.conn.inbox = held.map .message)
    (htoHost : S.toHost = binary (Setup.frames hC .peer (S.host.heard ++ held).length later))
    {queue : List Task} (hqueue : S.host.queue = .flush :: queue) :
    Sound hC (S.step L .hostTask) := by
  let p₀ : Host := { S.host with queue := queue }
  have hstage₀ : HostStage p₀ := hstage.congr rfl rfl
  have htasks₀ : Tasks p₀.queue p₀.pc.settled :=
    tasks_of_flush (by rw [← hqueue]; exact htasks)
  have hfirst : ∀ env rest, p₀.heard = [] → held = env :: rest → ∃ join, env.body = .join join := by
    intro env rest hheard hheld
    have hsaid' : S.peer.said = env :: (rest ++ later) := by
      rw [hsaid, show S.host.heard = [] from hheard, hheld]
      rfl
    rw [first_is_join hpeer hsaid']
    exact ⟨_, rfl⟩
  obtain ⟨held', hsplit, hinbox', hstage', htasks', hempty, hencoder, hdecoder, hfaults,
    hsaidHost⟩ := flush_host hstage₀ htasks₀ hinbox hfirst
  have hlen : ((p₀.flush hostProgram).heard ++ held').length = (S.host.heard ++ held).length :=
    congrArg List.length hsplit.symm
  rw [step_hostTask (runTask_flush hqueue), List.append_nil]
  refine sound_of_host hpeer rfl rfl hsaidHost (.up held' later ?_ ?_ ?_ htasks' hinbox' ?_ ?_)
  · show S.peer.said = (p₀.flush hostProgram).heard ++ held' ++ later
    rw [← hsplit, hsaid]
  · show Linked hC .host _ ((p₀.flush hostProgram).heard ++ held').length
    rw [hlen]
    exact hlinked.congr hencoder hdecoder hfaults hsaidHost
  · exact hstage'.congr rfl rfl
  · show S.toHost = binary (Setup.frames hC .peer
      ((p₀.flush hostProgram).heard ++ held').length later)
    rw [hlen, htoHost]
  · exact fun hlisten hne => absurd (hempty hlisten) hne

/-- An upgraded host goes on: it listens for the join, or it admits the peer. -/
theorem sound_hostResume (hpeer : PeerUp hC S) {held later : List Envelope}
    (hsaid : S.peer.said = S.host.heard ++ held ++ later)
    (hlinked : Linked hC .host S.host (S.host.heard ++ held).length) (hstage : HostStage S.host)
    (htasks : Tasks S.host.queue S.host.pc.settled) (hinbox : S.host.conn.inbox = held.map .message)
    (htoHost : S.toHost = binary (Setup.frames hC .peer (S.host.heard ++ held).length later))
    {queue : List Task} (hqueue : S.host.queue = .resume :: queue) :
    Sound hC (S.step L .hostTask) := by
  obtain ⟨hsettled, htasks'⟩ := tasks_of_resume (by rw [← hqueue]; exact htasks)
  -- a new listener queues a flush
  have hprompt : hostListens HostPc.awaitJoin .message = true → held ≠ [] →
      (!(queue ++ [Task.flush]).isEmpty) = true ∧ .flush ∈ queue ++ [Task.flush] := by
    intro _ _
    simp
  cases hstage with
  | awaitJoin hpc hheard =>
    rw [hpc] at hsettled
    cases hsettled
  | admitted hpc hheard =>
    rw [hpc] at hsettled
    cases hsettled
  | returned isk hpc hheard =>
    have hresume : resumeHost L.prim L.decipher L.wire L.host { S.host with queue := queue } =
        (({ S.host with queue := queue } : Host).wait .awaitJoin, []) := by
      unfold resumeHost
      rw [hpc]
    rw [step_hostTask (runTask_resume hqueue hresume), List.append_nil]
    exact sound_of_host hpeer rfl rfl rfl (.up held later hsaid
      (hlinked.congr rfl rfl rfl rfl) (.awaitJoin rfl hheard) (tasks_wait htasks') hinbox
      htoHost hprompt)
  | gotJoin join hpc hheard =>
    have hresume : resumeHost L.prim L.decipher L.wire L.host { S.host with queue := queue } =
        (({ S.host with queue := queue } : Host).wait .admitted, []) := by
      unfold resumeHost
      rw [hpc]
    rw [step_hostTask (runTask_resume hqueue hresume), List.append_nil]
    exact sound_of_host hpeer rfl rfl rfl (.up held later hsaid
      (hlinked.congr rfl rfl rfl rfl) (.admitted rfl hheard) (tasks_wait htasks') hinbox
      htoHost hprompt)

theorem sound_hostTask (hpeer : PeerUp hC S) (hhost : HostPhase hC S)
    (hqueue : S.host.queue ≠ []) : Sound hC (S.step L .hostTask) := by
  obtain ⟨task, queue, hqueue⟩ := List.exists_cons_of_ne_nil hqueue
  cases hhost with
  | waiting hfresh hpc htoHost =>
    cases task with
    | flush =>
      obtain ⟨hstep, hfresh'⟩ := hostFlush_fresh hfresh rfl hqueue
      rw [hstep]
      exact sound_of_host hpeer rfl rfl rfl (.waiting hfresh' hpc htoHost)
    | resume =>
      have hsettled := (tasks_of_resume (by rw [← hqueue]; exact hfresh.tasks)).1
      cases hsettled
  | confirmed early later hsaid hfresh hpc htoHost =>
    cases task with
    | flush =>
      obtain ⟨hstep, hfresh'⟩ := hostFlush_fresh hfresh rfl hqueue
      rw [hstep]
      exact sound_of_host hpeer rfl rfl rfl (.confirmed early later hsaid hfresh' hpc htoHost)
    | resume => exact sound_hostUpgrade hpeer hsaid hfresh hpc htoHost hqueue
  | up held later hsaid hlinked hstage htasks hinbox htoHost =>
    cases task with
    | flush => exact sound_hostFlush hpeer hsaid hlinked hstage htasks hinbox htoHost hqueue
    | resume => exact sound_hostResume hpeer hsaid hlinked hstage htasks hinbox htoHost hqueue

/-! ### Deliveries to the host -/

/-- The host waits for the confirmation, and it arrives. -/
theorem sound_confirmDelivered (hpeer : PeerUp hC S) (hfresh : Fresh L.hostConn S.host false)
    (hpc : S.host.pc = .awaitConfirm L.responded)
    (htoHost : S.toHost =
      texts L [L.pakeConfirm] ++ binary (Setup.frames hC .peer 0 S.peer.said)) :
    Sound hC (S.step L .deliverToHost) := by
  have hclear : S.host.conn.encoder = none := by rw [hfresh.conn]; rfl
  rw [step_deliverToHost htoHost, onFrame_text hC (by simp [Setup.messages])
    (Setup.conforms_pakeConfirm hC) hclear,
    deliver_settle (by rw [hpc]; rfl) (by rw [hpc]; rfl)]
  exact sound_of_host hpeer rfl rfl rfl
    (.confirmed [] S.peer.said rfl (hfresh.settle _) rfl rfl)

/-- A frame that arrives before the host has resumed is kept for the upgrade. -/
theorem sound_earlyDelivered (hpeer : PeerUp hC S) {early later : List Envelope} {env : Envelope}
    (hsaid : S.peer.said = early ++ env :: later)
    (hfresh : Fresh { L.hostConn with pendingBinary := Setup.frames hC .peer 0 early } S.host true)
    (hpc : S.host.pc = .gotConfirm L.responded (bytesToHex L.macPeer))
    (htoHost : S.toHost = binary (Setup.frames hC .peer early.length (env :: later)))
    (hlimit : (S.toHost.head?.map Prod.snd).getD false = true → S.host.conn.encrypted = false →
      S.host.conn.pendingBinary.length < 64) : Sound hC (S.step L .deliverToHost) := by
  have hclear : S.host.conn.encoder = none := by rw [hfresh.conn]; rfl
  have hpending : S.host.conn.pendingBinary = Setup.frames hC .peer 0 early := by
    rw [hfresh.conn]
  have hroom : S.host.conn.pendingBinary.length < 64 := by
    apply hlimit
    · rw [htoHost]
      rfl
    · unfold Connection.encrypted
      rw [hclear]
      rfl
  rw [step_deliverToHost htoHost, onFrame_early hclear hroom]
  refine sound_of_host hpeer rfl rfl rfl (.confirmed (early ++ [env]) later ?_ ⟨?_,
    hfresh.heard, hfresh.said, hfresh.faultless, hfresh.tasks⟩ hpc ?_)
  · simp [hsaid]
  · show ({ S.host.conn with pendingBinary := S.host.conn.pendingBinary ++ _ } : Connection) = _
    rw [hpending, Setup.frames_append, hfresh.conn, Nat.zero_add]
    rfl
  · rw [List.length_append]
    rfl

omit [DecidableEq P] in
/-- An upgraded host that hears the next frame at once, since its inbox is empty. -/
theorem sound_heard (hpeer : PeerUp hC S) {later : List Envelope} {env : Envelope} {host : Host}
    (hsaid : S.peer.said = S.host.heard ++ env :: later) (hheard : host.heard = S.host.heard ++ [env])
    (hsaidHost : host.said = S.host.said) (hinbox : host.conn.inbox = [])
    (hlinked : Linked hC .host host (S.host.heard.length + 1)) (hstage : HostStage host)
    (htasks : Tasks host.queue host.pc.settled) :
    Sound hC { S with
      host := host
      toHost := binary (Setup.frames hC .peer (S.host.heard.length + 1) later) } := by
  have hlength : (host.heard ++ []).length = S.host.heard.length + 1 := by
    rw [hheard, List.append_nil, List.length_append, List.length_singleton]
  refine sound_of_host hpeer rfl rfl hsaidHost (.up [] later ?_ ?_ hstage htasks hinbox ?_ ?_)
  · show S.peer.said = host.heard ++ [] ++ later
    simp [hsaid, hheard]
  · show Linked hC .host host (host.heard ++ []).length
    rw [hlength]
    exact hlinked
  · show binary (Setup.frames hC .peer (S.host.heard.length + 1) later) =
      binary (Setup.frames hC .peer (host.heard ++ []).length later)
    rw [hlength]
  · exact fun _ hne => absurd rfl hne

omit [DecidableEq P] in
/-- An upgraded host with a message listener is handed the next frame. -/
theorem sound_messageHeard (hpeer : PeerUp hC S) {later : List Envelope} {env : Envelope}
    (hsaid : S.peer.said = S.host.heard ++ env :: later)
    (hlinked : Linked hC .host S.host S.host.heard.length) (hstage : HostStage S.host)
    (htasks : Tasks S.host.queue S.host.pc.settled) (hinbox : S.host.conn.inbox = [])
    (hlisten : hostListens S.host.pc .message = true) :
    Sound hC { S with
      host := ({ S.host with conn := { S.host.conn with
        decoder := some (Setup.decoder hC .peer (S.host.heard.length + 1)) } } : Host).deliver
          hostProgram (.message env)
      toHost := binary (Setup.frames hC .peer (S.host.heard.length + 1) later) } := by
  let p₀ : Host := { S.host with conn := { S.host.conn with
    decoder := some (Setup.decoder hC .peer (S.host.heard.length + 1)) } }
  have htook : Linked hC .host p₀ (S.host.heard.length + 1) := hlinked.took
  cases hstage with
  | returned isk hpc hheard =>
    rw [hpc] at hlisten
    cases hlisten
  | gotJoin join hpc hheard =>
    rw [hpc] at hlisten
    cases hlisten
  | awaitJoin hpc hheard =>
    have hsaid' : S.peer.said = env :: later := by
      rw [hsaid, hheard]
      rfl
    have hbody : env.body = .join L.peer.join := by
      rw [first_is_join hpeer hsaid']
      rfl
    rw [hpc] at htasks
    rw [deliver_join (p := p₀) hpc hbody]
    exact sound_heard hpeer hsaid rfl rfl hinbox (htook.congr rfl rfl rfl rfl)
      (.gotJoin _ rfl (by simp)) (tasks_settle htasks)
  | admitted hpc hheard =>
    rw [deliver_admitted (p := p₀) hpc]
    exact sound_heard hpeer hsaid rfl rfl hinbox (htook.congr rfl rfl rfl rfl)
      (.admitted hpc (by simp)) htasks

omit [DecidableEq P] in
/-- An upgraded host without a message listener holds the next frame. -/
theorem sound_messageHeld (hpeer : PeerUp hC S) {held later : List Envelope} {env : Envelope}
    (hsaid : S.peer.said = S.host.heard ++ held ++ env :: later)
    (hlinked : Linked hC .host S.host (S.host.heard ++ held).length) (hstage : HostStage S.host)
    (htasks : Tasks S.host.queue S.host.pc.settled) (hinbox : S.host.conn.inbox = held.map .message)
    (hsilent : hostListens S.host.pc .message = false) :
    Sound hC { S with
      host := ({ S.host with conn := { S.host.conn with
        decoder := some (Setup.decoder hC .peer ((S.host.heard ++ held).length + 1)) } } :
          Host).deliver hostProgram (.message env)
      toHost := binary (Setup.frames hC .peer ((S.host.heard ++ held).length + 1) later) } := by
  let p₀ : Host := { S.host with conn := { S.host.conn with
    decoder := some (Setup.decoder hC .peer ((S.host.heard ++ held).length + 1)) } }
  have htook : Linked hC .host p₀ ((S.host.heard ++ held).length + 1) := hlinked.took
  have hlen : (S.host.heard ++ (held ++ [env])).length = (S.host.heard ++ held).length + 1 := by
    simp only [List.length_append, List.length_singleton]
    omega
  rw [deliver_hold (p := p₀) hsilent]
  refine sound_of_host hpeer rfl rfl rfl (.up (held ++ [env]) later ?_ ?_ (hstage.congr rfl rfl)
    htasks ?_ ?_ ?_)
  · show S.peer.said = S.host.heard ++ (held ++ [env]) ++ later
    simp [hsaid]
  · show Linked hC .host _ (S.host.heard ++ (held ++ [env])).length
    rw [hlen]
    exact htook.congr rfl rfl rfl rfl
  · show S.host.conn.inbox ++ [.message env] = (held ++ [env]).map .message
    simp [hinbox]
  · show binary (Setup.frames hC .peer ((S.host.heard ++ held).length + 1) later) =
      binary (Setup.frames hC .peer (S.host.heard ++ (held ++ [env])).length later)
    rw [hlen]
  · intro hlisten
    rw [show hostListens S.host.pc .message = true from hlisten] at hsilent
    cases hsilent

theorem sound_deliverToHost (hpeer : PeerUp hC S) (hhost : HostPhase hC S)
    (hpossible : S.possible L .deliverToHost) : Sound hC (S.step L .deliverToHost) := by
  obtain ⟨hsome, hturn, hlimit⟩ := hpossible
  cases hhost with
  | waiting hfresh hpc htoHost => exact sound_confirmDelivered hpeer hfresh hpc htoHost
  | confirmed early later hsaid hfresh hpc htoHost =>
    cases later with
    | nil => exact absurd htoHost hsome
    | cons env later => exact sound_earlyDelivered hpeer hsaid hfresh hpc htoHost hlimit
  | up held later hsaid hlinked hstage htasks hinbox htoHost hprompt =>
    cases later with
    | nil => exact absurd htoHost hsome
    | cons env later =>
      obtain ⟨hsendable, hbound⟩ := hpeer.sendable
      have henv : L.Sendable env := hsendable env (by rw [hsaid]; simp)
      have hcount : (S.host.heard ++ held).length ≤ maxU64 := by
        rw [hsaid, List.length_append, List.length_cons] at hbound
        omega
      have honFrame : S.host.onFrame L.decipher L.wire hostProgram
          (Setup.frame hC .peer (S.host.heard ++ held).length env, true) =
            ({ S.host with conn := { S.host.conn with
              decoder := some (Setup.decoder hC .peer ((S.host.heard ++ held).length + 1)) } } :
                Host).deliver hostProgram (.message env) := by
        unfold Process.onFrame
        rw [show ConnectionRole.peer = other .host from rfl,
          onMessage_linked hlinked hostProgram hcount henv]
      rw [step_deliverToHost htoHost, honFrame]
      cases hlisten : hostListens S.host.pc .message with
      | true =>
        -- the turn has just begun, so nothing is left in the inbox
        have hheld : held = [] := by
          by_contra hne
          exact Bool.false_ne_true (hturn.symm.trans (hprompt hlisten hne).1)
        subst hheld
        rw [List.append_nil] at hsaid hlinked ⊢
        exact sound_messageHeard hpeer hsaid hlinked hstage htasks hinbox hlisten
      | false => exact sound_messageHeld hpeer hsaid hlinked hstage htasks hinbox hlisten

/-- The code around the host sends a body. -/
theorem sound_hostSends (hpeer : PeerUp hC S) (hhost : HostPhase hC S) {body : Body}
    (hadmitted : S.host.pc = .admitted) (hfits : L.Fits (S.host.conn.envelope body)) :
    Sound hC (S.step L (.hostSends body)) := by
  cases hhost with
  | waiting hfresh hpc htoHost =>
    rw [hpc] at hadmitted
    cases hadmitted
  | confirmed early later hsaid hfresh hpc htoHost =>
    rw [hpc] at hadmitted
    cases hadmitted
  | up held later hsaid hlinked hstage htasks hinbox htoHost hprompt =>
    rcases send_linked hlinked hfits with ⟨e, hsend⟩ | ⟨henv, hcount, hsend⟩
    · rw [step_hostSends (sendBody_error hsend), List.append_nil]
      exact sound_of_host hpeer rfl rfl rfl (.up held later hsaid
        (hlinked.congr rfl rfl rfl rfl) (hstage.congr rfl rfl) htasks hinbox htoHost hprompt)
    · rw [step_hostSends (sendBody_ok hsend)]
      exact .inr ⟨hpeer.of_host rfl (.inr ⟨_, rfl, rfl⟩), .up held later hsaid
        (hlinked.sent henv hcount _ rfl rfl) (hstage.congr rfl rfl) htasks hinbox htoHost hprompt⟩

/-! ### All steps -/

/-- **The step lemma.** -/
theorem sound_step (hC : L.Correct) (hh : L.Honest) (h : Sound hC S) {e : RoomEvent}
    (hpossible : S.possible L e) : Sound hC (S.step L e) := by
  rcases h with hclear | ⟨hpeer, hhost⟩
  · -- in the clear, the code around the two functions has not begun
    have hunjoined : S.peer.pc.joined = false ∧ S.host.pc ≠ .admitted := by
      obtain ⟨toHost, toPeer, hstage, -, -⟩ := hclear.stage
      generalize S.host.pc = hostPc at hstage ⊢
      generalize S.peer.pc = peerPc at hstage ⊢
      cases hstage <;> exact ⟨rfl, by simp⟩
    cases e with
    | deliverToHost => exact .inl (clear_deliverToHost hC hh hclear hpossible.1)
    | deliverToPeer => exact .inl (clear_deliverToPeer hC hh hclear hpossible.1)
    | hostTask => exact .inl (clear_hostTask hh hclear hpossible)
    | peerTask => exact sound_peerTask_of_clear hC hh hclear hpossible
    | derived =>
      obtain ⟨sid, params, hpc⟩ := hpossible
      exact .inl (clear_derived hh hclear hpc)
    | peerSends body => exact absurd hpossible.1 (by simp [hunjoined.1])
    | hostSends body => exact absurd hpossible.1 hunjoined.2
    | peerListens listening => exact absurd hpossible (by simp [Room.possible, hunjoined.1])
    | peerNamed peerId => exact absurd hpossible (by simp [Room.possible, hunjoined.1])
  · cases e with
    | deliverToHost => exact sound_deliverToHost hpeer hhost hpossible
    | deliverToPeer => exact sound_deliverToPeer hpeer hhost hpossible.1
    | hostTask => exact sound_hostTask hpeer hhost hpossible
    | peerTask =>
      obtain ⟨task, queue, hqueue⟩ := List.exists_cons_of_ne_nil hpossible
      cases task with
      | flush => exact sound_peerFlush hpeer hhost hqueue
      | resume => exact sound_peerResume hh hpeer hhost hqueue
    | derived =>
      obtain ⟨sid, params, hpc⟩ := hpossible
      cases hpeer.stage with
      | returned hpc' _ _ _ =>
        rw [hpc] at hpc'
        cases hpc'
      | joined _ _ hpc' _ =>
        rw [hpc] at hpc'
        cases hpc'
    | peerSends body => exact sound_peerSends hpeer hhost hpossible.1 hpossible.2
    | hostSends body => exact sound_hostSends hpeer hhost hpossible.1 hpossible.2
    | peerListens listening => exact sound_peerListens hpeer hhost hpossible
    | peerNamed peerId => exact sound_peerNamed hpeer hhost

end ScreenSharing.Handshake
