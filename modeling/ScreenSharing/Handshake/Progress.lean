import ScreenSharing.Handshake.Schedule

/-!
# The handshake comes to an end

Every scheduled step, which delivers a frame, runs a microtask or fulfils the promise of `deriveW`, makes
`work` smaller: what a function has still to do, the frames under way and the queued microtasks.  The
code around the two functions adds at most one to it with each of its steps.  So in every run the
number of scheduled steps is bounded by the number of the others (`scheduled_le`).

No honesty is assumed here: the bound holds for functions that fail, too.
-/

namespace ScreenSharing.Handshake

open Lib Crypto Net

/-! ### One process -/

section

variable {J Pc : Type*}

/-- The rank of a place goes down when a promise is settled there. -/
structure Ranked (prog : Program Pc) (rank : Pc → ℕ) : Prop where
  settled : ∀ pc item, (prog.onItem pc item).2 = true → rank (prog.onItem pc item).1 < rank pc
  kept : ∀ pc item, rank (prog.onItem pc item).1 ≤ rank pc
  failed : ∀ pc e, prog.listens pc .error = true → rank (prog.onError pc e) < rank pc

/-- What a process has still to do. -/
def cost (rank : Pc → ℕ) (p : Process Pc) : ℕ := 5 * rank p.pc + p.queue.length

/-- A process after it was handed something. -/
structure Later (rank : Pc → ℕ) (p p' : Process Pc) : Prop where
  cost : cost rank p' ≤ cost rank p
  draining : p'.draining = p.draining
  queue : p.queue.length ≤ p'.queue.length

variable {rank : Pc → ℕ} {prog : Program Pc} {p p' p'' : Process Pc}

theorem Later.refl : Later rank p p := ⟨Nat.le_refl _, rfl, Nat.le_refl _⟩

theorem Later.trans (h : Later rank p p') (h' : Later rank p' p'') : Later rank p p'' :=
  ⟨Nat.le_trans h'.cost h.cost, h'.draining.trans h.draining, Nat.le_trans h.queue h'.queue⟩

theorem later_deliver (hrank : Ranked prog rank) (item : InboxItem) :
    Later rank p (p.deliver prog item) := by
  unfold Process.deliver
  split
  · have hkept := hrank.kept p.pc item
    have hsettled := hrank.settled p.pc item
    unfold Process.emit
    generalize prog.onItem p.pc item = result at hkept hsettled
    obtain ⟨pc, _ | _⟩ := result
    · refine ⟨?_, rfl, Nat.le_refl _⟩
      show 5 * rank pc + p.queue.length ≤ 5 * rank p.pc + p.queue.length
      dsimp only at hkept
      omega
    · have hlt : rank pc < rank p.pc := hsettled rfl
      refine ⟨?_, rfl, ?_⟩
      · show 5 * rank pc + (p.queue ++ [Task.resume]).length ≤ 5 * rank p.pc + p.queue.length
        simp
        omega
      · show p.queue.length ≤ (p.queue ++ [Task.resume]).length
        simp
  · exact ⟨Nat.le_refl _, rfl, Nat.le_refl _⟩

theorem later_onMessage (hrank : Ranked prog rank) (decipher : Decipher) (wire : Wire J)
    (frame : Frame) : Later rank p (p.onMessage decipher wire prog frame).1 := by
  unfold Process.onMessage
  split
  · exact ⟨Nat.le_refl _, rfl, Nat.le_refl _⟩
  · exact ⟨Nat.le_refl _, rfl, Nat.le_refl _⟩
  · next conn item _ =>
    have hconn : Later rank p { p with conn := conn } := ⟨Nat.le_refl _, rfl, Nat.le_refl _⟩
    exact hconn.trans (later_deliver hrank item)

theorem later_fail (hrank : Ranked prog rank) (e : ConnectionError) :
    Later rank p (p.fail prog e) := by
  unfold Process.fail
  split
  · exact Later.refl
  · split
    · next hlisten =>
      have hlt := hrank.failed p.pc e hlisten
      refine ⟨?_, rfl, ?_⟩
      · show 5 * rank (prog.onError p.pc e) + (p.queue ++ [Task.resume]).length ≤
          5 * rank p.pc + p.queue.length
        simp
        omega
      · show p.queue.length ≤ (p.queue ++ [Task.resume]).length
        simp
    · exact ⟨Nat.le_refl _, rfl, Nat.le_refl _⟩

/-- A frame that is delivered makes no work. -/
theorem later_onFrame (hrank : Ranked prog rank) (decipher : Decipher) (wire : Wire J)
    (frame : Frame) : Later rank p (p.onFrame decipher wire prog frame) := by
  have hmessage := later_onMessage (p := p) hrank decipher wire frame
  unfold Process.onFrame
  generalize p.onMessage decipher wire prog frame = result at hmessage
  obtain ⟨p', _ | e⟩ := result
  · exact hmessage
  · exact hmessage.trans (later_fail hrank e)

theorem later_flushItems (hrank : Ranked prog rank) (items : List InboxItem) (p : Process Pc) :
    Later rank p (Process.flushItems prog items p) := by
  induction items generalizing p with
  | nil => exact Later.refl
  | cons item items ih => exact (later_deliver hrank item).trans (ih _)

theorem later_flush (hrank : Ranked prog rank) (p : Process Pc) :
    Later rank p (p.flush prog) := by
  have hconn : Later rank p { p with conn := { p.conn with inbox := [] } } :=
    ⟨Nat.le_refl _, rfl, Nat.le_refl _⟩
  exact hconn.trans (later_flushItems hrank _ _)

/-- **A microtask is work done**, if the segments of the function do not make more. -/
theorem runTask_cost (hrank : Ranked prog rank) {resume : Process Pc → Process Pc × List Frame}
    (hresume : ∀ p, cost rank (resume p).1 + (resume p).2.length ≤ cost rank p)
    (hqueue : p.queue ≠ []) :
    cost rank (p.runTask prog resume).1 + (p.runTask prog resume).2.length < cost rank p := by
  obtain ⟨task, queue, hqueue⟩ := List.exists_cons_of_ne_nil hqueue
  have hpopped : cost rank { p with queue := queue } + 1 = cost rank p := by
    show 5 * rank p.pc + queue.length + 1 = 5 * rank p.pc + p.queue.length
    rw [hqueue, List.length_cons]
    omega
  unfold Process.runTask
  rw [hqueue]
  cases task with
  | flush =>
    have hflush := (later_flush hrank { p with queue := queue }).cost
    show cost rank (({ p with queue := queue } : Process Pc).flush prog) + 0 < cost rank p
    omega
  | resume =>
    have hsegment := hresume { p with queue := queue }
    show cost rank (resume { p with queue := queue }).1 +
      (resume { p with queue := queue }).2.length < cost rank p
    omega

/-- Only a side that has microtasks left is in the middle of its turn. -/
def Awake (p : Process Pc) : Prop := p.draining = true → p.queue ≠ []

theorem Later.awake (h : Later rank p p') (hawake : Awake p) : Awake p' := by
  intro hdraining
  have hqueue := List.length_pos_of_ne_nil (hawake (h.draining.symm.trans hdraining))
  have hle := h.queue
  exact List.ne_nil_of_length_pos (by omega)

theorem awake_wait (p : Process Pc) (pc : Pc) : Awake (p.wait pc) := by
  intro _
  exact List.append_ne_nil_of_right_ne_nil _ (List.cons_ne_nil _ _)

theorem awake_settle (p : Process Pc) (pc : Pc) : Awake (p.settle pc) := by
  intro _
  exact List.append_ne_nil_of_right_ne_nil _ (List.cons_ne_nil _ _)

theorem awake_runTask {resume : Process Pc → Process Pc × List Frame} (hqueue : p.queue ≠ []) :
    Awake (p.runTask prog resume).1 := by
  obtain ⟨task, queue, hqueue⟩ := List.exists_cons_of_ne_nil hqueue
  unfold Process.runTask
  rw [hqueue]
  intro h
  simpa using h

/-- Without a listener, the early frames change neither the place nor the queue. -/
theorem drain_silent {decipher : Decipher} {wire : Wire J} (early : List Bytes) (p : Process Pc)
    (hsilent : ∀ name, prog.listens p.pc name = false) :
    (Process.drain decipher wire prog early p).1.pc = p.pc ∧
      (Process.drain decipher wire prog early p).1.queue = p.queue := by
  induction early generalizing p with
  | nil => exact ⟨rfl, rfl⟩
  | cons frame early ih =>
    have hmessage : (p.onMessage decipher wire prog (frame, true)).1.pc = p.pc ∧
        (p.onMessage decipher wire prog (frame, true)).1.queue = p.queue := by
      unfold Process.onMessage
      split
      · exact ⟨rfl, rfl⟩
      · exact ⟨rfl, rfl⟩
      · unfold Process.deliver
        rw [if_neg (by simp [hsilent])]
        exact ⟨rfl, rfl⟩
    unfold Process.drain
    generalize p.onMessage decipher wire prog (frame, true) = result at hmessage
    obtain ⟨p', _ | e⟩ := result
    · obtain ⟨hpc, hqueue⟩ := ih p' (by rw [hmessage.1]; exact hsilent)
      exact ⟨hpc.trans hmessage.1, hqueue.trans hmessage.2⟩
    · exact hmessage

theorem upgrade_silent {decipher : Decipher} {wire : Wire J} {keys : TransportKeys}
    (hsilent : ∀ name, prog.listens p.pc name = false) :
    (p.upgrade decipher wire prog keys).1.pc = p.pc ∧
      (p.upgrade decipher wire prog keys).1.queue = p.queue := by
  unfold Process.upgrade
  split
  · exact ⟨rfl, rfl⟩
  · next conn early _ => exact drain_silent early { p with conn := conn } hsilent

theorem cost_settle (pc : Pc) : cost rank (p.settle pc) = 5 * rank pc + p.queue.length + 1 := by
  show 5 * rank pc + (p.queue ++ [Task.resume]).length = _
  simp
  omega

theorem cost_wait (pc : Pc) : cost rank (p.wait pc) = 5 * rank pc + p.queue.length + 1 := by
  show 5 * rank pc + (p.queue ++ [Task.flush]).length = _
  simp
  omega

end

/-! ### The two functions -/

def hostRank : HostPc → ℕ
  | .awaitHello => 11
  | .gotHello _ _ => 10
  | .awaitPakePeer => 9
  | .gotPakePeer _ => 8
  | .awaitConfirm _ => 7
  | .gotConfirm _ _ => 6
  | .returned _ => 5
  | .awaitJoin => 4
  | .gotJoin _ => 3
  | .refused _ => 2
  | .thrown _ => 1
  | .admitted | .ended _ => 0

def peerRank {order : ℕ} : PeerPc order → ℕ
  | .awaitAck => 9
  | .gotAck _ _ _ => 8
  | .awaitW _ _ => 7
  | .gotW _ _ => 6
  | .awaitPakeHost _ => 5
  | .gotPakeHost _ _ _ => 4
  | .returned _ => 3
  | .refused _ => 2
  | .thrown _ => 1
  | .sentJoin _ | .ended _ => 0

theorem hostOnItem_rank (pc : HostPc) (item : InboxItem) :
    hostOnItem pc item = (pc, false) ∨
      (hostOnItem pc item).2 = true ∧ hostRank (hostOnItem pc item).1 < hostRank pc := by
  unfold hostOnItem
  split
  case h_7 =>
    split <;> exact .inr ⟨rfl, by simp [hostRank]⟩
  case h_8 => exact .inl rfl
  all_goals exact .inr ⟨rfl, by simp [hostRank]⟩

theorem peerOnItem_rank {order : ℕ} (pc : PeerPc order) (item : InboxItem) :
    peerOnItem pc item = (pc, false) ∨
      (peerOnItem pc item).2 = true ∧ peerRank (peerOnItem pc item).1 < peerRank pc := by
  unfold peerOnItem
  split
  case h_5 => exact .inl rfl
  all_goals exact .inr ⟨rfl, by simp [peerRank]⟩

/-- A listener that settles or does nothing. -/
theorem ranked_of {Pc : Type*} {prog : Program Pc} {rank : Pc → ℕ}
    (hitem : ∀ pc item, prog.onItem pc item = (pc, false) ∨
      (prog.onItem pc item).2 = true ∧ rank (prog.onItem pc item).1 < rank pc)
    (hfailed : ∀ pc e, prog.listens pc .error = true → rank (prog.onError pc e) < rank pc) :
    Ranked prog rank where
  settled pc item := by
    intro h
    rcases hitem pc item with hsame | ⟨-, hlt⟩
    · rw [hsame] at h
      cases h
    · exact hlt
  kept pc item := by
    rcases hitem pc item with hsame | ⟨-, hlt⟩
    · rw [hsame]
    · exact Nat.le_of_lt hlt
  failed := hfailed

theorem ranked_host : Ranked hostProgram hostRank := by
  refine ranked_of hostOnItem_rank fun pc e h => ?_
  cases pc <;> first
    | exact absurd h Bool.false_ne_true
    | simp [hostProgram, hostRank]

theorem ranked_peer (order : ℕ) : Ranked (peerProgram order) peerRank := by
  refine ranked_of peerOnItem_rank fun pc e h => ?_
  cases pc <;> first
    | exact absurd h Bool.false_ne_true
    | simp [peerProgram, peerRank]

variable {P J : Type*} [AddCommGroup P]

/-- Sending a body changes neither the place nor the queue, and sends one frame at most. -/
theorem sendBody_cost {L : Setup P J} {Pc : Type*} (rank : Pc → ℕ) (body : Body) (p : Process Pc) :
    cost rank (sendBody L body p).1 = cost rank p ∧ (sendBody L body p).2.length ≤ 1 ∧
      (Awake p → Awake (sendBody L body p).1) := by
  unfold sendBody Process.send
  generalize p.conn.send L.gcm L.wire body = result
  obtain ⟨conn, e | frame⟩ := result
  · exact ⟨rfl, Nat.zero_le _, id⟩
  · exact ⟨rfl, Nat.le_refl _, id⟩

variable [DecidableEq P]

/-- A segment that throws, after sending `k` frames. -/
theorem throw_le {Pc : Type*} {rank : Pc → ℕ} {prog : Program Pc} {p : Process Pc} {f : Failure}
    {k n : ℕ} (hrank : rank (prog.thrown f) = 1) (h : p.queue.length + 6 + k ≤ n) :
    cost rank (p.throw prog f) + k ≤ n := by
  rw [Process.throw, cost_settle, hrank]
  omega

/-- A segment that ends with listeners installed, after sending `k` frames. -/
theorem wait_le {Pc : Type*} {rank : Pc → ℕ} {p : Process Pc} {pc : Pc} {k n : ℕ}
    (h : 5 * rank pc + p.queue.length + 1 + k ≤ n) : cost rank (p.wait pc) + k ≤ n := by
  rw [cost_wait]
  exact h

/-- A segment that sends a message and goes on, or throws. -/
theorem tell_le {Pc : Type*} {rank : Pc → ℕ} {prog : Program Pc} {wire : Wire J}
    {p next : Process Pc} {msg : HandshakeMessage} {n : ℕ} (hrank : ∀ f, rank (prog.thrown f) = 1)
    (hthrow : p.queue.length + 6 ≤ n) (hnext : cost rank next + 1 ≤ n) :
    cost rank (p.tell wire prog msg next).1 + (p.tell wire prog msg next).2.length ≤ n := by
  unfold Process.tell
  split
  · exact throw_le (hrank _) hthrow
  · exact hnext

/-- **No segment of the host makes work.** -/
theorem cost_resumeHost (prim : Primitives P) (decipher : Decipher) (wire : Wire J)
    (cfg : HostConfig prim.order) (p : Host) :
    cost hostRank (resumeHost prim decipher wire cfg p).1 +
      (resumeHost prim decipher wire cfg p).2.length ≤ cost hostRank p := by
  have hrank : ∀ f, hostRank (hostProgram.thrown f) = 1 := fun _ => rfl
  have hcost : cost hostRank p = 5 * hostRank p.pc + p.queue.length := rfl
  unfold resumeHost
  split
  · next v room hpc =>
    have hbudget : cost hostRank p = 50 + p.queue.length := by rw [hcost, hpc]; rfl
    split
    · apply tell_le hrank (by omega)
      exact throw_le (hrank _) (by omega)
    · split
      · apply tell_le hrank (by omega)
        exact throw_le (hrank _) (by omega)
      · apply tell_le hrank (by omega)
        exact wait_le (by simp only [hostRank]; omega)
  · next ya hpc =>
    have hbudget : cost hostRank p = 40 + p.queue.length := by rw [hcost, hpc]; rfl
    split
    · exact throw_le (hrank _) (by simp; omega)
    · split
      · exact throw_le (hrank _) (by simp; omega)
      · apply tell_le hrank (by omega)
        exact wait_le (by simp only [hostRank]; omega)
  · next host mac hpc =>
    have hbudget : cost hostRank p = 30 + p.queue.length := by rw [hcost, hpc]; rfl
    have hsilent : ∀ name, hostProgram.listens p.pc name = false := by
      intro name
      rw [hpc]
      cases name <;> rfl
    split
    · exact throw_le (hrank _) (by simp; omega)
    · split
      · exact throw_le (hrank _) (by simp; omega)
      · have hupgrade := (upgrade_silent hsilent :
          (p.upgrade decipher wire hostProgram (deriveTransportKeys prim host.isk)).1.pc = p.pc ∧
            (p.upgrade decipher wire hostProgram (deriveTransportKeys prim host.isk)).1.queue =
              p.queue)
        split
        · next p' e hresult =>
          rw [hresult] at hupgrade
          exact throw_le (hrank _) (by rw [hupgrade.2]; simp; omega)
        · next p' hresult =>
          rw [hresult] at hupgrade
          rw [cost_settle, hupgrade.2]
          simp only [hostRank, List.length_nil]
          omega
  · next isk hpc =>
    have hbudget : cost hostRank p = 25 + p.queue.length := by rw [hcost, hpc]; rfl
    exact wait_le (by simp [hostRank]; omega)
  · next join hpc =>
    have hbudget : cost hostRank p = 15 + p.queue.length := by rw [hcost, hpc]; rfl
    exact wait_le (by simp [hostRank]; omega)
  · next f hpc =>
    have hbudget : cost hostRank p = 10 + p.queue.length := by rw [hcost, hpc]; rfl
    exact throw_le (hrank _) (by simp; omega)
  · next f hpc =>
    have hbudget : cost hostRank p = 5 + p.queue.length := by rw [hcost, hpc]; rfl
    show 5 * 0 + p.queue.length + 0 ≤ _
    omega
  · simp

/-- **No segment of the peer makes work.** -/
theorem cost_resumePeer (prim : Primitives P) (gcm : Gcm) (decipher : Decipher) (wire : Wire J)
    (cfg : PeerConfig prim.order) (p : Peer prim.order) :
    cost peerRank (resumePeer prim gcm decipher wire cfg p).1 +
      (resumePeer prim gcm decipher wire cfg p).2.length ≤ cost peerRank p := by
  have hrank : ∀ f, peerRank ((peerProgram prim.order).thrown f) = 1 := fun _ => rfl
  have hcost : cost peerRank p = 5 * peerRank p.pc + p.queue.length := rfl
  unfold resumePeer
  dsimp only
  split
  · next v sid params hpc =>
    have hbudget : cost peerRank p = 40 + p.queue.length := by rw [hcost, hpc]; rfl
    split
    · exact throw_le (hrank _) (by simp; omega)
    · split
      · exact throw_le (hrank _) (by simp; omega)
      · show 5 * 7 + p.queue.length + 0 ≤ _
        omega
  · next sid w hpc =>
    have hbudget : cost peerRank p = 30 + p.queue.length := by rw [hcost, hpc]; rfl
    split
    · exact throw_le (hrank _) (by simp; omega)
    · split
      · exact throw_le (hrank _) (by simp; omega)
      · apply tell_le hrank (by omega)
        exact wait_le (by simp only [peerRank]; omega)
  · next peer yb mac hpc =>
    have hbudget : cost peerRank p = 20 + p.queue.length := by rw [hcost, hpc]; rfl
    have hsilent : ∀ name, (peerProgram prim.order).listens p.pc name = false := by
      intro name
      rw [hpc]
      cases name <;> rfl
    split
    · split
      · apply tell_le hrank (by omega)
        exact throw_le (hrank _) (by omega)
      · split
        · exact throw_le (hrank _) (by simp; omega)
        · split
          · exact throw_le (hrank _) (by simp; omega)
          · next result _ _ _ _ _ =>
            have hupgrade := (upgrade_silent hsilent :
              (p.upgrade decipher wire (peerProgram prim.order)
                  (deriveTransportKeys prim result.isk)).1.pc = p.pc ∧
                (p.upgrade decipher wire (peerProgram prim.order)
                  (deriveTransportKeys prim result.isk)).1.queue = p.queue)
            split
            · next p' e hresult =>
              rw [hresult] at hupgrade
              exact throw_le (hrank _) (by rw [hupgrade.2]; simp; omega)
            · next p' hresult =>
              rw [hresult] at hupgrade
              rw [cost_settle, hupgrade.2]
              simp only [peerRank, List.length_singleton]
              omega
    · exact throw_le (hrank _) (by simp; omega)
  · next isk hpc =>
    have hbudget : cost peerRank p = 15 + p.queue.length := by rw [hcost, hpc]; rfl
    have hsend : ∀ p₀ : Peer prim.order,
        (p₀.send gcm wire (.join cfg.join)).1.queue = p₀.queue := by
      intro p₀
      unfold Process.send
      split <;> rfl
    have hqueue := hsend { p with conn := { p.conn with outboundFrom := "pending" } }
    split
    · next p' e hresult =>
      rw [hresult] at hqueue
      exact throw_le (hrank _) (by rw [show p'.queue = p.queue from hqueue]; simp; omega)
    · next p' frame hresult =>
      rw [hresult] at hqueue
      apply wait_le
      rw [show p'.queue = p.queue from hqueue]
      simp only [peerRank, List.length_singleton]
      omega
  · next f hpc =>
    have hbudget : cost peerRank p = 10 + p.queue.length := by rw [hcost, hpc]; rfl
    exact throw_le (hrank _) (by simp; omega)
  · next f hpc =>
    have hbudget : cost peerRank p = 5 + p.queue.length := by rw [hcost, hpc]; rfl
    show 5 * 0 + p.queue.length + 0 ≤ _
    omega
  · simp

/-! ### Both sides -/

/-- What is left to do. -/
def work {order : ℕ} (S : Room order) : ℕ :=
  cost hostRank S.host + cost peerRank S.peer + S.toHost.length + S.toPeer.length

section

variable {L : Setup P J} {S : Room L.prim.order}

/-- **A scheduled step is work done.** -/
theorem work_scheduled {e : RoomEvent} (hscheduled : e.scheduled = true) (h : S.possible L e) :
    work (S.step L e) < work S := by
  cases e with
  | deliverToHost =>
    obtain ⟨frame, rest, htoHost⟩ := List.exists_cons_of_ne_nil h.1
    have hlater := (later_onFrame (p := S.host) ranked_host L.decipher L.wire frame).cost
    unfold Room.step
    rw [htoHost]
    unfold work
    rw [htoHost, List.length_cons]
    dsimp only
    omega
  | deliverToPeer =>
    obtain ⟨frame, rest, htoPeer⟩ := List.exists_cons_of_ne_nil h.1
    have hlater := (later_onFrame (p := S.peer) (ranked_peer _) L.decipher L.wire frame).cost
    unfold Room.step
    rw [htoPeer]
    unfold work
    rw [htoPeer, List.length_cons]
    dsimp only
    omega
  | hostTask =>
    have hcost := runTask_cost ranked_host
      (cost_resumeHost L.prim L.decipher L.wire L.host) (p := S.host) h
    unfold Room.step work
    dsimp only
    rw [List.length_append]
    omega
  | peerTask =>
    have hcost := runTask_cost (ranked_peer _)
      (cost_resumePeer L.prim L.gcm L.decipher L.wire L.peer) (p := S.peer) h
    unfold Room.step work
    dsimp only
    rw [List.length_append]
    omega
  | derived =>
    obtain ⟨sid, argonParams, hpc⟩ := h
    have hcost : cost peerRank S.peer = 35 + S.peer.queue.length := by
      unfold cost
      rw [hpc]
      rfl
    unfold Room.step
    rw [hpc]
    unfold work
    dsimp only
    rw [cost_settle]
    simp only [peerRank]
    omega
  | peerSends _ | hostSends _ | peerListens _ | peerNamed _ => cases hscheduled

/-- The code around the two functions makes little work. -/
theorem work_other {e : RoomEvent} (hother : e.scheduled = false) :
    work (S.step L e) ≤ work S + 1 := by
  cases e with
  | peerSends body =>
    obtain ⟨hcost, hframes, -⟩ := sendBody_cost (L := L) peerRank body S.peer
    unfold Room.step work
    dsimp only
    rw [hcost, List.length_append]
    omega
  | hostSends body =>
    obtain ⟨hcost, hframes, -⟩ := sendBody_cost (L := L) hostRank body S.host
    unfold Room.step work
    dsimp only
    rw [hcost, List.length_append]
    omega
  | peerListens listening =>
    cases listening with
    | true =>
      show cost hostRank S.host + cost peerRank (S.peer.wait (.sentJoin true)) +
        S.toHost.length + S.toPeer.length ≤ work S + 1
      rw [cost_wait]
      unfold work cost
      simp only [peerRank]
      omega
    | false =>
      show cost hostRank S.host + (5 * 0 + S.peer.queue.length) +
        S.toHost.length + S.toPeer.length ≤ work S + 1
      unfold work cost
      omega
  | peerNamed peerId => exact Nat.le_succ _
  | deliverToHost | deliverToPeer | hostTask | peerTask | derived => cases hother

/-- **Every run has few scheduled steps.** -/
theorem scheduled_le {es : List RoomEvent} (hvalid : (handshake L).Valid S es) :
    es.countP RoomEvent.scheduled + work ((handshake L).exec S es) ≤
      work S + es.countP fun e => !e.scheduled := by
  induction es generalizing S with
  | nil => simp
  | cons e es ih =>
    obtain ⟨hpossible, hvalid⟩ := hvalid
    have hrest := ih hvalid
    rw [Machine.exec_cons]
    have hnext : (handshake L).next S e = S.step L e := rfl
    rw [hnext] at hrest ⊢
    cases hscheduled : e.scheduled with
    | true =>
      have hwork := work_scheduled hscheduled hpossible
      rw [List.countP_cons_of_pos hscheduled, List.countP_cons_of_neg (by simp [hscheduled])]
      omega
    | false =>
      have hwork := work_other (S := S) hscheduled
      rw [List.countP_cons_of_neg (by simp [hscheduled]),
        List.countP_cons_of_pos (by simp [hscheduled])]
      omega

/-- Both sides are awake in every run. -/
theorem awake_step (hhost : Awake S.host) (hpeer : Awake S.peer) {e : RoomEvent}
    (h : S.possible L e) : Awake (S.step L e).host ∧ Awake (S.step L e).peer := by
  cases e with
  | deliverToHost =>
    obtain ⟨frame, rest, htoHost⟩ := List.exists_cons_of_ne_nil h.1
    unfold Room.step
    rw [htoHost]
    exact ⟨(later_onFrame ranked_host L.decipher L.wire frame).awake hhost, hpeer⟩
  | deliverToPeer =>
    obtain ⟨frame, rest, htoPeer⟩ := List.exists_cons_of_ne_nil h.1
    unfold Room.step
    rw [htoPeer]
    exact ⟨hhost, (later_onFrame (ranked_peer _) L.decipher L.wire frame).awake hpeer⟩
  | hostTask => exact ⟨awake_runTask h, hpeer⟩
  | peerTask => exact ⟨hhost, awake_runTask h⟩
  | derived =>
    obtain ⟨sid, argonParams, hpc⟩ := h
    unfold Room.step
    rw [hpc]
    exact ⟨hhost, awake_settle _ _⟩
  | peerSends body => exact ⟨hhost, (sendBody_cost peerRank body S.peer).2.2 hpeer⟩
  | hostSends body => exact ⟨(sendBody_cost hostRank body S.host).2.2 hhost, hpeer⟩
  | peerListens listening =>
    cases listening with
    | true => exact ⟨hhost, awake_wait _ _⟩
    | false => exact ⟨hhost, hpeer⟩
  | peerNamed peerId => exact ⟨hhost, hpeer⟩

end

end ScreenSharing.Handshake
