import ScreenSharing.Handshake.Links

/-!
# The exchange in the clear

Until the peer upgrades, one message at most is under way, and each side knows which one: `Early` lists
the pairs of places where the two functions can stand, with the message in each channel.  Every step
that delivers a message or resumes a function leads from one line of the list to the next; behind the
last one is the upgrade of the peer.
-/

namespace ScreenSharing.Handshake

open Lib Crypto Net

/-! ### Microtasks -/

/-- A continuation is queued exactly if the promise is settled. -/
def Tasks (queue : List Task) (settled : Bool) : Prop := queue.count .resume = settled.toNat

theorem tasks_wait {queue : List Task} {settled : Bool} (h : Tasks queue settled) :
    Tasks (queue ++ [.flush]) settled := by
  unfold Tasks
  rw [List.count_append, h]
  rfl

theorem tasks_settle {queue : List Task} (h : Tasks queue false) : Tasks (queue ++ [.resume]) true := by
  unfold Tasks
  rw [List.count_append, h]
  rfl

theorem tasks_of_flush {queue : List Task} {settled : Bool} (h : Tasks (.flush :: queue) settled) :
    Tasks queue settled := by
  unfold Tasks at h ⊢
  rw [← h, List.count_cons_of_ne (by decide)]

theorem tasks_of_resume {queue : List Task} {settled : Bool} (h : Tasks (.resume :: queue) settled) :
    settled = true ∧ Tasks queue false := by
  unfold Tasks at h ⊢
  rw [List.count_cons_self] at h
  cases settled with
  | false => cases h
  | true => exact ⟨rfl, Nat.succ.inj h⟩

def HostPc.settled : HostPc → Bool
  | .awaitHello | .awaitPakePeer | .awaitConfirm _ | .awaitJoin | .admitted | .ended _ => false
  | _ => true

def PeerPc.settled {order : ℕ} : PeerPc order → Bool
  | .awaitAck | .awaitW _ _ | .awaitPakeHost _ | .sentJoin _ | .ended _ => false
  | _ => true

/-! ### A side before its upgrade -/

/-- A side whose connection is as it was made. -/
structure Fresh {Pc : Type*} (conn : Connection) (p : Process Pc) (settled : Bool) : Prop where
  conn : p.conn = conn
  heard : p.heard = []
  said : p.said = []
  faultless : p.faults = []
  tasks : Tasks p.queue settled

section

variable {Pc : Type*} {conn : Connection} {p : Process Pc}

theorem Fresh.settle (h : Fresh conn p false) (pc : Pc) : Fresh conn (p.settle pc) true :=
  ⟨h.conn, h.heard, h.said, h.faultless, tasks_settle h.tasks⟩

theorem Fresh.wait (h : Fresh conn p false) (pc : Pc) : Fresh conn (p.wait pc) false :=
  ⟨h.conn, h.heard, h.said, h.faultless, tasks_wait h.tasks⟩

/-- Taking the microtask at the head. -/
theorem Fresh.pop {task : Task} {queue : List Task} {settled : Bool} (h : Fresh conn p settled)
    (hqueue : p.queue = task :: queue) : Fresh conn { p with queue := queue } (match task with
      | .flush => settled
      | .resume => false) := by
  have htasks := h.tasks
  rw [hqueue] at htasks
  refine ⟨h.conn, h.heard, h.said, h.faultless, ?_⟩
  cases task with
  | flush => exact tasks_of_flush htasks
  | resume => exact (tasks_of_resume htasks).2

/-- A flush of an empty inbox. -/
theorem flush_nil {prog : Program Pc} (h : p.conn.inbox = []) : p.flush prog = p := by
  refine flush_hold fun item hmem => ?_
  rw [h] at hmem
  cases hmem

theorem runTask_flush {prog : Program Pc} {resume : Process Pc → Process Pc × List Frame}
    {queue : List Task} (h : p.queue = .flush :: queue) : p.runTask prog resume =
      ({ ({ p with queue := queue } : Process Pc).flush prog with
        draining := !(({ p with queue := queue } : Process Pc).flush prog).queue.isEmpty }, []) := by
  unfold Process.runTask
  rw [h]

theorem runTask_resume {prog : Program Pc} {resume : Process Pc → Process Pc × List Frame}
    {queue : List Task} {p' : Process Pc} {frames : List Frame} (h : p.queue = .resume :: queue)
    (hresume : resume { p with queue := queue } = (p', frames)) :
    p.runTask prog resume = ({ p' with draining := !p'.queue.isEmpty }, frames) := by
  unfold Process.runTask
  rw [h]
  dsimp only
  rw [hresume]

end

variable {P J : Type*} [AddCommGroup P] {L : Setup P J}

/-- Messages, as text frames. -/
def texts (L : Setup P J) (msgs : List HandshakeMessage) : List Frame :=
  msgs.map fun msg => (L.wire.ofHandshake msg, false)

/-- A message of the other side is delivered. -/
theorem onFrame_text {Pc : Type*} {prog : Program Pc} {p : Process Pc} (hC : L.Correct)
    {msg : HandshakeMessage} (hmem : msg ∈ L.messages) (hconf : Conforms msg)
    (hclear : p.conn.encoder = none) :
    p.onFrame L.decipher L.wire prog (L.wire.ofHandshake msg, false) =
      p.deliver prog (.handshake msg) := by
  have hreceive : p.conn.receive L.decipher L.wire (L.wire.ofHandshake msg) false =
      (p.conn, .ok (some (.handshake msg))) := by
    unfold Connection.receive Connection.encrypted
    rw [hclear, Option.isSome_none, if_neg Bool.false_ne_true, if_neg Bool.false_ne_true,
      hC.json msg hmem hconf]
  unfold Process.onFrame Process.onMessage
  rw [hreceive]

theorem tell_clear {Pc : Type*} {prog : Program Pc} {p next : Process Pc} {msg : HandshakeMessage}
    (hclear : p.conn.encoder = none) :
    p.tell L.wire prog msg next = (next, [(L.wire.ofHandshake msg, false)]) := by
  unfold Process.tell Connection.sendHandshake Connection.encrypted
  rw [hclear]
  rfl

/-! ### The list -/

/-- Where the two functions can stand, and the messages on their way to the host and to the peer. -/
inductive Early (L : Setup P J) : HostPc → PeerPc L.prim.order → List HandshakeMessage →
    List HandshakeMessage → Prop
  | hello : Early L .awaitHello .awaitAck [L.hello] []
  | gotHello : Early L (.gotHello protocolVersion (bytesToHex L.peer.roomId)) .awaitAck [] []
  | ack : Early L .awaitPakePeer .awaitAck [] [L.ack]
  | gotAck : Early L .awaitPakePeer
      (.gotAck protocolVersion (bytesToHex L.host.sid) L.host.argonParams) [] []
  | awaitW : Early L .awaitPakePeer (.awaitW (bytesToHex L.host.sid) L.host.argonParams) [] []
  | gotW : Early L .awaitPakePeer (.gotW (bytesToHex L.host.sid) L.host.w) [] []
  | pakePeer : Early L .awaitPakePeer (.awaitPakeHost L.begun) [L.pakePeer] []
  | gotPakePeer : Early L (.gotPakePeer (bytesToHex L.ya)) (.awaitPakeHost L.begun) [] []
  | pakeHost : Early L (.awaitConfirm L.responded) (.awaitPakeHost L.begun) [] [L.pakeHost]
  | gotPakeHost : Early L (.awaitConfirm L.responded)
      (.gotPakeHost L.begun (bytesToHex L.yb) (bytesToHex L.macHost)) [] []

/-- The two sides in the clear. -/
structure Clear (S : Room L.prim.order) : Prop where
  host : Fresh L.hostConn S.host S.host.pc.settled
  peer : Fresh (Connection.new .peer) S.peer S.peer.pc.settled
  stage : ∃ toHost toPeer, Early L S.host.pc S.peer.pc toHost toPeer ∧
    S.toHost = texts L toHost ∧ S.toPeer = texts L toPeer

theorem clear_start : Clear (Room.start L) where
  host := ⟨rfl, rfl, rfl, rfl, rfl⟩
  peer := ⟨rfl, rfl, rfl, rfl, rfl⟩
  stage := ⟨_, _, .hello, rfl, rfl⟩

/-- A message that is awaited settles the promise. -/
theorem deliver_settle {Pc : Type*} {prog : Program Pc} {p : Process Pc} {msg : HandshakeMessage}
    {pc : Pc} (hlistens : prog.listens p.pc .handshake = true)
    (hitem : prog.onItem p.pc (.handshake msg) = (pc, true)) :
    p.deliver prog (.handshake msg) = p.settle pc := by
  rw [deliver_emit hlistens]
  unfold Process.emit
  rw [hitem]
  rfl

/-! ### The segments of the two functions -/

variable [DecidableEq P]

theorem resumeHost_gotHello (hh : L.Honest) {p : Host} (hclear : p.conn.encoder = none)
    (hpc : p.pc = .gotHello protocolVersion (bytesToHex L.peer.roomId)) :
    resumeHost L.prim L.decipher L.wire L.host p = (p.wait .awaitPakePeer, texts L [L.ack]) := by
  unfold resumeHost
  rw [hpc]
  dsimp only
  rw [if_neg (not_not.mpr rfl), if_neg (not_not.mpr (by rw [hh.room])), tell_clear hclear]
  rfl

theorem resumeHost_gotPakePeer (hh : L.Honest) {p : Host} (hclear : p.conn.encoder = none)
    (hpc : p.pc = .gotPakePeer (bytesToHex L.ya)) :
    resumeHost L.prim L.decipher L.wire L.host p =
      (p.wait (.awaitConfirm L.responded), texts L [L.pakeHost]) := by
  unfold resumeHost
  rw [hpc]
  dsimp only
  rw [hexToBytes_bytesToHex]
  dsimp only
  rw [Setup.hostRespond_honest hh]
  dsimp only
  rw [tell_clear hclear]
  rfl

theorem resumePeer_gotAck (hh : L.Honest) {p : Peer L.prim.order}
    (hpc : p.pc = .gotAck protocolVersion (bytesToHex L.host.sid) L.host.argonParams) :
    resumePeer L.prim L.gcm L.decipher L.wire L.peer p =
      ({ p with pc := .awaitW (bytesToHex L.host.sid) L.host.argonParams }, []) := by
  unfold resumePeer
  rw [hpc]
  dsimp only
  rw [if_neg (not_not.mpr rfl), if_neg (by rw [hh.acceptable]; decide)]

theorem resumePeer_gotW (hh : L.Honest) {p : Peer L.prim.order} (hclear : p.conn.encoder = none)
    (hpc : p.pc = .gotW (bytesToHex L.host.sid) L.host.w) :
    resumePeer L.prim L.gcm L.decipher L.wire L.peer p =
      (p.wait (.awaitPakeHost L.begun), texts L [L.pakePeer]) := by
  unfold resumePeer
  rw [hpc]
  dsimp only
  rw [hexToBytes_bytesToHex]
  dsimp only
  rw [hh.room, Setup.peerBegin_honest hh]
  dsimp only
  rw [tell_clear hclear]
  rfl

/-- **The peer upgrades**, behind its confirmation. -/
theorem resumePeer_gotPakeHost (hC : L.Correct) {p : Peer L.prim.order}
    (hconn : p.conn = Connection.new .peer)
    (hpc : p.pc = .gotPakeHost L.begun (bytesToHex L.yb) (bytesToHex L.macHost)) :
    resumePeer L.prim L.gcm L.decipher L.wire L.peer p =
      (({ p with conn := { p.conn with
          encoder := some (Setup.encoder hC .peer 0)
          decoder := some (Setup.decoder hC .host 0) } } : Peer L.prim.order).settle
            (.returned L.isk), texts L [L.pakeConfirm]) := by
  have hclear : p.conn.encoder = none := by rw [hconn]; rfl
  have hsend : p.conn.sendHandshake L.wire (.pakeConfirm (bytesToHex L.macPeer)) =
      .ok (L.wire.ofHandshake L.pakeConfirm) := by
    unfold Connection.sendHandshake Connection.encrypted
    rw [hclear]
    rfl
  have hupgrade : p.upgrade L.decipher L.wire (peerProgram L.prim.order)
      (deriveTransportKeys L.prim L.isk) = ({ p with conn := { p.conn with
        encoder := some (Setup.encoder hC .peer 0)
        decoder := some (Setup.decoder hC .host 0) } }, none) := by
    unfold Process.upgrade
    have hrole : p.conn.role = .peer := by rw [hconn]; rfl
    rw [show deriveTransportKeys L.prim L.isk = L.keys from rfl, upgrade_conn hC hrole hclear, hconn]
    rfl
  unfold resumePeer
  rw [hpc]
  dsimp only
  rw [hexToBytes_bytesToHex, hexToBytes_bytesToHex]
  dsimp only
  rw [Setup.finish_honest]
  dsimp only
  rw [hsend]
  dsimp only
  rw [if_neg (by decide), hupgrade]
  rfl

end ScreenSharing.Handshake
