import Mathlib.Data.UInt
import ScreenSharing.Handshake.Honest
import ScreenSharing.Handshake.Progress

/-!
# An honest handshake succeeds

The invariant of honest runs says that nobody fails and that the host hears in order; the measure says
that a run has few scheduled steps.  What is left is that such a run cannot stop early: wherever
the two functions stand before the end, a message, a microtask or the promise of `deriveW` is there to
go on with (`arrived`).
-/

namespace ScreenSharing.Handshake

open Lib Crypto Net

variable {P J : Type*} [AddCommGroup P] {L : Setup P J}

/-! ### What success is -/

/-- Has the function thrown, or will it? -/
def HostPc.failed : HostPc → Bool
  | .refused _ | .thrown _ | .ended _ => true
  | _ => false

def PeerPc.failed {order : ℕ} : PeerPc order → Bool
  | .refused _ | .thrown _ | .ended _ => true
  | _ => false

/-- Neither side has met an error. -/
structure Unharmed (S : Room L.prim.order) : Prop where
  host_faults : S.host.faults = []
  peer_faults : S.peer.faults = []
  host_runs : S.host.pc.failed = false
  peer_runs : S.peer.pc.failed = false

/-- What one side seals with is what the other one opens with. -/
def Directed (encoder : Option FrameEncoder) (decoder : Option FrameDecoder) (keys : DirectionKeys)
    (direction : Direction) : Prop :=
  ∃ E D, encoder = some E ∧ decoder = some D ∧
    E.key = keys.key ∧ E.salt = keys.nonceSalt ∧ E.direction = direction ∧
    D.key = keys.key ∧ D.salt = keys.nonceSalt ∧ D.expectedDirection = direction

/-- Both connections are upgraded, with the keys of the two directions. -/
structure Complementary (keys : TransportKeys) (host peer : Connection) : Prop where
  s2c : Directed host.encoder peer.decoder keys.s2c .serverToClient
  c2s : Directed peer.encoder host.decoder keys.c2s .clientToServer

/-- Nothing is left for the schedule to do. -/
def Quiescent (S : Room L.prim.order) : Prop :=
  ∀ e : RoomEvent, e.scheduled = true → ¬ S.possible L e

/-! ### What the invariant says -/

section

variable {hC : L.Correct} {S : Room L.prim.order}

theorem Early.running {host : HostPc} {peer : PeerPc L.prim.order}
    {toHost toPeer : List HandshakeMessage} (h : Early L host peer toHost toPeer) :
    host.failed = false ∧ peer.failed = false := by
  cases h <;> exact ⟨rfl, rfl⟩

theorem PeerStage.running {p : Peer L.prim.order} (h : PeerStage L p) : p.pc.failed = false := by
  cases h with
  | returned hpc _ _ _ => rw [hpc]; rfl
  | joined _ _ hpc _ => rw [hpc]; rfl

theorem HostStage.running {p : Host} (h : HostStage p) : p.pc.failed = false := by
  cases h with
  | returned _ hpc _ => rw [hpc]; rfl
  | awaitJoin hpc _ => rw [hpc]; rfl
  | gotJoin _ hpc _ => rw [hpc]; rfl
  | admitted hpc _ => rw [hpc]; rfl

theorem HostPhase.running (h : HostPhase hC S) :
    S.host.faults = [] ∧ S.host.pc.failed = false := by
  cases h with
  | waiting hfresh hpc _ => exact ⟨hfresh.faultless, by rw [hpc]; rfl⟩
  | confirmed _ _ _ hfresh hpc _ => exact ⟨hfresh.faultless, by rw [hpc]; rfl⟩
  | up _ _ _ hlinked hstage _ _ _ _ => exact ⟨hlinked.faultless, hstage.running⟩

theorem Sound.unharmed (h : Sound hC S) : Unharmed S := by
  rcases h with hclear | ⟨hpeer, hhost⟩
  · obtain ⟨_, _, hearly, -, -⟩ := hclear.stage
    exact ⟨hclear.host.faultless, hclear.peer.faultless, hearly.running.1, hearly.running.2⟩
  · obtain ⟨_, _, -, hlinked, -⟩ := hpeer.channel
    exact ⟨hhost.running.1, hlinked.faultless, hhost.running.2, hpeer.stage.running⟩

/-- Two sides that are upgraded fit together. -/
theorem complementary_of_linked {n k : ℕ} (hhost : Linked hC .host S.host n)
    (hpeer : Linked hC .peer S.peer k) : Complementary L.keys S.host.conn S.peer.conn where
  s2c := ⟨_, _, hhost.encoder, hpeer.decoder, rfl, rfl, rfl, rfl, rfl, rfl⟩
  c2s := ⟨_, _, hpeer.encoder, hhost.decoder, rfl, rfl, rfl, rfl, rfl, rfl⟩

theorem not_encrypted_of_fresh {Pc : Type*} {p : Process Pc} {conn : Connection} {settled : Bool}
    (h : Fresh conn p settled) (hclear : conn.encoder = none) : p.conn.encrypted ≠ true := by
  unfold Connection.encrypted
  rw [h.conn, hclear]
  decide

/-- The host upgrades after the peer, to the same keys. -/
theorem Sound.complementary (h : Sound hC S) (hencrypted : S.host.conn.encrypted = true) :
    Complementary L.keys S.host.conn S.peer.conn := by
  rcases h with hclear | ⟨hpeer, hhost⟩
  · exact absurd hencrypted (not_encrypted_of_fresh hclear.host rfl)
  · obtain ⟨_, _, -, hlinked, -⟩ := hpeer.channel
    cases hhost with
    | waiting hfresh _ _ => exact absurd hencrypted (not_encrypted_of_fresh hfresh rfl)
    | confirmed _ _ _ hfresh _ _ => exact absurd hencrypted (not_encrypted_of_fresh hfresh rfl)
    | up _ _ _ hup _ _ _ _ _ => exact complementary_of_linked hup hlinked

/-- The host hears what the peer says, in its order. -/
theorem Sound.heard (h : Sound hC S) : S.host.heard <+: S.peer.said := by
  rcases h with hclear | ⟨-, hhost⟩
  · rw [hclear.host.heard]
    exact List.nil_prefix
  · cases hhost with
    | waiting hfresh _ _ => rw [hfresh.heard]; exact List.nil_prefix
    | confirmed _ _ _ hfresh _ _ => rw [hfresh.heard]; exact List.nil_prefix
    | up held later hsaid _ _ _ _ _ _ =>
      rw [hsaid, List.append_assoc]
      exact List.prefix_append _ _

/-- The peer says its join first. -/
theorem Sound.said (h : Sound hC S) :
    S.peer.said = [] ∨ ∃ rest, S.peer.said = L.joinEnvelope :: rest := by
  rcases h with hclear | ⟨hpeer, -⟩
  · exact .inl hclear.peer.said
  · cases hpeer.stage with
    | returned _ hsaid _ _ => exact .inl hsaid
    | joined _ rest _ hsaid => exact .inr ⟨rest, hsaid⟩

end

/-! ### A run that stops has arrived -/

/-- A settled promise has its continuation in the queue. -/
theorem queue_ne_nil {queue : List Task} {settled : Bool} (h : Tasks queue settled)
    (hsettled : settled = true) : queue ≠ [] := by
  rintro rfl
  rw [hsettled] at h
  cases h

section

variable {hC : L.Correct} {S : Room L.prim.order}

theorem Quiescent.queues (h : Quiescent S) : S.host.queue = [] ∧ S.peer.queue = [] :=
  ⟨not_not.mp (h .hostTask rfl), not_not.mp (h .peerTask rfl)⟩

theorem Quiescent.host_settled (h : Quiescent S) {settled : Bool}
    (htasks : Tasks S.host.queue settled) : settled = false := by
  rw [← Bool.not_eq_true]
  exact fun hsettled => queue_ne_nil htasks hsettled h.queues.1

theorem Quiescent.peer_settled (h : Quiescent S) {settled : Bool}
    (htasks : Tasks S.peer.queue settled) : settled = false := by
  rw [← Bool.not_eq_true]
  exact fun hsettled => queue_ne_nil htasks hsettled h.queues.2

theorem not_draining {Pc : Type*} {p : Process Pc} (hawake : Awake p) (hqueue : p.queue = []) :
    p.draining = false := by
  rw [← Bool.not_eq_true]
  exact fun hdraining => hawake hdraining hqueue

/-- A sufficient condition that can be evaluated. -/
theorem quiescent_of_idle (h : S.toHost = [] ∧ S.toPeer = [] ∧ S.host.queue = [] ∧
    S.peer.queue = [] ∧ S.peer.pc.derives = false) : Quiescent S := by
  obtain ⟨htoHost, htoPeer, hhost, hpeer, hderives⟩ := h
  intro e hscheduled hpossible
  cases e with
  | deliverToHost => exact hpossible.1 htoHost
  | deliverToPeer => exact hpossible.1 htoPeer
  | hostTask => exact hpossible hhost
  | peerTask => exact hpossible hpeer
  | derived =>
    rw [(derives_iff S.peer.pc).mpr hpossible] at hderives
    cases hderives
  | peerSends _ | hostSends _ | peerListens _ | peerNamed _ => cases hscheduled

/-- No frame is left that the host could be given. -/
theorem Quiescent.toHost (h : Quiescent S) (hawake : Awake S.host)
    (hready : (S.toHost.head?.map Prod.snd).getD false = true → S.host.conn.encrypted = true) :
    S.toHost = [] := by
  by_contra hne
  refine h .deliverToHost rfl ⟨hne, not_draining hawake h.queues.1, fun hbinary hclear => ?_⟩
  rw [hready hbinary] at hclear
  cases hclear

theorem Quiescent.toPeer (h : Quiescent S) (hawake : Awake S.peer) : S.toPeer = [] := by
  by_contra hne
  exact h .deliverToPeer rfl ⟨hne, not_draining hawake h.queues.2⟩

/-- In the clear there is always something to go on with. -/
theorem Clear.not_quiescent (h : Clear S) (hhost : Awake S.host) (hpeer : Awake S.peer) :
    ¬ Quiescent S := by
  intro hquiet
  obtain ⟨toHost, toPeer, hearly, htoHost, htoPeer⟩ := h.stage
  have hhostSettled := hquiet.host_settled h.host.tasks
  have hpeerSettled := hquiet.peer_settled h.peer.tasks
  have hhostFrames : S.toHost = [] := by
    refine hquiet.toHost hhost fun hbinary => ?_
    -- every frame in the clear is text
    rw [htoHost] at hbinary
    cases toHost <;> cases hbinary
  have hpeerFrames := hquiet.toPeer hpeer
  rw [htoHost] at hhostFrames
  rw [htoPeer] at hpeerFrames
  generalize hhostPc : S.host.pc = hostPc at hearly hhostSettled
  generalize hpeerPc : S.peer.pc = peerPc at hearly hpeerSettled
  cases hearly with
  | hello => cases hhostFrames
  | gotHello => cases hhostSettled
  | ack => cases hpeerFrames
  | gotAck => cases hpeerSettled
  | awaitW => exact hquiet .derived rfl ⟨_, _, hpeerPc⟩
  | gotW => cases hpeerSettled
  | pakePeer => cases hhostFrames
  | gotPakePeer => cases hhostSettled
  | pakeHost => cases hpeerFrames
  | gotPakeHost => cases hpeerSettled

/-- An upgraded peer that has nothing left to do has sent its join. -/
theorem PeerUp.joined (h : PeerUp hC S) (hquiet : Quiescent S) :
    S.peer.pc.joined = true ∧ ∃ rest, S.peer.said = L.joinEnvelope :: rest := by
  have hsettled := hquiet.peer_settled h.tasks
  cases h.stage with
  | returned hpc _ _ _ =>
    rw [hpc] at hsettled
    cases hsettled
  | joined _ rest hpc hsaid => exact ⟨by rw [hpc]; rfl, rest, hsaid⟩

/-- **A run that stops has arrived**: the host has heard everything. -/
theorem arrived (h : Sound hC S) (hhost : Awake S.host) (hpeer : Awake S.peer)
    (hquiet : Quiescent S) : S.host.pc = .admitted ∧ S.peer.pc.joined = true ∧
      S.host.conn.encrypted = true ∧ S.host.heard = S.peer.said := by
  rcases h with hclear | ⟨hup, hphase⟩
  · exact absurd hquiet (hclear.not_quiescent hhost hpeer)
  · obtain ⟨hjoined, rest, hsaid⟩ := hup.joined hquiet
    cases hphase with
    | waiting _ _ htoHost =>
      have hnil := hquiet.toHost hhost fun hbinary => by rw [htoHost] at hbinary; cases hbinary
      rw [htoHost] at hnil
      cases hnil
    | confirmed _ _ _ hfresh _ _ => cases hquiet.host_settled hfresh.tasks
    | up held later hsplit hlinked hstage htasks hinbox htoHost hprompt =>
      have hencrypted : S.host.conn.encrypted = true := by
        unfold Connection.encrypted
        rw [hlinked.encoder]
        rfl
      have hlater : later = [] := by
        have hnil := hquiet.toHost hhost fun _ => hencrypted
        rw [htoHost] at hnil
        cases later with
        | nil => rfl
        | cons env later => cases hnil
      -- whoever listens has an empty inbox, or the turn would go on
      have hheld : hostListens S.host.pc .message = true → held = [] := by
        intro hlistens
        by_contra hne
        have hflush := (hprompt hlistens hne).2
        rw [hquiet.queues.1] at hflush
        cases hflush
      have hsettled := hquiet.host_settled htasks
      rw [hlater, List.append_nil] at hsplit
      cases hstage with
      | returned _ hpc _ =>
        rw [hpc] at hsettled
        cases hsettled
      | gotJoin _ hpc _ =>
        rw [hpc] at hsettled
        cases hsettled
      | awaitJoin hpc hheard =>
        rw [hheard, hheld (by rw [hpc]; rfl), hsaid] at hsplit
        cases hsplit
      | admitted hpc _ =>
        rw [hheld (by rw [hpc]; rfl), List.append_nil] at hsplit
        exact ⟨hpc, hjoined, hencrypted, hsplit.symm⟩

/-! ### Every run -/

variable [DecidableEq P]

/-- What every run of honest sides keeps. -/
theorem sound_run (hC : L.Correct) (hh : L.Honest) {es : List RoomEvent}
    (hvalid : (handshake L).Valid (Room.start L) es) :
    let S := (handshake L).exec (Room.start L) es
    Sound hC S ∧ Awake S.host ∧ Awake S.peer := by
  refine Machine.exec_invariant (I := fun S : Room L.prim.order =>
    Sound hC S ∧ Awake S.host ∧ Awake S.peer) ?_ hvalid ?_
  · rintro S e ⟨hsound, hhost, hpeer⟩ hpossible
    exact ⟨sound_step hC hh hsound hpossible, awake_step hhost hpeer hpossible⟩
  · refine ⟨.inl clear_start, ?_, ?_⟩
    · intro hdraining
      cases hdraining
    · intro hdraining
      cases hdraining

/-- **An honest handshake succeeds under any schedule.**  At no time has either side met an error; a
host that is upgraded has the keys of the peer; the host hears what the peer says in its order, the
join first.  The scheduled steps are few, and when none is left, both functions have returned, both
connections are upgraded, and the host has heard all that the peer has said. -/
theorem honest_handshake (hC : L.Correct) (hh : L.Honest) {es : List RoomEvent}
    (hvalid : (handshake L).Valid (Room.start L) es) :
    let S := (handshake L).exec (Room.start L) es
    Unharmed S ∧
      (S.host.conn.encrypted = true → Complementary L.keys S.host.conn S.peer.conn) ∧
      S.host.heard <+: S.peer.said ∧
      (S.peer.said = [] ∨ ∃ rest, S.peer.said = L.joinEnvelope :: rest) ∧
      (es.countP RoomEvent.scheduled ≤ 103 + es.countP fun e => !e.scheduled) ∧
      (Quiescent S → S.host.pc = .admitted ∧ S.peer.pc.joined = true ∧
        Complementary L.keys S.host.conn S.peer.conn ∧
        ∃ rest, S.host.heard = L.joinEnvelope :: rest ∧ S.peer.said = S.host.heard) := by
  intro S
  obtain ⟨hsound, hhost, hpeer⟩ := sound_run hC hh hvalid
  have hsteps := scheduled_le hvalid
  have hwork : work (Room.start L) = 103 := rfl
  refine ⟨hsound.unharmed, hsound.complementary, hsound.heard, hsound.said, by omega, ?_⟩
  intro hquiet
  obtain ⟨hadmitted, hjoined, hencrypted, hheard⟩ := arrived hsound hhost hpeer hquiet
  refine ⟨hadmitted, hjoined, hsound.complementary hencrypted, ?_⟩
  rcases hsound with hclear | ⟨hup, -⟩
  · exact absurd hquiet (hclear.not_quiescent hhost hpeer)
  · obtain ⟨-, rest, hsaid⟩ := hup.joined hquiet
    exact ⟨rest, hheard.trans hsaid, hheard.symm⟩

end

/-! ### A small instance -/

/-- The group of five elements, with sums for hashes. -/
def sumGroup : Primitives (ZMod 5) :=
  { smallGroup with
    hkdf := fun ikm info length => List.replicate length (ikm ++ info).sum
    hmac := fun key msg => List.replicate 32 (key ++ msg).sum }

def quoted (s : String) : String := "\"" ++ s ++ "\""

def jsonObject (fields : List (String × String)) : String :=
  "\x7b" ++ String.intercalate "," (fields.map fun field => quoted field.1 ++ ":" ++ field.2) ++ "\x7d"

/-- `JSON.stringify` of a message whose strings need no escape. -/
def handshakeText (msg : HandshakeMessage) : String :=
  jsonObject (("type", quoted (typeOf msg)) :: match msg with
    | .hello appVersion protoVersion roomId =>
      [("appVersion", quoted appVersion), ("protoVersion", toString protoVersion),
        ("roomId", quoted roomId)]
    | .helloAck protoVersion sid params =>
      [("protoVersion", toString protoVersion), ("sid", quoted sid),
        ("argonParams", jsonObject
          [("m", toString params.m), ("t", toString params.t), ("p", toString params.p)])]
    | .pakePeer ya => [("ya", quoted ya)]
    | .pakeHost yb macHost => [("yb", quoted yb), ("macHost", quoted macHost)]
    | .pakeConfirm macPeer => [("macPeer", quoted macPeer)]
    | .handshakeReject reason => [("reason", quoted (rejectText reason))])

/-- `JSON.stringify` of the envelope of a join. -/
def joinText (env : Envelope) (join : Join) : String :=
  jsonObject [("v", toString env.v), ("epoch", toString env.epoch), ("seq", toString env.seq),
    ("from", quoted env.sender), ("body", jsonObject
      [("type", quoted "join"), ("nickname", quoted join.nickname),
        ("clientCaps", jsonObject [("canHost", toString join.clientCaps.canHost),
          ("inboundPort", toString join.clientCaps.inboundPort)])])]

def bytesOf (text : String) : Bytes := text.toUTF8.data.toList

/-- JSON, as far as the run below needs it: the messages of a handshake and a join. -/
def smallWire (msgs : List HandshakeMessage) (env : Envelope) (join : Join) :
    Wire (HandshakeMessage ⊕ Envelope) where
  parse raw :=
    if raw = bytesOf (joinText env join) then some (.inr env)
    else (msgs.find? fun msg => raw = bytesOf (handshakeText msg)).map .inl
  handshakeMessageSchema
    | .inl msg => .ok msg
    | .inr _ => .error "Invalid input"
  envelopeSchema
    | .inl _ => .error "Invalid input"
    | .inr env => .ok env
  ofHandshake msg := bytesOf (handshakeText msg)
  ofEnvelope env := bytesOf (joinText env join)

def smallJoin : Join := ⟨"ada", ⟨true, 4000⟩⟩

/-- Two sides that know the same password. -/
def smallSides (wire : Wire (HandshakeMessage ⊕ Envelope)) :
    Setup (ZMod 5) (HandshakeMessage ⊕ Envelope) where
  prim := sumGroup
  gcm := default
  decipher _ _ _ body _ := some body
  wire := wire
  host := ⟨[10, 11, 12, 13], [1], ⟨65536, 3, 1⟩, List.replicate 16 0, ⟨3, by decide⟩, "host", 0⟩
  peer := ⟨[10, 11, 12, 13], fun _ => [1], ⟨2, by decide⟩, smallJoin⟩

/-- What the two sides say. -/
def smallMessages : List HandshakeMessage :=
  [.hello "0.1.0" 1 "0a0b0c0d", .helloAck 1 "00000000000000000000000000000000" ⟨65536, 3, 1⟩,
    .pakePeer "0000000000000000000000000000000000000000000000000000000000000003",
    .pakeHost "0000000000000000000000000000000000000000000000000000000000000002"
      "2323232323232323232323232323232323232323232323232323232323232323",
    .pakeConfirm "1111111111111111111111111111111111111111111111111111111111111111"]

def smallSetup : Setup (ZMod 5) (HandshakeMessage ⊕ Envelope) :=
  smallSides (smallWire smallMessages ⟨1, 0, 0, "pending", .join smallJoin⟩ smallJoin)

theorem smallSetup_correct : smallSetup.Correct where
  sized := ⟨fun _ _ _ => List.length_replicate, fun _ _ => List.length_replicate⟩
  opens _ _ _ _ := rfl
  json := by
    have hjson : ∀ msg ∈ smallSetup.messages, parseJson smallSetup.wire.parse
        smallSetup.wire.handshakeMessageSchema (smallSetup.wire.ofHandshake msg) = .ok msg := by
      decide +kernel
    exact fun msg hmem _ => hjson msg hmem

theorem smallSetup_honest : smallSetup.Honest where
  room := rfl
  room_length := rfl
  key := rfl
  acceptable := by decide
  sid_length := rfl
  join_fits := by decide +kernel
  join_length := by decide +kernel

/-- The join reaches the host with the confirmation, before the host upgrades. -/
def smallRun : List RoomEvent :=
  [.peerTask, .hostTask, .deliverToHost, .hostTask, .hostTask, .deliverToPeer, .peerTask, .derived,
    .peerTask, .peerTask, .deliverToHost, .hostTask, .hostTask, .deliverToPeer, .peerTask, .peerTask,
    .peerTask, .deliverToHost, .deliverToHost, .hostTask, .hostTask, .hostTask, .hostTask, .hostTask]

theorem honest_handshake_small :
    (handshake smallSetup).Valid (Room.start smallSetup) smallRun ∧
      ((handshake smallSetup).exec (Room.start smallSetup) smallRun).host.pc = .admitted ∧
      ∃ rest, ((handshake smallSetup).exec (Room.start smallSetup) smallRun).host.heard =
        smallSetup.joinEnvelope :: rest := by
  have hvalid : (handshake smallSetup).Valid (Room.start smallSetup) smallRun := by decide +kernel
  have hquiet : Quiescent ((handshake smallSetup).exec (Room.start smallSetup) smallRun) :=
    quiescent_of_idle (by decide +kernel)
  have hrun := honest_handshake smallSetup_correct smallSetup_honest hvalid
  refine ⟨hvalid, ?_⟩
  generalize (handshake smallSetup).exec (Room.start smallSetup) smallRun = S at hquiet hrun ⊢
  obtain ⟨-, -, -, -, -, hend⟩ := hrun
  obtain ⟨hadmitted, -, -, rest, hheard, -⟩ := hend hquiet
  exact ⟨hadmitted, rest, hheard⟩

end ScreenSharing.Handshake
