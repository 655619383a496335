import ScreenSharing.Handshake.Success

/-!
# Two sides that do not agree

A peer that asks for another room is told so; one that is offered weak parameters gives up; and one that has
another password finds out, as does the host, by the MACs.  Whatever the schedule, neither side is upgraded,
no envelope is sent or heard, and the run comes to an end with the failure that `verdict` names
(`disagreement_refused`).

The two keys differ as far as nothing collides among what the two sides hash in this exchange.
-/

namespace ScreenSharing.Handshake

open Lib Crypto Net

variable {P J : Type*} [AddCommGroup P]

/-! ### What the two sides compute -/

namespace Setup

variable (L : Setup P J)

/-- The password key of the peer. -/
def peerKey : Bytes := L.peer.deriveW L.host.argonParams

def peerGenerator : P := calculateGenerator L.prim L.peerKey (bindingOf L.peer.roomId) L.host.sid

/-- The share of the peer. -/
def share : Bytes := L.prim.encode (L.peer.scalar.1 • L.peerGenerator)

/-- What each side hashes into its session key. -/
def hostInput : Bytes :=
  iskInput L.host.sid (L.prim.encode (L.host.scalar.1 • L.peer.scalar.1 • L.peerGenerator)) L.share [] L.yb []

def peerInput : Bytes :=
  iskInput L.host.sid (L.prim.encode (L.peer.scalar.1 • L.host.scalar.1 • L.generator)) L.share [] L.yb []

def hostIsk : Bytes := L.prim.sha512 L.hostInput

def peerIsk : Bytes := L.prim.sha512 L.peerInput

/-- The MAC of a side over the transcript, under a session key. -/
def macUnder (isk : Bytes) (role : Role) : Bytes := macFor L.prim isk role L.host.sid L.share L.yb

/-- The state of the peer's exchange. -/
def offered : PeerHandshake L.prim.order := ⟨L.host.sid, L.peer.scalar, L.share⟩

/-- The state of the host's exchange. -/
def answered : HostHandshake := ⟨L.yb, L.macUnder L.hostIsk .host, L.hostIsk, L.macUnder L.hostIsk .peer⟩

/-- What the peer makes of the answer. -/
def concluded : PeerResult :=
  ⟨L.peerIsk, L.macUnder L.peerIsk .peer,
    constantTimeEqual (L.macUnder L.hostIsk .host) (L.macUnder L.peerIsk .host)⟩

/-- The messages of the exchange. -/
def offer : HandshakeMessage := .pakePeer (bytesToHex L.share)

def answer : HandshakeMessage := .pakeHost (bytesToHex L.yb) (bytesToHex L.answered.macHost)

def conclusion : HandshakeMessage := .pakeConfirm (bytesToHex L.concluded.macPeer)

/-- Whatever a side says to the other. -/
def spoken : List HandshakeMessage :=
  [L.hello, .handshakeReject .roomIdMismatch, L.ack, L.offer, L.answer, L.conclusion]

/-! ### What is assumed -/

/-- The two sides agree on the room, on the hardening and on the password key. -/
structure Agrees : Prop where
  room : L.peer.roomId = L.host.roomId
  acceptable : argonParamsAcceptable L.host.argonParams = true
  key : L.peerKey = L.host.w

/-- The two sides agree on the room and on the hardening, but not on the password. -/
structure Differs : Prop where
  room : L.peer.roomId = L.host.roomId
  acceptable : argonParamsAcceptable L.host.argonParams = true
  key : L.peerKey ≠ L.host.w

/-- What each side starts with is as the schema of the messages wants it. -/
structure Regular : Prop where
  host_room : L.host.roomId.length = 4
  peer_room : L.peer.roomId.length = 4
  sid : L.host.sid.length = sidBytes
  params : 0 < L.host.argonParams.m ∧ 0 < L.host.argonParams.t ∧ 0 < L.host.argonParams.p

/-- MACs have their length, and the messages survive JSON. -/
structure Carries : Prop where
  length_hmac : ∀ key msg, (L.prim.hmac key msg).length = 32
  json : ∀ msg ∈ L.spoken, Conforms msg →
    parseJson L.wire.parse L.wire.handshakeMessageSchema (L.wire.ofHandshake msg) = .ok msg

/-- What the two sides hash into their generators. -/
def generatorInputs : List Bytes :=
  [generatorString L.host.w (channelId (bindingOf L.host.roomId)) L.host.sid,
    generatorString L.peerKey (channelId (bindingOf L.peer.roomId)) L.host.sid]

/-- The keys and the roles of the MACs. -/
def macInputs : List (Bytes × Role) :=
  [(L.hostIsk, .host), (L.hostIsk, .peer), (L.peerIsk, .host), (L.peerIsk, .peer)]

/-- Nothing that is hashed in this exchange collides. -/
structure Collisionless : Prop where
  generators : ∀ a ∈ L.generatorInputs, ∀ b ∈ L.generatorInputs,
    L.prim.deriveToCurve (L.prim.sha512 a) = L.prim.deriveToCurve (L.prim.sha512 b) → a = b
  isks : L.prim.sha512 L.hostInput = L.prim.sha512 L.peerInput → L.hostInput = L.peerInput
  macs : ∀ a ∈ L.macInputs, ∀ b ∈ L.macInputs, L.macUnder a.1 a.2 = L.macUnder b.1 b.2 → a = b

/-! ### Their keys differ -/

variable {L}

theorem generator_eq (h : L.Collisionless) (hgenerator : L.generator = L.peerGenerator) :
    L.host.w = L.peerKey ∧ L.host.roomId = L.peer.roomId := by
  have hinputs := h.generators _ (List.mem_cons_self ..) _ (List.mem_cons_of_mem _ (List.mem_cons_self ..))
    hgenerator
  obtain ⟨hkey, hchannel, -⟩ := generatorString_injective hinputs
  exact ⟨hkey, congrArg CpaceBinding.roomId (channelId_injective hchannel)⟩

/-- With another password key the two sides arrive at different session keys. -/
theorem isk_ne (h : L.Collisionless) (hkey : L.peerKey ≠ L.host.w) : L.hostIsk ≠ L.peerIsk := by
  intro hisk
  have hsecret := (iskInput_injective (h.isks hisk)).2.1
  have hdecoded := congrArg L.prim.decode hsecret
  rw [L.prim.decode_encode, L.prim.decode_encode] at hdecoded
  have hgenerator := (secret_eq_iff L.prim L.host.scalar L.peer.scalar _ _).mp (Option.some.inj hdecoded)
  exact hkey (generator_eq h hgenerator).1.symm

theorem mac_ne (h : L.Collisionless) (hkey : L.peerKey ≠ L.host.w) (role : Role) :
    constantTimeEqual (L.macUnder L.hostIsk role) (L.macUnder L.peerIsk role) = false := by
  apply constantTimeEqual_eq_false
  intro hmac
  have hinputs : (L.hostIsk, role) = (L.peerIsk, role) := by
    cases role with
    | host => exact h.macs _ (by simp [macInputs]) _ (by simp [macInputs]) hmac
    | peer => exact h.macs _ (by simp [macInputs]) _ (by simp [macInputs]) hmac
  exact isk_ne h hkey (congrArg Prod.fst hinputs)

theorem not_confirmed (h : L.Collisionless) (hkey : L.peerKey ≠ L.host.w) :
    L.concluded.hostConfirmed = false := mac_ne h hkey .host

theorem not_verified (h : L.Collisionless) (hkey : L.peerKey ≠ L.host.w) :
    L.answered.verifyPeer L.concluded.macPeer = false := by
  apply constantTimeEqual_eq_false
  intro hmac
  have hmac' := mac_ne h hkey .peer
  rw [show L.macUnder L.peerIsk .peer = L.macUnder L.hostIsk .peer from hmac,
    (constantTimeEqual_iff _ _).mpr rfl] at hmac'
  cases hmac'

/-! ### The exchange -/

theorem share_ne_zero : L.peer.scalar.1 • L.peerGenerator ≠ 0 :=
  nsmul_ne_zero L.prim _ (Crypto.generator_ne_zero L.prim _ _ _)

theorem peerBegin_offered (h : L.Regular) :
    peerBegin L.prim L.peerKey (bindingOf L.peer.roomId) L.host.sid L.peer.scalar = .ok L.offered :=
  (peerBegin_eq_ok L.prim).mpr ⟨h.sid, rfl⟩

variable [DecidableEq P]

theorem hostRespond_answered (h : L.Regular) :
    hostRespond L.prim L.host.w (bindingOf L.host.roomId) L.host.sid L.share L.host.scalar = .ok L.answered :=
  (hostRespond_eq_ok L.prim).mpr ⟨h.sid, _, decodeShare_encode L.prim share_ne_zero _,
    nsmul_ne_zero L.prim _ share_ne_zero, rfl, rfl, rfl, rfl⟩

theorem finish_concluded : L.offered.finish L.prim L.yb L.answered.macHost = .ok L.concluded := by
  have hshare : L.host.scalar.1 • L.generator ≠ 0 := nsmul_ne_zero L.prim _ generator_ne_zero
  exact (finish_eq_ok L.prim).mpr ⟨_, decodeShare_encode L.prim hshare _,
    nsmul_ne_zero L.prim _ hshare, rfl, rfl, rfl⟩

end Setup

/-! ### How it ends -/

/-- The host refuses a peer that targets another room. -/
def otherRoom : Failure := .handshake "peer targeted a different room" .roomIdMismatch

/-- The peer is told so. -/
def toldOtherRoom : Failure := refusal "hello_ack" (.handshakeReject .roomIdMismatch)

/-- The peer refuses the parameters. -/
def weakHardening : Failure := .handshake "host proposed weaker-than-allowed password hardening" .badMessage

def hostDenies : Failure := .handshake "peer key confirmation failed" .badPassword

def peerDenies : Failure := .handshake "host key confirmation failed (wrong password?)" .badPassword

/-- Where the two functions end.  A host whose parameters were refused waits for its timeout. -/
def Setup.verdict (L : Setup P J) : HostPc × PeerPc L.prim.order :=
  if L.peer.roomId ≠ L.host.roomId then (.ended otherRoom, .ended toldOtherRoom)
  else if argonParamsAcceptable L.host.argonParams = false then (.awaitPakePeer, .ended weakHardening)
  else (.ended hostDenies, .ended peerDenies)

/-! ### The stages -/

def HostPc.over : HostPc → Bool
  | .ended _ => true
  | _ => false

/-- The connection of a host that is not upgraded; who has thrown closes it. -/
def Setup.hostConnAt (L : Setup P J) (pc : HostPc) : Connection := { L.hostConn with closed := pc.over }

def HostGone (f : Failure) (pc : HostPc) : Prop := pc = .thrown f ∨ pc = .ended f

def PeerGone {order : ℕ} (f : Failure) (pc : PeerPc order) : Prop := pc = .thrown f ∨ pc = .ended f

/-- A peer that was rejected, and what is on its way to it. -/
inductive Told {order : ℕ} : PeerPc order → List HandshakeMessage → Prop
  | waiting : Told .awaitAck [.handshakeReject .roomIdMismatch]
  | refused : Told (.refused toldOtherRoom) []
  | gone {pc : PeerPc order} (h : PeerGone toldOtherRoom pc) : Told pc []

/-- A host that checks the MAC of the peer, and what is on its way to it. -/
inductive Checks (L : Setup P J) : HostPc → List HandshakeMessage → Prop
  | waiting : Checks L (.awaitConfirm L.answered) [L.conclusion]
  | got : Checks L (.gotConfirm L.answered (bytesToHex L.concluded.macPeer)) []
  | gone {pc : HostPc} (h : HostGone hostDenies pc) : Checks L pc []

/-- Where the two functions can stand, and the messages on their way to the host and to the peer. -/
inductive Apart (L : Setup P J) : HostPc → PeerPc L.prim.order → List HandshakeMessage →
    List HandshakeMessage → Prop
  | hello : Apart L .awaitHello .awaitAck [L.hello] []
  | gotHello : Apart L (.gotHello protocolVersion (bytesToHex L.peer.roomId)) .awaitAck [] []
  | told {host : HostPc} {peer : PeerPc L.prim.order} {toPeer : List HandshakeMessage}
      (hroom : L.peer.roomId ≠ L.host.roomId) (hhost : HostGone otherRoom host) (hpeer : Told peer toPeer) :
      Apart L host peer [] toPeer
  | ack (hroom : L.peer.roomId = L.host.roomId) : Apart L .awaitPakePeer .awaitAck [] [L.ack]
  | gotAck (hroom : L.peer.roomId = L.host.roomId) : Apart L .awaitPakePeer
      (.gotAck protocolVersion (bytesToHex L.host.sid) L.host.argonParams) [] []
  | weak {peer : PeerPc L.prim.order} (hroom : L.peer.roomId = L.host.roomId)
      (hweak : argonParamsAcceptable L.host.argonParams = false) (hpeer : PeerGone weakHardening peer) :
      Apart L .awaitPakePeer peer [] []
  | awaitW (h : L.Differs) :
      Apart L .awaitPakePeer (.awaitW (bytesToHex L.host.sid) L.host.argonParams) [] []
  | gotW (h : L.Differs) :
      Apart L .awaitPakePeer (.gotW (bytesToHex L.host.sid) L.peerKey) [] []
  | offer (h : L.Differs) : Apart L .awaitPakePeer (.awaitPakeHost L.offered) [L.offer] []
  | gotOffer (h : L.Differs) :
      Apart L (.gotPakePeer (bytesToHex L.share)) (.awaitPakeHost L.offered) [] []
  | answer (h : L.Differs) :
      Apart L (.awaitConfirm L.answered) (.awaitPakeHost L.offered) [] [L.answer]
  | gotAnswer (h : L.Differs) : Apart L (.awaitConfirm L.answered)
      (.gotPakeHost L.offered (bytesToHex L.yb) (bytesToHex L.answered.macHost)) [] []
  | denied {host : HostPc} {peer : PeerPc L.prim.order} {toHost : List HandshakeMessage}
      (h : L.Differs) (hhost : Checks L host toHost) (hpeer : PeerGone peerDenies peer) :
      Apart L host peer toHost []

/-- Two sides in the clear that do not agree. -/
structure Estranged (L : Setup P J) (S : Room L.prim.order) : Prop where
  host : Fresh (L.hostConnAt S.host.pc) S.host S.host.pc.settled
  peer : Fresh (Connection.new .peer) S.peer S.peer.pc.settled
  stage : ∃ toHost toPeer, Apart L S.host.pc S.peer.pc toHost toPeer ∧
    S.toHost = texts L toHost ∧ S.toPeer = texts L toPeer

variable {L : Setup P J}

theorem estranged_start : Estranged L (Room.start L) where
  host := ⟨rfl, rfl, rfl, rfl, rfl⟩
  peer := ⟨rfl, rfl, rfl, rfl, rfl⟩
  stage := ⟨_, _, .hello, rfl, rfl⟩

theorem texts_append (msgs msgs' : List HandshakeMessage) :
    texts L msgs ++ texts L msgs' = texts L (msgs ++ msgs') := List.map_append.symm

theorem texts_eq_nil {msgs : List HandshakeMessage} (h : texts L msgs = []) : msgs = [] :=
  List.map_eq_nil_iff.mp h

theorem head_texts (msgs : List HandshakeMessage) : (((texts L msgs).head?.map Prod.snd).getD false) = false := by
  cases msgs with
  | nil => rfl
  | cons msg msgs => rfl

/-- Neither function gets to where the code behind it sends anything. -/
theorem Apart.unjoined {host : HostPc} {peer : PeerPc L.prim.order} {toHost toPeer : List HandshakeMessage}
    (h : Apart L host peer toHost toPeer) : host ≠ .admitted ∧ peer.joined = false := by
  have hhost : ∀ {f : Failure} {pc : HostPc}, HostGone f pc → pc ≠ .admitted := by
    intro f pc hgone
    rcases hgone with rfl | rfl
    · exact nofun
    · exact nofun
  have hpeer : ∀ {f : Failure} {pc : PeerPc L.prim.order}, PeerGone f pc → pc.joined = false := by
    intro f pc hgone
    rcases hgone with rfl | rfl
    · rfl
    · rfl
  cases h with
  | told hroom hgone htold =>
    refine ⟨hhost hgone, ?_⟩
    cases htold with
    | waiting => rfl
    | refused => rfl
    | gone hgone => exact hpeer hgone
  | weak hroom hweak hgone => exact ⟨nofun, hpeer hgone⟩
  | denied hd hchecks hgone =>
    refine ⟨?_, hpeer hgone⟩
    cases hchecks with
    | waiting => exact nofun
    | got => exact nofun
    | gone hgone => exact hhost hgone
  | _ => exact ⟨nofun, rfl⟩

/-- Where the functions stand when nothing is left to do. -/
theorem Apart.verdict {host : HostPc} {peer : PeerPc L.prim.order} {toHost toPeer : List HandshakeMessage}
    (h : Apart L host peer toHost toPeer) (hhost : host.settled = false) (hpeer : peer.settled = false)
    (htoHost : toHost = []) (htoPeer : toPeer = []) (hderives : peer.derives = false) :
    host = L.verdict.1 ∧ peer = L.verdict.2 := by
  have hhostEnded : ∀ {f : Failure}, HostGone f host → host = .ended f := by
    intro f hgone
    rcases hgone with hgone | hgone
    · rw [hgone] at hhost
      cases hhost
    · exact hgone
  have hpeerEnded : ∀ {f : Failure}, PeerGone f peer → peer = .ended f := by
    intro f hgone
    rcases hgone with hgone | hgone
    · rw [hgone] at hpeer
      cases hpeer
    · exact hgone
  unfold Setup.verdict
  cases h with
  | told hroom hgone htold =>
    rw [if_pos hroom]
    refine ⟨hhostEnded hgone, ?_⟩
    cases htold with
    | waiting => cases htoPeer
    | refused => cases hpeer
    | gone hgone => exact hpeerEnded hgone
  | weak hroom hweak hgone =>
    rw [if_neg (not_not.mpr hroom), if_pos hweak]
    exact ⟨rfl, hpeerEnded hgone⟩
  | denied hd hchecks hgone =>
    rw [if_neg (not_not.mpr hd.room), if_neg (by rw [hd.acceptable]; decide)]
    refine ⟨?_, hpeerEnded hgone⟩
    cases hchecks with
    | waiting => cases htoHost
    | got => cases hhost
    | gone hgone => exact hhostEnded hgone
  | hello => cases htoHost
  | gotHello => cases hhost
  | ack => cases htoPeer
  | gotAck => cases hpeer
  | awaitW => cases hderives
  | gotW => cases hpeer
  | offer => cases htoHost
  | gotOffer => cases hhost
  | answer => cases htoPeer
  | gotAnswer => cases hpeer

theorem Estranged.scheduled {S : Room L.prim.order} (h : Estranged L S) {e : RoomEvent} (hpossible : S.possible L e) :
    e.scheduled = true := by
  obtain ⟨toHost, toPeer, hstage, -, -⟩ := h.stage
  obtain ⟨hadmitted, hjoined⟩ := hstage.unjoined
  have hnot : S.peer.pc.joined ≠ true := by rw [hjoined]; exact Bool.false_ne_true
  cases e with
  | hostSends body => exact absurd hpossible.1 hadmitted
  | peerSends body => exact absurd hpossible.1 hnot
  | peerListens listening => exact absurd hpossible hnot
  | peerNamed peerId => exact absurd hpossible hnot
  | _ => rfl

theorem Estranged.verdict {S : Room L.prim.order} (h : Estranged L S) (hhost : Awake S.host) (hpeer : Awake S.peer)
    (hquiet : Quiescent S) : S.host.pc = L.verdict.1 ∧ S.peer.pc = L.verdict.2 := by
  obtain ⟨toHost, toPeer, hstage, htoHost, htoPeer⟩ := h.stage
  have hnoHost : S.toHost = [] := by
    apply hquiet.toHost hhost
    intro hbinary
    rw [htoHost, head_texts] at hbinary
    cases hbinary
  have hnoPeer := hquiet.toPeer hpeer
  have hderives : S.peer.pc.derives = false := by
    rw [← Bool.not_eq_true]
    exact fun hderives => hquiet .derived rfl ((derives_iff _).mp hderives)
  exact hstage.verdict (hquiet.host_settled h.host.tasks) (hquiet.peer_settled h.peer.tasks)
    (texts_eq_nil (htoHost.symm.trans hnoHost)) (texts_eq_nil (htoPeer.symm.trans hnoPeer)) hderives

/-! ### A microtask -/

/-- A microtask of a side in the clear is a flush, which does nothing, or the next segment. -/
theorem Fresh.runTask {Pc : Type*} {conn : Connection} {p : Process Pc} {settled : Bool} {prog : Program Pc}
    (h : Fresh conn p settled) (hinbox : conn.inbox = []) (hqueue : p.queue ≠ [])
    (resume : Process Pc → Process Pc × List Frame) :
    (∃ p', p.runTask prog resume = (p', []) ∧ p'.pc = p.pc ∧ Fresh conn p' settled) ∨
      settled = true ∧ ∃ p₀, p₀.pc = p.pc ∧ Fresh conn p₀ false ∧ ∀ p' frames, resume p₀ = (p', frames) →
        ∃ p'', p.runTask prog resume = (p'', frames) ∧ p''.pc = p'.pc ∧
          ∀ conn' settled', Fresh conn' p' settled' → Fresh conn' p'' settled' := by
  obtain ⟨task, queue, hqueue⟩ := List.exists_cons_of_ne_nil hqueue
  have hpop := h.pop hqueue
  cases task with
  | flush =>
    have hflush : ({ p with queue := queue } : Process Pc).flush prog = { p with queue := queue } := by
      apply flush_nil
      show p.conn.inbox = []
      rw [h.conn]
      exact hinbox
    left
    refine ⟨{ p with queue := queue, draining := !queue.isEmpty }, ?_, rfl, ?_⟩
    · rw [runTask_flush hqueue, hflush]
    · exact ⟨hpop.conn, hpop.heard, hpop.said, hpop.faultless, hpop.tasks⟩
  | resume =>
    have htasks := h.tasks
    rw [hqueue] at htasks
    right
    refine ⟨(tasks_of_resume htasks).1, { p with queue := queue }, rfl, hpop, fun p' frames hresume => ?_⟩
    refine ⟨{ p' with draining := !p'.queue.isEmpty }, runTask_resume hqueue hresume, rfl, ?_⟩
    exact fun conn' settled' h' => ⟨h'.conn, h'.heard, h'.said, h'.faultless, h'.tasks⟩

/-! ### The segments of the host -/

section

variable [DecidableEq P] {p : Host}

/-- The next segment of the host leads to `pc`, with `msgs` sent. -/
def HostGoes (L : Setup P J) (p : Host) (pc : HostPc) (msgs : List HandshakeMessage) : Prop :=
  ∃ p', resumeHost L.prim L.decipher L.wire L.host p = (p', texts L msgs) ∧ p'.pc = pc ∧
    Fresh (L.hostConnAt pc) p' pc.settled

theorem bytesToHex_injective {a b : Bytes} (h : bytesToHex a = bytesToHex b) : a = b := by
  have hbytes := congrArg hexToBytes h
  rw [hexToBytes_bytesToHex, hexToBytes_bytesToHex] at hbytes
  exact Option.some.inj hbytes

/-- The host rejects a peer that targets another room. -/
theorem hostGoes_other (hp : Fresh L.hostConn p false)
    (hpc : p.pc = .gotHello protocolVersion (bytesToHex L.peer.roomId))
    (hroom : L.peer.roomId ≠ L.host.roomId) :
    HostGoes L p (.thrown otherRoom) [.handshakeReject .roomIdMismatch] := by
  refine ⟨p.settle (.thrown otherRoom), ?_, rfl, hp.settle _⟩
  have hclear : p.conn.encoder = none := by rw [hp.conn]; rfl
  unfold resumeHost
  rw [hpc]
  dsimp only
  rw [if_neg (not_not.mpr rfl), if_pos fun h => hroom (bytesToHex_injective h), tell_clear hclear]
  rfl

theorem hostGoes_ack (hp : Fresh L.hostConn p false)
    (hpc : p.pc = .gotHello protocolVersion (bytesToHex L.peer.roomId))
    (hroom : L.peer.roomId = L.host.roomId) : HostGoes L p .awaitPakePeer [L.ack] := by
  refine ⟨p.wait .awaitPakePeer, ?_, rfl, hp.wait _⟩
  have hclear : p.conn.encoder = none := by rw [hp.conn]; rfl
  unfold resumeHost
  rw [hpc]
  dsimp only
  rw [if_neg (not_not.mpr rfl), if_neg (not_not.mpr (by rw [hroom])), tell_clear hclear]
  rfl

theorem hostGoes_answer (hR : L.Regular) (hp : Fresh L.hostConn p false)
    (hpc : p.pc = .gotPakePeer (bytesToHex L.share)) :
    HostGoes L p (.awaitConfirm L.answered) [L.answer] := by
  refine ⟨p.wait (.awaitConfirm L.answered), ?_, rfl, hp.wait _⟩
  have hclear : p.conn.encoder = none := by rw [hp.conn]; rfl
  unfold resumeHost
  rw [hpc]
  dsimp only
  rw [hexToBytes_bytesToHex]
  dsimp only
  rw [Setup.hostRespond_answered hR]
  dsimp only
  rw [tell_clear hclear]
  rfl

/-- The host finds out. -/
theorem hostGoes_denies (hN : L.Collisionless) (hkey : L.peerKey ≠ L.host.w) (hp : Fresh L.hostConn p false)
    (hpc : p.pc = .gotConfirm L.answered (bytesToHex L.concluded.macPeer)) :
    HostGoes L p (.thrown hostDenies) [] := by
  refine ⟨p.settle (.thrown hostDenies), ?_, rfl, hp.settle _⟩
  unfold resumeHost
  rw [hpc]
  dsimp only
  rw [hexToBytes_bytesToHex]
  dsimp only
  rw [if_pos (Setup.not_verified hN hkey)]
  rfl

theorem hostGoes_ended {f : Failure} (hp : Fresh L.hostConn p false) (hpc : p.pc = .thrown f) :
    HostGoes L p (.ended f) [] := by
  refine ⟨{ p with pc := .ended f, conn := { p.conn with closed := true } }, ?_, rfl, ?_⟩
  · unfold resumeHost
    rw [hpc]
    rfl
  · refine ⟨?_, hp.heard, hp.said, hp.faultless, hp.tasks⟩
    show { p.conn with closed := true } = L.hostConnAt (.ended f)
    rw [hp.conn]
    rfl

end

/-! ### The segments of the peer -/

section

variable [DecidableEq P] {p : Peer L.prim.order}

def PeerGoes (L : Setup P J) (p : Peer L.prim.order) (pc : PeerPc L.prim.order)
    (msgs : List HandshakeMessage) : Prop :=
  ∃ p', resumePeer L.prim L.gcm L.decipher L.wire L.peer p = (p', texts L msgs) ∧ p'.pc = pc ∧
    Fresh (Connection.new .peer) p' pc.settled

/-- The peer does not accept the parameters. -/
theorem peerGoes_weak (hp : Fresh (Connection.new .peer) p false)
    (hpc : p.pc = .gotAck protocolVersion (bytesToHex L.host.sid) L.host.argonParams)
    (hweak : argonParamsAcceptable L.host.argonParams = false) :
    PeerGoes L p (.thrown weakHardening) [] := by
  refine ⟨p.settle (.thrown weakHardening), ?_, rfl, hp.settle _⟩
  unfold resumePeer
  rw [hpc]
  dsimp only
  rw [if_neg (not_not.mpr rfl), if_pos hweak]
  rfl

theorem peerGoes_derive (hp : Fresh (Connection.new .peer) p false)
    (hpc : p.pc = .gotAck protocolVersion (bytesToHex L.host.sid) L.host.argonParams)
    (hacceptable : argonParamsAcceptable L.host.argonParams = true) :
    PeerGoes L p (.awaitW (bytesToHex L.host.sid) L.host.argonParams) [] := by
  refine ⟨{ p with pc := .awaitW (bytesToHex L.host.sid) L.host.argonParams }, ?_, rfl,
    hp.conn, hp.heard, hp.said, hp.faultless, hp.tasks⟩
  unfold resumePeer
  rw [hpc]
  dsimp only
  rw [if_neg (not_not.mpr rfl), if_neg (by rw [hacceptable]; decide)]
  rfl

theorem peerGoes_offer (hR : L.Regular) (hp : Fresh (Connection.new .peer) p false)
    (hpc : p.pc = .gotW (bytesToHex L.host.sid) L.peerKey) :
    PeerGoes L p (.awaitPakeHost L.offered) [L.offer] := by
  refine ⟨p.wait (.awaitPakeHost L.offered), ?_, rfl, hp.wait _⟩
  have hclear : p.conn.encoder = none := by rw [hp.conn]; rfl
  unfold resumePeer
  rw [hpc]
  dsimp only
  rw [hexToBytes_bytesToHex]
  dsimp only
  rw [Setup.peerBegin_offered hR]
  dsimp only
  rw [tell_clear hclear]
  rfl

/-- The peer finds out, and answers all the same. -/
theorem peerGoes_denies (hN : L.Collisionless) (hkey : L.peerKey ≠ L.host.w)
    (hp : Fresh (Connection.new .peer) p false)
    (hpc : p.pc = .gotPakeHost L.offered (bytesToHex L.yb) (bytesToHex L.answered.macHost)) :
    PeerGoes L p (.thrown peerDenies) [L.conclusion] := by
  refine ⟨p.settle (.thrown peerDenies), ?_, rfl, hp.settle _⟩
  have hclear : p.conn.encoder = none := by rw [hp.conn]; rfl
  have hsend : p.conn.sendHandshake L.wire (.pakeConfirm (bytesToHex L.concluded.macPeer)) =
      .ok (L.wire.ofHandshake L.conclusion) := by
    unfold Connection.sendHandshake Connection.encrypted
    rw [hclear]
    rfl
  unfold resumePeer
  rw [hpc]
  dsimp only
  rw [hexToBytes_bytesToHex, hexToBytes_bytesToHex]
  dsimp only
  rw [Setup.finish_concluded]
  dsimp only
  rw [hsend]
  dsimp only
  rw [if_pos (Setup.not_confirmed hN hkey)]
  rfl

theorem peerGoes_thrown {f : Failure} (hp : Fresh (Connection.new .peer) p false) (hpc : p.pc = .refused f) :
    PeerGoes L p (.thrown f) [] := by
  refine ⟨p.settle (.thrown f), ?_, rfl, hp.settle _⟩
  unfold resumePeer
  rw [hpc]
  rfl

theorem peerGoes_ended {f : Failure} (hp : Fresh (Connection.new .peer) p false) (hpc : p.pc = .thrown f) :
    PeerGoes L p (.ended f) [] := by
  refine ⟨{ p with pc := .ended f }, ?_, rfl, hp.conn, hp.heard, hp.said, hp.faultless, hp.tasks⟩
  unfold resumePeer
  rw [hpc]
  rfl

end

/-! ### Messages -/

theorem conforms_spoken (hR : L.Regular) (hC : L.Carries) : ∀ msg ∈ L.spoken, Conforms msg := by
  intro msg hmem
  have hmac : ∀ isk role, isHex 32 (bytesToHex (L.macUnder isk role)) := fun isk role =>
    isHex_bytesToHex (hC.length_hmac _ _)
  simp only [Setup.spoken, List.mem_cons, List.not_mem_nil, or_false] at hmem
  rcases hmem with h | h | h | h | h | h
  · rw [h]
    exact ⟨by decide, isHex_bytesToHex hR.peer_room⟩
  · rw [h]
    trivial
  · rw [h]
    exact ⟨isHex_bytesToHex hR.sid, hR.params⟩
  · rw [h]
    exact isHex_bytesToHex (L.prim.length_encode _)
  · rw [h]
    exact ⟨isHex_bytesToHex (L.prim.length_encode _), hmac _ _⟩
  · rw [h]
    exact hmac _ _

/-- A message that is awaited settles the promise. -/
theorem onFrame_settle {Pc : Type*} {prog : Program Pc} {p : Process Pc} {msg : HandshakeMessage} {pc : Pc}
    (hR : L.Regular) (hC : L.Carries) (hmem : msg ∈ L.spoken) (hclear : p.conn.encoder = none)
    (hlistens : prog.listens p.pc .handshake = true)
    (hitem : prog.onItem p.pc (.handshake msg) = (pc, true)) :
    p.onFrame L.decipher L.wire prog (L.wire.ofHandshake msg, false) = p.settle pc := by
  have hreceive : p.conn.receive L.decipher L.wire (L.wire.ofHandshake msg) false =
      (p.conn, .ok (some (.handshake msg))) := by
    unfold Connection.receive Connection.encrypted
    rw [hclear, Option.isSome_none, if_neg Bool.false_ne_true, if_neg Bool.false_ne_true,
      hC.json msg hmem (conforms_spoken hR hC msg hmem)]
  unfold Process.onFrame Process.onMessage
  rw [hreceive]
  exact deliver_settle hlistens hitem

/-! ### What one step keeps -/

section

variable [DecidableEq P] {S : Room L.prim.order}

/-- A microtask of the host: where it stands and what it says after its next segment is enough. -/
theorem estranged_hostTask_of {toHost toPeer : List HandshakeMessage} (h : Estranged L S)
    (hqueue : S.host.queue ≠ []) (hstage : Apart L S.host.pc S.peer.pc toHost toPeer)
    (htoHost : S.toHost = texts L toHost) (htoPeer : S.toPeer = texts L toPeer)
    (hgoes : S.host.pc.settled = true → ∀ p : Host, p.pc = S.host.pc → Fresh (L.hostConnAt S.host.pc) p false →
      ∃ pc msgs, HostGoes L p pc msgs ∧ Apart L pc S.peer.pc toHost (toPeer ++ msgs)) :
    Estranged L (S.step L .hostTask) := by
  rcases h.host.runTask rfl hqueue (resumeHost L.prim L.decipher L.wire L.host) with hidle | hresumes
  · obtain ⟨p', hrun, hpc, hp'⟩ := hidle
    rw [step_hostTask hrun, List.append_nil]
    refine ⟨?_, h.peer, toHost, toPeer, ?_, htoHost, htoPeer⟩
    · show Fresh (L.hostConnAt p'.pc) p' p'.pc.settled
      rw [hpc]
      exact hp'
    · show Apart L p'.pc S.peer.pc toHost toPeer
      rw [hpc]
      exact hstage
  · obtain ⟨hsettled, p, hpc, hp, hruns⟩ := hresumes
    obtain ⟨pc, msgs, ⟨p', hresume, hpc', hp'⟩, hnext⟩ := hgoes hsettled p hpc hp
    obtain ⟨p'', hrun, hpc'', hkeeps⟩ := hruns p' _ hresume
    have hend : p''.pc = pc := hpc''.trans hpc'
    rw [step_hostTask hrun]
    refine ⟨?_, h.peer, toHost, toPeer ++ msgs, ?_, htoHost, by rw [htoPeer, texts_append]⟩
    · show Fresh (L.hostConnAt p''.pc) p'' p''.pc.settled
      rw [hend]
      exact hkeeps _ _ hp'
    · show Apart L p''.pc S.peer.pc toHost (toPeer ++ msgs)
      rw [hend]
      exact hnext

theorem estranged_hostTask (hR : L.Regular) (hN : L.Collisionless) (h : Estranged L S)
    (hqueue : S.host.queue ≠ []) : Estranged L (S.step L .hostTask) := by
  obtain ⟨toHost, toPeer, hstage, htoHost, htoPeer⟩ := h.stage
  refine estranged_hostTask_of h hqueue hstage htoHost htoPeer fun hsettled p hpc hp => ?_
  -- the host that has thrown closes its connection
  have hthrown : ∀ {f : Failure}, HostGone f S.host.pc → S.host.pc = .thrown f ∧ HostGoes L p (.ended f) [] := by
    intro f hgone
    rcases hgone with hgone | hgone
    · rw [hgone] at hpc hp
      exact ⟨hgone, hostGoes_ended hp hpc⟩
    · rw [hgone] at hsettled
      cases hsettled
  generalize S.host.pc = hostPc at hstage hsettled hpc hp hthrown
  generalize S.peer.pc = peerPc at hstage
  cases hstage with
  | gotHello =>
    by_cases hroom : L.peer.roomId = L.host.roomId
    · exact ⟨_, _, hostGoes_ack hp hpc hroom, .ack hroom⟩
    · exact ⟨_, _, hostGoes_other hp hpc hroom, .told hroom (.inl rfl) .waiting⟩
  | told hroom hhost hpeer =>
    refine ⟨_, _, (hthrown hhost).2, ?_⟩
    rw [List.append_nil]
    exact .told hroom (.inr rfl) hpeer
  | gotOffer hd => exact ⟨_, _, hostGoes_answer hR hp hpc, .answer hd⟩
  | denied hd hhost hpeer =>
    cases hhost with
    | waiting => cases hsettled
    | got => exact ⟨_, _, hostGoes_denies hN hd.key hp hpc, .denied hd (.gone (.inl rfl)) hpeer⟩
    | gone hhost => exact ⟨_, _, (hthrown hhost).2, .denied hd (.gone (.inr rfl)) hpeer⟩
  | hello => cases hsettled
  | ack => cases hsettled
  | gotAck => cases hsettled
  | weak => cases hsettled
  | awaitW => cases hsettled
  | gotW => cases hsettled
  | offer => cases hsettled
  | answer => cases hsettled
  | gotAnswer => cases hsettled

/-- The same, of the peer. -/
theorem estranged_peerTask_of {toHost toPeer : List HandshakeMessage} (h : Estranged L S)
    (hqueue : S.peer.queue ≠ []) (hstage : Apart L S.host.pc S.peer.pc toHost toPeer)
    (htoHost : S.toHost = texts L toHost) (htoPeer : S.toPeer = texts L toPeer)
    (hgoes : S.peer.pc.settled = true → ∀ p : Peer L.prim.order, p.pc = S.peer.pc →
      Fresh (Connection.new .peer) p false →
      ∃ pc msgs, PeerGoes L p pc msgs ∧ Apart L S.host.pc pc (toHost ++ msgs) toPeer) :
    Estranged L (S.step L .peerTask) := by
  rcases h.peer.runTask rfl hqueue (resumePeer L.prim L.gcm L.decipher L.wire L.peer) with hidle | hresumes
  · obtain ⟨p', hrun, hpc, hp'⟩ := hidle
    rw [step_peerTask hrun, List.append_nil]
    refine ⟨h.host, ?_, toHost, toPeer, ?_, htoHost, htoPeer⟩
    · show Fresh (Connection.new .peer) p' p'.pc.settled
      rw [hpc]
      exact hp'
    · show Apart L S.host.pc p'.pc toHost toPeer
      rw [hpc]
      exact hstage
  · obtain ⟨hsettled, p, hpc, hp, hruns⟩ := hresumes
    obtain ⟨pc, msgs, ⟨p', hresume, hpc', hp'⟩, hnext⟩ := hgoes hsettled p hpc hp
    obtain ⟨p'', hrun, hpc'', hkeeps⟩ := hruns p' _ hresume
    have hend : p''.pc = pc := hpc''.trans hpc'
    rw [step_peerTask hrun]
    refine ⟨h.host, ?_, toHost ++ msgs, toPeer, ?_, by rw [htoHost, texts_append], htoPeer⟩
    · show Fresh (Connection.new .peer) p'' p''.pc.settled
      rw [hend]
      exact hkeeps _ _ hp'
    · show Apart L S.host.pc p''.pc (toHost ++ msgs) toPeer
      rw [hend]
      exact hnext

theorem estranged_peerTask (hdiffers : ¬ L.Agrees) (hR : L.Regular) (hN : L.Collisionless) (h : Estranged L S)
    (hqueue : S.peer.queue ≠ []) : Estranged L (S.step L .peerTask) := by
  obtain ⟨toHost, toPeer, hstage, htoHost, htoPeer⟩ := h.stage
  refine estranged_peerTask_of h hqueue hstage htoHost htoPeer fun hsettled p hpc hp => ?_
  have hthrown : ∀ {f : Failure}, PeerGone f S.peer.pc → PeerGoes L p (.ended f) [] := by
    intro f hgone
    rcases hgone with hgone | hgone
    · exact peerGoes_ended hp (hpc.trans hgone)
    · rw [hgone] at hsettled
      cases hsettled
  generalize S.host.pc = hostPc at hstage
  generalize S.peer.pc = peerPc at hstage hsettled hpc hthrown
  cases hstage with
  | told hroom hhost hpeer =>
    cases hpeer with
    | waiting => cases hsettled
    | refused => exact ⟨_, _, peerGoes_thrown hp hpc, .told hroom hhost (.gone (.inl rfl))⟩
    | gone hpeer => exact ⟨_, _, hthrown hpeer, .told hroom hhost (.gone (.inr rfl))⟩
  | gotAck hroom =>
    cases hacceptable : argonParamsAcceptable L.host.argonParams with
    | false => exact ⟨_, _, peerGoes_weak hp hpc hacceptable, .weak hroom hacceptable (.inl rfl)⟩
    | true =>
      have hkey : L.peerKey ≠ L.host.w := fun hkey => hdiffers ⟨hroom, hacceptable, hkey⟩
      exact ⟨_, _, peerGoes_derive hp hpc hacceptable, .awaitW ⟨hroom, hacceptable, hkey⟩⟩
  | weak hroom hweak hpeer => exact ⟨_, _, hthrown hpeer, .weak hroom hweak (.inr rfl)⟩
  | gotW hd => exact ⟨_, _, peerGoes_offer hR hp hpc, .offer hd⟩
  | gotAnswer hd => exact ⟨_, _, peerGoes_denies hN hd.key hp hpc, .denied hd .waiting (.inl rfl)⟩
  | denied hd hhost hpeer =>
    refine ⟨_, _, hthrown hpeer, ?_⟩
    rw [List.append_nil]
    exact .denied hd hhost (.inr rfl)
  | hello => cases hsettled
  | gotHello => cases hsettled
  | ack => cases hsettled
  | awaitW => cases hsettled
  | offer => cases hsettled
  | gotOffer => cases hsettled
  | answer => cases hsettled

/-- The host takes the message that it waits for. -/
theorem estranged_toHost_of {msg : HandshakeMessage} {toPeer : List HandshakeMessage} {host pc : HostPc}
    {peer : PeerPc L.prim.order} (hR : L.Regular) (hC : L.Carries) (h : Estranged L S)
    (hhostPc : S.host.pc = host) (hpeerPc : S.peer.pc = peer) (hmem : msg ∈ L.spoken)
    (htoHost : S.toHost = texts L [msg]) (htoPeer : S.toPeer = texts L toPeer)
    (hwaits : host.settled = false ∧ host.over = false) (hnext : pc.settled = true ∧ pc.over = false)
    (hlistens : hostListens host .handshake = true)
    (hitem : hostOnItem host (.handshake msg) = (pc, true)) (hstage : Apart L pc peer [] toPeer) :
    Estranged L (S.step L .deliverToHost) := by
  subst hhostPc hpeerPc
  have hhost := h.host
  have hclear : S.host.conn.encoder = none := by rw [hhost.conn]; rfl
  rw [step_deliverToHost htoHost, onFrame_settle hR hC hmem hclear hlistens hitem]
  rw [hwaits.1] at hhost
  refine ⟨?_, h.peer, [], toPeer, hstage, rfl, htoPeer⟩
  show Fresh (L.hostConnAt pc) (S.host.settle pc) pc.settled
  rw [hnext.1]
  have hsame : L.hostConnAt pc = L.hostConnAt S.host.pc := by
    unfold Setup.hostConnAt
    rw [hnext.2, hwaits.2]
  rw [hsame]
  exact hhost.settle pc

theorem estranged_deliverToHost (hR : L.Regular) (hC : L.Carries) (h : Estranged L S) (hsome : S.toHost ≠ []) :
    Estranged L (S.step L .deliverToHost) := by
  obtain ⟨toHost, toPeer, hstage, htoHost, htoPeer⟩ := h.stage
  generalize hhostPc : S.host.pc = hostPc at hstage
  generalize hpeerPc : S.peer.pc = peerPc at hstage
  have hnone : toHost ≠ [] := by
    intro hnil
    rw [hnil] at htoHost
    exact hsome htoHost
  cases hstage with
  | hello =>
    exact estranged_toHost_of hR hC h hhostPc hpeerPc (by simp [Setup.spoken]) htoHost htoPeer
      ⟨rfl, rfl⟩ ⟨rfl, rfl⟩ rfl rfl .gotHello
  | offer hd =>
    exact estranged_toHost_of hR hC h hhostPc hpeerPc (by simp [Setup.spoken]) htoHost htoPeer
      ⟨rfl, rfl⟩ ⟨rfl, rfl⟩ rfl rfl (.gotOffer hd)
  | denied hd hhost hpeer =>
    cases hhost with
    | waiting =>
      exact estranged_toHost_of hR hC h hhostPc hpeerPc (by simp [Setup.spoken]) htoHost htoPeer
        ⟨rfl, rfl⟩ ⟨rfl, rfl⟩ rfl rfl
        (.denied hd .got hpeer)
    | got => exact absurd rfl hnone
    | gone => exact absurd rfl hnone
  | gotHello => exact absurd rfl hnone
  | told => exact absurd rfl hnone
  | ack => exact absurd rfl hnone
  | gotAck => exact absurd rfl hnone
  | weak => exact absurd rfl hnone
  | awaitW => exact absurd rfl hnone
  | gotW => exact absurd rfl hnone
  | gotOffer => exact absurd rfl hnone
  | answer => exact absurd rfl hnone
  | gotAnswer => exact absurd rfl hnone

/-- The peer takes the message that it waits for. -/
theorem estranged_toPeer_of {msg : HandshakeMessage} {toHost : List HandshakeMessage} {host : HostPc}
    {peer pc : PeerPc L.prim.order} (hR : L.Regular) (hC : L.Carries) (h : Estranged L S)
    (hhostPc : S.host.pc = host) (hpeerPc : S.peer.pc = peer) (hmem : msg ∈ L.spoken)
    (htoHost : S.toHost = texts L toHost) (htoPeer : S.toPeer = texts L [msg])
    (hwaits : peer.settled = false) (hnext : pc.settled = true)
    (hlistens : peerListens peer .handshake = true)
    (hitem : peerOnItem peer (.handshake msg) = (pc, true)) (hstage : Apart L host pc toHost []) :
    Estranged L (S.step L .deliverToPeer) := by
  subst hhostPc hpeerPc
  have hpeer := h.peer
  have hclear : S.peer.conn.encoder = none := by rw [hpeer.conn]; rfl
  have hframe : S.peer.onFrame L.decipher L.wire (peerProgram L.prim.order) (L.wire.ofHandshake msg, false) =
      S.peer.settle pc := onFrame_settle hR hC hmem hclear hlistens hitem
  rw [step_deliverToPeer htoPeer, hframe]
  rw [hwaits] at hpeer
  refine ⟨h.host, ?_, toHost, [], hstage, htoHost, rfl⟩
  show Fresh (Connection.new .peer) (S.peer.settle pc) pc.settled
  rw [hnext]
  exact hpeer.settle pc

theorem estranged_deliverToPeer (hR : L.Regular) (hC : L.Carries) (h : Estranged L S) (hsome : S.toPeer ≠ []) :
    Estranged L (S.step L .deliverToPeer) := by
  obtain ⟨toHost, toPeer, hstage, htoHost, htoPeer⟩ := h.stage
  generalize hhostPc : S.host.pc = hostPc at hstage
  generalize hpeerPc : S.peer.pc = peerPc at hstage
  have hnone : toPeer ≠ [] := by
    intro hnil
    rw [hnil] at htoPeer
    exact hsome htoPeer
  cases hstage with
  | told hroom hhost hpeer =>
    cases hpeer with
    | waiting =>
      exact estranged_toPeer_of hR hC h hhostPc hpeerPc (by simp [Setup.spoken]) htoHost htoPeer
        rfl rfl rfl rfl (.told hroom hhost .refused)
    | refused => exact absurd rfl hnone
    | gone => exact absurd rfl hnone
  | ack hroom =>
    exact estranged_toPeer_of hR hC h hhostPc hpeerPc (by simp [Setup.spoken]) htoHost htoPeer
      rfl rfl rfl rfl (.gotAck hroom)
  | answer hd =>
    exact estranged_toPeer_of hR hC h hhostPc hpeerPc (by simp [Setup.spoken]) htoHost htoPeer
      rfl rfl rfl rfl (.gotAnswer hd)
  | hello => exact absurd rfl hnone
  | gotHello => exact absurd rfl hnone
  | gotAck => exact absurd rfl hnone
  | weak => exact absurd rfl hnone
  | awaitW => exact absurd rfl hnone
  | gotW => exact absurd rfl hnone
  | offer => exact absurd rfl hnone
  | gotOffer => exact absurd rfl hnone
  | gotAnswer => exact absurd rfl hnone
  | denied => exact absurd rfl hnone

theorem estranged_derived (h : Estranged L S) {sid : String} {params : ArgonParams}
    (hpc : S.peer.pc = .awaitW sid params) : Estranged L (S.step L .derived) := by
  obtain ⟨toHost, toPeer, hstage, htoHost, htoPeer⟩ := h.stage
  have hpeer := h.peer
  rw [hpc] at hpeer hstage
  unfold Room.step
  rw [hpc]
  dsimp only
  refine ⟨h.host, hpeer.settle _, toHost, toPeer, ?_, htoHost, htoPeer⟩
  show Apart L S.host.pc (.gotW sid (L.peer.deriveW params)) toHost toPeer
  generalize S.host.pc = hostPc at hstage ⊢
  cases hstage with
  | awaitW hd => exact .gotW hd
  | told hroom hhost hpeer =>
    cases hpeer with
    | gone h => rcases h with h | h <;> cases h
  | weak hroom hweak hpeer => rcases hpeer with h | h <;> cases h
  | denied hd hhost hpeer => rcases hpeer with h | h <;> cases h

/-- **One step.** -/
theorem estranged_step (hdiffers : ¬ L.Agrees) (hR : L.Regular) (hC : L.Carries) (hN : L.Collisionless)
    (h : Estranged L S) {e : RoomEvent} (hpossible : S.possible L e) : Estranged L (S.step L e) := by
  have hscheduled := h.scheduled hpossible
  cases e with
  | deliverToHost => exact estranged_deliverToHost hR hC h hpossible.1
  | deliverToPeer => exact estranged_deliverToPeer hR hC h hpossible.1
  | hostTask => exact estranged_hostTask hR hN h hpossible
  | peerTask => exact estranged_peerTask hdiffers hR hN h hpossible
  | derived =>
    obtain ⟨sid, params, hpc⟩ := hpossible
    exact estranged_derived h hpc
  | _ => cases hscheduled

/-! ### Every run -/

theorem countP_unscheduled {es : List RoomEvent}
    (h : (handshake L).Along (fun _ e => e.scheduled = true) S es) :
    es.countP RoomEvent.scheduled = es.length ∧ (es.countP fun e => !e.scheduled) = 0 := by
  induction es generalizing S with
  | nil => exact ⟨rfl, rfl⟩
  | cons e es ih =>
    obtain ⟨hscheduled, hrest⟩ := h
    obtain ⟨hall, hnone⟩ := ih hrest
    rw [List.countP_cons_of_pos hscheduled, List.countP_cons_of_neg (by simp [hscheduled]), hall]
    exact ⟨rfl, hnone⟩

/-- **Who does not agree does not get in.**  Two sides differ in the room, in the hardening or in the password.
Under any schedule neither of them is ever upgraded, and no envelope is sent or heard; a run has at most 103
steps; and when nothing is left to do, each function has ended as `verdict` says. -/
theorem disagreement_refused (hdiffers : ¬ L.Agrees) (hR : L.Regular) (hC : L.Carries) (hN : L.Collisionless)
    {es : List RoomEvent} (hvalid : (handshake L).Valid (Room.start L) es) :
    let S := (handshake L).exec (Room.start L) es
    (S.host.conn.encrypted = false ∧ S.peer.conn.encrypted = false) ∧
      (S.host.said = [] ∧ S.host.heard = [] ∧ S.peer.said = [] ∧ S.peer.heard = []) ∧
      es.length ≤ 103 ∧
      (Quiescent S → S.host.pc = L.verdict.1 ∧ S.peer.pc = L.verdict.2) := by
  intro S
  have hstep : ∀ (R : Room L.prim.order) (e : RoomEvent),
      Estranged L R ∧ Awake R.host ∧ Awake R.peer → (handshake L).enabled R e →
      Estranged L ((handshake L).next R e) ∧ Awake ((handshake L).next R e).host ∧
        Awake ((handshake L).next R e).peer := by
    intro R e hR' hpossible
    obtain ⟨h, hhost, hpeer⟩ := hR'
    exact ⟨estranged_step hdiffers hR hC hN h hpossible, awake_step hhost hpeer hpossible⟩
  have hstart : Estranged L (Room.start L) ∧ Awake (Room.start L).host ∧ Awake (Room.start L).peer :=
    ⟨estranged_start, fun h => (by cases h), fun h => (by cases h)⟩
  obtain ⟨h, hhost, hpeer⟩ : Estranged L S ∧ Awake S.host ∧ Awake S.peer :=
    Machine.exec_invariant (I := fun R : Room L.prim.order => Estranged L R ∧ Awake R.host ∧ Awake R.peer)
      hstep hvalid hstart
  have hscheduled : (handshake L).Along (fun _ e => e.scheduled = true) (Room.start L) es :=
    Machine.along_of_invariant hstep (fun R e hR' hpossible => hR'.1.scheduled hpossible) hvalid hstart
  obtain ⟨hall, hnone⟩ := countP_unscheduled hscheduled
  have hsteps := scheduled_le hvalid
  have hwork : work (Room.start L) = 103 := rfl
  refine ⟨⟨?_, ?_⟩, ⟨h.host.said, h.host.heard, h.peer.said, h.peer.heard⟩, by omega, h.verdict hhost hpeer⟩
  · simpa using not_encrypted_of_fresh h.host rfl
  · simpa using not_encrypted_of_fresh h.peer rfl

end

/-! ### A small instance -/

/-- Two sides that have different passwords. -/
def smallStrangers (wire : Wire (HandshakeMessage ⊕ Envelope)) : Setup (ZMod 5) (HandshakeMessage ⊕ Envelope) :=
  { smallSides wire with peer := { (smallSides wire).peer with deriveW := fun _ => [2] } }

/-- JSON, for what they say. -/
def strangers : Setup (ZMod 5) (HandshakeMessage ⊕ Envelope) :=
  smallStrangers (smallWire (smallStrangers smallSetup.wire).spoken ⟨1, 0, 0, "pending", .join smallJoin⟩ smallJoin)

theorem strangers_carry : strangers.Carries where
  length_hmac _ _ := List.length_replicate
  json := by
    have hjson : ∀ msg ∈ strangers.spoken, parseJson strangers.wire.parse
        strangers.wire.handshakeMessageSchema (strangers.wire.ofHandshake msg) = .ok msg := by
      decide +kernel
    exact fun msg hmem _ => hjson msg hmem

theorem strangers_collisionless : strangers.Collisionless :=
  ⟨by decide +kernel, by decide +kernel, by decide +kernel⟩

/-- The host waits for the confirmation, which says nothing to it. -/
def strangersRun : List RoomEvent :=
  [.peerTask, .hostTask, .deliverToHost, .hostTask, .hostTask, .deliverToPeer, .peerTask, .derived,
    .peerTask, .peerTask, .deliverToHost, .hostTask, .hostTask, .deliverToPeer, .peerTask, .peerTask,
    .deliverToHost, .hostTask, .hostTask]

theorem strangers_part :
    ((handshake strangers).exec (Room.start strangers) strangersRun).host.pc = .ended hostDenies := by
  have hvalid : (handshake strangers).Valid (Room.start strangers) strangersRun := by decide +kernel
  have hquiet : Quiescent ((handshake strangers).exec (Room.start strangers) strangersRun) :=
    quiescent_of_idle (by decide +kernel)
  have hrun := disagreement_refused (fun h => absurd h.key (by decide)) ⟨rfl, rfl, rfl, by decide⟩
    strangers_carry strangers_collisionless hvalid
  exact (hrun.2.2.2 hquiet).1

end ScreenSharing.Handshake
