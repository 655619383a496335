import Mathlib.Data.List.Nodup
import ScreenSharing.Relay.Seats

/-!
# The handoff window

HANDOFF by the current host of a room sets a deadline, and moves it when it is repeated.  From then
on the room is *reserved*: its host is departing, its peers stay, and the window ends in one of two
ways.  A host HELLO processed before the deadline *claims* the room, whatever the limits are, and a
sweep at the deadline or later *expires* it.  The two exclude each other at every instant, and
nothing else that can happen in the window ends it: not the close of the departing host, not a
rival HELLO after the deadline, not joins, leaves or kicks.

`reserved_step` is the step lemma, one case for each entry point; `reserved_exec` lifts it to the
run up to the claim or the sweep; `handoff_window` puts the two ways out and the time after the
claim together.  Nothing is assumed of the clock, so a clock that never goes back is one case.
-/

namespace ScreenSharing.Relay

open Lib

variable {L : RelayLimits} {S : ServerState} {R R' : State}

/-! ### The reserved room and the events that matter to it -/

/-- Room `r` is there with this host, and `pending` is the deadline of its handoff, if one is. -/
def HostedBy (R : State) (r : String) (host : Socket) (pending : Option ℕ) : Prop :=
  ∃ room, R.rooms.get r = some room ∧ room.host = host ∧ room.handoffDeadline = pending

/-- Room `r` is kept for a successor of `host` until `deadline`. -/
def Reserved (R : State) (r : String) (host : Socket) (deadline : ℕ) : Prop :=
  HostedBy R r host (some deadline)

/-- The event is a HANDOFF frame from `host`. -/
def HandoffBy (host : Socket) : Event → Prop
  | .message socket data _ => socket = host ∧ data.head? = some T.handoff
  | _ => False

instance (host : Socket) : ∀ e, Decidable (HandoffBy host e)
  | .hello .. => inferInstanceAs (Decidable False)
  | .message .. => inferInstanceAs (Decidable (_ ∧ _))
  | .close _ => inferInstanceAs (Decidable False)
  | .sweep _ => inferInstanceAs (Decidable False)

/-- The event claims room `r`, reserved until `deadline`: a host HELLO for it, with the right protocol
version, processed before the deadline. -/
def Claims (r : String) (deadline : ℕ) : Event → Prop
  | .hello _ hello now _ => hello.role = .host ∧ hello.proto = relayProtocolVersion ∧
      hello.roomId = r ∧ now < deadline
  | _ => False

/-- The event is a sweep at `deadline` or later. -/
def Expires (deadline : ℕ) : Event → Prop
  | .sweep now => deadline ≤ now
  | _ => False

/-- The deadline after one event: a HANDOFF of the departing host moves it. -/
def deadlineAfter (host : Socket) (deadline : ℕ) : Event → ℕ
  | .message socket data now =>
    if socket = host ∧ data.head? = some T.handoff then now + handoffGraceMs else deadline
  | _ => deadline

/-- The deadline after a list of events. -/
def deadlineAt (host : Socket) : ℕ → List Event → ℕ
  | deadline, [] => deadline
  | deadline, e :: es => deadlineAt host (deadlineAfter host deadline e) es

/-- No event of the list claims or expires the room, whose deadline moves along. -/
def Unsettled (r : String) (host : Socket) : ℕ → List Event → Prop
  | _, [] => True
  | deadline, e :: es => ¬ Claims r deadline e ∧ ¬ Expires deadline e ∧
      Unsettled r host (deadlineAfter host deadline e) es

/-! ### What the window guarantees -/

/-- An event in the window sends no HOST_GONE to a peer of the room, and no payload of a peer to the
departing host. -/
structure Undisturbed (L : RelayLimits) (S : ServerState) (r : String) (host : Socket) (e : Event) :
    Prop where
  noHostGone : ∀ connId peer, Registered S.relay r connId peer →
    Effect.send peer .hostGone ∉ (server L).out S e
  noPayload : ∀ connId isBinary payload,
    Effect.send host (.dataToHost connId isBinary payload) ∉ (server L).out S e

/-- The event makes `socket` the host of room `r` with all its peers: it gets READY and then one
PEER_UP for each registered peer, each registered peer gets one HOST_CLAIMED, and nobody else gets
anything. -/
structure TakenOver (L : RelayLimits) (S : ServerState) (r : String) (socket : Socket)
    (token : String) (room : Room) (e : Event) : Prop where
  rooms : ((server L).next S e).relay.rooms =
    S.relay.rooms.set r { room with host := socket, handoffDeadline := none, hostToken := token }
  toHost : sentTo socket ((server L).out S e) =
    .ready none (some token) :: room.peers.keys.map .peerUp
  toPeer : ∀ connId peer, room.peers.get connId = some peer →
    sentTo peer ((server L).out S e) = [.hostClaimed]
  toOthers : ∀ other, other ≠ socket → (∀ connId, room.peers.get connId ≠ some other) →
    sentTo other ((server L).out S e) = []

/-- The event removes room `r` and tells every registered peer. -/
structure Ended (L : RelayLimits) (S : ServerState) (r : String) (e : Event) : Prop where
  removed : ((server L).next S e).relay.rooms.get r = none
  told : ∀ connId peer, Registered S.relay r connId peer →
    Effect.send peer .hostGone ∈ (server L).out S e

/-- If the event is a HANDOFF or the close of a departed host, it changes no room and sends nothing.
-/
def Departed (L : RelayLimits) (host : Socket) (S : ServerState) (e : Event) : Prop :=
  HandoffBy host e ∨ e = .close host →
    ((server L).next S e).relay.rooms = S.relay.rooms ∧ (server L).out S e = []

/-- If the event is a host HELLO for room `r`, of whatever version, it is refused: the socket gets a
REJECT and is closed, and no room and no attachment changes. -/
def Refused (L : RelayLimits) (r : String) (S : ServerState) (e : Event) : Prop :=
  ∀ socket hello now token, e = .hello socket hello now token → hello.role = .host →
    hello.roomId = r →
    ∃ reason, (server L).out S e = kick socket reason ∧
      ((server L).next S e).relay.rooms = S.relay.rooms ∧
      ((server L).next S e).relay.attached = S.relay.attached

/-- The event is no HANDOFF of `socket`, and leaves room `r` in the table. -/
def Holds (L : RelayLimits) (r : String) (socket : Socket) (S : ServerState) (e : Event) : Prop :=
  ¬ HandoffBy socket e ∧ ((server L).next S e).relay.rooms.has r = true

/-- What is promised of room `r` while it is reserved for a successor of `host` until `deadline`. -/
structure Window (L : RelayLimits) (S : ServerState) (r : String) (host : Socket) (deadline : ℕ) :
    Prop where
  reserved : Reserved S.relay r host deadline
  /-- an event that neither claims nor expires the room leaves it reserved -/
  quiet : ∀ e, Enabled S e → ¬ Claims r deadline e → ¬ Expires deadline e →
    Undisturbed L S r host e ∧
      Reserved ((server L).next S e).relay r host (deadlineAfter host deadline e)
  /-- a claim makes its sender the host; later host HELLOs are refused until that host hands off or
  the room is gone, and the departed host changes nothing any more -/
  claim : ∀ socket hello now token, Enabled S (.hello socket hello now token) →
    Claims r deadline (.hello socket hello now token) →
    (∃ room, S.relay.rooms.get r = some room ∧
      TakenOver L S r socket token room (.hello socket hello now token)) ∧
    ∀ post, (server L).Valid ((server L).next S (.hello socket hello now token)) post →
      (server L).Along (Departed L host) ((server L).next S (.hello socket hello now token)) post ∧
      ∀ before e after, post = before ++ e :: after →
        (server L).Along (Holds L r socket) ((server L).next S (.hello socket hello now token))
          before →
        Refused L r ((server L).exec ((server L).next S (.hello socket hello now token)) before) e
  /-- a sweep at the deadline or later ends the room -/
  expiry : ∀ e, Enabled S e → Expires deadline e → Ended L S r e

/-! ### The frames of a claim -/

/-- The frames of a claim for one entry of the peer table. -/
def claimFrames (socket : Socket) (entry : ℕ × Socket) : List Effect :=
  [.send socket (.peerUp entry.1), .send entry.2 .hostClaimed]

theorem claimHandoff_effects (token : String) (socket : Socket) (room : Room) (R : State) :
    (claimHandoff token socket room R).2 =
      .send socket (.ready none (some token)) ::
        room.peers.entries.flatMap (claimFrames socket) := rfl

/-- The claiming socket, which is no peer, hears of every entry in order. -/
theorem sentTo_claim_self {socket : Socket} {entries : List (ℕ × Socket)}
    (hno : ∀ entry ∈ entries, entry.2 ≠ socket) :
    sentTo socket (entries.flatMap (claimFrames socket)) =
      (entries.map Prod.fst).map .peerUp := by
  induction entries with
  | nil => rfl
  | cons entry entries ih =>
    have hne : entry.2 ≠ socket := hno entry List.mem_cons_self
    have hrest := ih fun entry' hmem => hno entry' (List.mem_cons_of_mem _ hmem)
    show sentTo socket (.send socket (.peerUp entry.1) :: .send entry.2 .hostClaimed ::
      entries.flatMap (claimFrames socket)) = _
    rw [sentTo_cons_send, if_pos rfl, sentTo_cons_send, if_neg hne, hrest]
    rfl

/-- Any other socket hears of the claim once for each of its entries. -/
theorem sentTo_claim_other {socket other : Socket} (hne : other ≠ socket)
    (entries : List (ℕ × Socket)) :
    sentTo other (entries.flatMap (claimFrames socket)) =
      (entries.filter fun entry => entry.2 = other).map fun _ => .hostClaimed := by
  induction entries with
  | nil => rfl
  | cons entry entries ih =>
    show sentTo other (.send socket (.peerUp entry.1) :: .send entry.2 .hostClaimed ::
      entries.flatMap (claimFrames socket)) = _
    rw [sentTo_cons_send, if_neg hne.symm, sentTo_cons_send, ih]
    by_cases heq : entry.2 = other
    · rw [if_pos heq, List.filter_cons_of_pos (by simpa using heq), List.map_cons]
    · rw [if_neg heq, List.filter_cons_of_neg (by simpa using heq)]

/-- A socket with one seat has one entry. -/
theorem filter_seat (h : Seated S) {r : String} {room : Room} (hroom : S.relay.rooms.get r = some room)
    {connId : ℕ} {peer : Socket} (hpeer : room.peers.get connId = some peer) :
    (room.peers.entries.filter fun entry => entry.2 = peer) = [(connId, peer)] := by
  have hmem : (connId, peer) ∈ room.peers.entries := (InsertionMap.mem_entries _ _ _).mpr hpeer
  have hsame : ∀ entry ∈ room.peers.entries,
      decide (entry.2 = peer) = decide (entry = (connId, peer)) := by
    rintro ⟨connId', peer'⟩ hentry
    rw [decide_eq_decide]
    constructor
    · rintro rfl
      have hpeer' := (InsertionMap.mem_entries _ _ _).mp hentry
      rw [(h.unique ⟨room, hroom, hpeer'⟩ ⟨room, hroom, hpeer⟩).2]
    · intro heq
      rw [heq]
  have hnodup : room.peers.entries.Nodup := List.Nodup.of_map _ room.peers.nodup
  rw [List.filter_congr hsame, List.filter_eq, List.count_eq_one_of_mem hnodup hmem]
  rfl

/-- **The claim, frame by frame.** -/
theorem takenOver_of_claim (h : Seated S) {r : String} {host socket : Socket} {deadline : ℕ}
    {hello : Hello} {now : ℕ} {token : String} (hreserved : Reserved S.relay r host deadline)
    (henabled : Enabled S (.hello socket hello now token))
    (hclaims : Claims r deadline (.hello socket hello now token)) :
    ∃ room, S.relay.rooms.get r = some room ∧
      TakenOver L S r socket token room (.hello socket hello now token) := by
  obtain ⟨hrole, hproto, rfl, hnow⟩ := hclaims
  obtain ⟨room, hroom, -, hdeadline⟩ := hreserved
  have hfresh : S.relay.attached.get socket = none := by
    cases hatt : S.relay.attached.get socket with
    | none => rfl
    | some att => exact absurd (h.greeted socket att hatt) henabled.1
  have hclaimable : claimable now room = true := by
    unfold claimable
    rw [hdeadline]
    exact decide_eq_true hnow
  have hreact : react L S.relay (.hello socket hello now token) =
      claimHandoff token socket room S.relay :=
    onHello_claim L token hfresh hproto hrole hroom hclaimable
  have hseat : ∀ entry ∈ room.peers.entries, entry.2 ≠ socket := by
    rintro ⟨connId, peer⟩ hmem rfl
    have hpeer := (InsertionMap.mem_entries _ _ _).mp hmem
    exact henabled.1 (h.seat_greeted ⟨room, hroom, hpeer⟩)
  refine ⟨room, hroom, ?_, ?_, ?_, ?_⟩
  · rw [next_relay, hreact]
    show S.relay.rooms.set room.roomId _ = _
    rw [h.roomId _ room hroom]
  · rw [out_eq, hreact, claimHandoff_effects, sentTo_cons_send, if_pos rfl,
      sentTo_claim_self hseat]
    rfl
  · intro connId peer hpeer
    have hne : peer ≠ socket := hseat _ ((InsertionMap.mem_entries _ _ _).mpr hpeer)
    rw [out_eq, hreact, claimHandoff_effects, sentTo_cons_send, if_neg hne.symm,
      sentTo_claim_other hne, filter_seat h hroom hpeer]
    rfl
  · intro other hne hno
    have hnone : (room.peers.entries.filter fun entry => entry.2 = other) = [] := by
      rw [List.filter_eq_nil_iff]
      rintro ⟨connId, peer⟩ hmem heq
      have hother : peer = other := by simpa using heq
      rw [hother] at hmem
      exact hno connId ((InsertionMap.mem_entries _ _ _).mp hmem)
    rw [out_eq, hreact, claimHandoff_effects, sentTo_cons_send, if_neg hne.symm,
      sentTo_claim_other hne, hnone]
    rfl

/-! ### The expiry -/

theorem sweepRooms_told (now : ℕ) {room : Room} {connId : ℕ} {peer : Socket}
    (hexp : expired now room = true) (hpeer : room.peers.get connId = some peer)
    (rooms : List Room) : ∀ R : State, room ∈ rooms →
      Effect.send peer .hostGone ∈ (sweepRooms now rooms R).2 := by
  induction rooms with
  | nil =>
    intro R hmem
    cases hmem
  | cons room' rooms ih =>
    intro R hmem
    have hvalue : peer ∈ room.peers.values := (InsertionMap.mem_values _ _).mpr ⟨connId, hpeer⟩
    rw [sweepRooms]
    rcases List.mem_cons.mp hmem with rfl | hrest
    · rw [if_pos hexp]
      apply List.mem_append_left
      exact List.mem_flatMap.mpr ⟨peer, hvalue, List.mem_cons_self⟩
    · split
      · apply List.mem_append_right
        exact ih _ hrest
      · exact ih R hrest

/-- The room loop sends HOST_GONE to the peers of expired rooms only. -/
theorem sweepRooms_hostGone (now : ℕ) {peer : Socket} (rooms : List Room) : ∀ R : State,
    Effect.send peer .hostGone ∈ (sweepRooms now rooms R).2 →
      ∃ room ∈ rooms, expired now room = true ∧ peer ∈ room.peers.values := by
  induction rooms with
  | nil =>
    intro R hmem
    cases hmem
  | cons room rooms ih =>
    intro R hmem
    have hrest : ∀ R' : State, Effect.send peer .hostGone ∈ (sweepRooms now rooms R').2 →
        ∃ room' ∈ room :: rooms, expired now room' = true ∧ peer ∈ room'.peers.values := by
      intro R' hmem'
      obtain ⟨room', hroom', hexp⟩ := ih R' hmem'
      exact ⟨room', List.mem_cons_of_mem _ hroom', hexp⟩
    rw [sweepRooms] at hmem
    split at hmem
    · next hexp =>
      rcases List.mem_append.mp hmem with htorn | hlater
      · obtain ⟨other, hvalue, hother⟩ := List.mem_flatMap.mp htorn
        have heq : peer = other := by simpa using hother
        exact ⟨room, List.mem_cons_self, hexp, by rw [heq]; exact hvalue⟩
      · exact hrest _ hlater
    · exact hrest R hmem

/-- **A sweep at the deadline ends the room.** -/
theorem ended_of_expiry (h : Seated S) {r : String} {host : Socket} {deadline : ℕ}
    (hreserved : Reserved S.relay r host deadline) {e : Event} (hexpires : Expires deadline e) :
    Ended L S r e := by
  cases e with
  | hello => exact hexpires.elim
  | message => exact hexpires.elim
  | close => exact hexpires.elim
  | sweep now =>
    obtain ⟨room, hroom, -, hdeadline⟩ := hreserved
    have hexp : expired now room = true := by
      unfold expired
      rw [hdeadline]
      exact decide_eq_true hexpires
    refine ⟨?_, ?_⟩
    · rw [next_relay]
      show (sweep L now S.relay).1.rooms.get r = none
      rw [sweep_rooms_get L now S.relay h.roomId, hroom]
      exact if_pos hexp
    · rintro connId peer ⟨room', hroom', hpeer⟩
      have heq : room' = room := Option.some.inj (hroom'.symm.trans hroom)
      subst heq
      rw [out_eq]
      show _ ∈ (sweepRooms now S.relay.rooms.values S.relay).2
      exact sweepRooms_told now hexp hpeer _ _ ((InsertionMap.mem_values _ _).mpr ⟨r, hroom⟩)

/-! ### How long a room keeps its host -/

/-- A room that is replaced by one with the same host and deadline. -/
theorem hostedBy_set {r r₀ : String} {host : Socket} {pending : Option ℕ} {room₀ room₁ : Room}
    (h : HostedBy R r host pending) (hroom : R.rooms.get r₀ = some room₀)
    (hrooms : R'.rooms = R.rooms.set r₀ room₁) (hhost : room₁.host = room₀.host)
    (hpending : room₁.handoffDeadline = room₀.handoffDeadline) : HostedBy R' r host pending := by
  obtain ⟨room, hget, hh, hd⟩ := h
  unfold HostedBy
  rw [hrooms]
  by_cases hr : r = r₀
  · subst hr
    have heq : room = room₀ := Option.some.inj (hget.symm.trans hroom)
    subst heq
    exact ⟨room₁, InsertionMap.get_set_self .., hhost.trans hh, hpending.trans hd⟩
  · exact ⟨room, (InsertionMap.get_set_ne _ _ hr).trans hget, hh, hd⟩

/-- Another entry of the table changes. -/
theorem hostedBy_of_get {r : String} {host : Socket} {pending : Option ℕ}
    (h : HostedBy R r host pending) (hget : R'.rooms.get r = R.rooms.get r) :
    HostedBy R' r host pending := by
  obtain ⟨room, hroom, hrest⟩ := h
  exact ⟨room, hget.trans hroom, hrest⟩

/-- A HELLO changes the host of a room only as a claim. -/
theorem hostedBy_hello (h : Seated S) {r : String} {host socket : Socket} {pending : Option ℕ}
    {hello : Hello} {now : ℕ} {token : String} (hhosted : HostedBy S.relay r host pending)
    (hclaims : ∀ deadline, pending = some deadline →
      ¬ Claims r deadline (.hello socket hello now token)) :
    HostedBy (onHello L now token socket hello S.relay).1 r host pending := by
  have hout := onHello_outcome L now token socket hello S.relay
  generalize onHello L now token socket hello S.relay = res at hout
  cases hout with
  | refused reason hrooms hatt => exact hostedBy_of_get hhosted (by rw [hrooms])
  | claimed hfresh hrole hroom hclaim hproto =>
    rename_i room
    -- the HELLO claims another room
    have hid : room.roomId = hello.roomId := h.roomId _ room hroom
    refine hostedBy_of_get hhosted (InsertionMap.get_set_ne _ _ fun hr => ?_)
    obtain ⟨room', hroom', -, hpending⟩ := hhosted
    rw [hr, hid, hroom] at hroom'
    cases hroom'
    unfold claimable at hclaim
    rw [hpending] at hclaim
    cases hp : pending with
    | none =>
      rw [hp] at hclaim
      cases hclaim
    | some deadline =>
      rw [hp] at hclaim
      exact hclaims deadline hp ⟨hrole, hproto, by rw [hr, hid], of_decide_eq_true hclaim⟩
  | created hfresh hrole hroom hrooms hatt =>
    have hr : r ≠ hello.roomId := by
      rintro rfl
      obtain ⟨room', hroom', -⟩ := hhosted
      rw [hroom] at hroom'
      cases hroom'
    refine hostedBy_of_get hhosted ?_
    rw [hrooms, InsertionMap.get_set_ne _ _ hr]
  | joined hfresh hrole hroom hrooms hatt => exact hostedBy_set hhosted hroom hrooms rfl rfl

/-- A message changes the deadline of a room only as a HANDOFF of its host. -/
theorem hostedBy_message {r : String} {host socket : Socket} {pending : Option ℕ} {data : Bytes}
    {now : ℕ} (hhosted : HostedBy S.relay r host pending)
    (hby : ¬ HandoffBy host (.message socket data now)) :
    HostedBy (onMessage now socket data S.relay).1 r host pending := by
  have hout := onMessage_outcome now socket data S.relay
  generalize onMessage now socket data S.relay = res at hout
  cases hout with
  | ignored => exact hhosted
  | ponged => exact hhosted
  | kicked hatt hrole hroom hkick hpeer => exact hostedBy_set hhosted hroom rfl rfl rfl
  | handedOff hatt hrole hroom hhost htype =>
    rename_i att room
    -- the HANDOFF is about another room
    refine hostedBy_of_get hhosted (InsertionMap.get_set_ne _ _ fun hr => hby ?_)
    obtain ⟨room', hroom', hhost', -⟩ := hhosted
    rw [hr, hroom] at hroom'
    cases hroom'
    exact ⟨hhost.symm.trans hhost', htype⟩
  | toPeer => exact hhosted
  | toHost => exact hhosted

/-- A close takes a room down only if it is that of its host, with no handoff pending. -/
theorem hostedBy_close (h : Seated S) {r : String} {host socket : Socket} {pending : Option ℕ}
    (hhosted : HostedBy S.relay r host pending) (hstay : pending = none → socket ≠ host) :
    HostedBy (onClose socket S.relay).1 r host pending := by
  have hout := onClose_outcome socket S.relay
  generalize onClose socket S.relay = res at hout
  cases hout with
  | unattached => exact hhosted
  | detached => exact hostedBy_of_get hhosted rfl
  | toredown hatt hrole hroom hhost hopen =>
    rename_i att room
    refine hostedBy_of_get hhosted (InsertionMap.get_delete_ne _ fun hr => ?_)
    obtain ⟨room', hroom', hhost', hpending⟩ := hhosted
    rw [hr, h.roomId _ room hroom, hroom] at hroom'
    cases hroom'
    exact hstay (hpending.symm.trans hopen) (hhost.symm.trans hhost')
  | left hatt hrole hconn hroom => exact hostedBy_set hhosted hroom rfl rfl rfl

/-- A sweep takes a room down only at its deadline or later. -/
theorem hostedBy_sweep (h : Seated S) {r : String} {host : Socket} {pending : Option ℕ} {now : ℕ}
    (hhosted : HostedBy S.relay r host pending)
    (hnow : ∀ deadline, pending = some deadline → now < deadline) :
    HostedBy (sweep L now S.relay).1 r host pending := by
  obtain ⟨room, hroom, hhost, hpending⟩ := hhosted
  refine ⟨room, ?_, hhost, hpending⟩
  have hexp : ¬ expired now room = true := by
    unfold expired
    rw [hpending]
    cases hp : pending with
    | none => exact Bool.false_ne_true
    | some deadline =>
      intro hle
      have hlt := hnow deadline hp
      have := of_decide_eq_true hle
      omega
  rw [sweep_rooms_get L now S.relay h.roomId, hroom]
  exact if_neg hexp

/-! ### The window -/

/-- HANDOFF by the current host sets the deadline. -/
theorem onMessage_handoff {socket : Socket} {att : Attached} {room : Room} {data : Bytes} {now : ℕ}
    (hatt : R.attached.get socket = some att) (hrole : att.role = .host)
    (hroom : R.rooms.get att.roomId = some room) (hhost : room.host = socket)
    (htype : data.head? = some T.handoff) :
    onMessage now socket data R =
      ({ R with
          rooms := R.rooms.set att.roomId
            { room with handoffDeadline := some (now + handoffGraceMs) } }, []) := by
  simp [onMessage, htype, hatt, hroom, hrole, onHostMessage, onHandoff, hhost, T.handoff, T.ping,
    T.kick]

/-- HANDOFF by the current host reserves the room, or reserves it anew. -/
theorem reserved_handoff (h : Reached S) {r : String} {socket : Socket} {room : Room} {data : Bytes}
    {now : ℕ} (hroom : S.relay.rooms.get r = some room) (hhost : room.host = socket)
    (hopen : socket ∉ S.gone) (htype : data.head? = some T.handoff) :
    Reserved (onMessage now socket data S.relay).1 r socket (now + handoffGraceMs) := by
  have hatt := h.hosts r room hroom (by rw [hhost]; exact hopen)
  rw [hhost] at hatt
  rw [onMessage_handoff hatt rfl hroom hhost htype]
  exact ⟨_, InsertionMap.get_set_self .., hhost, rfl⟩

/-- **An event that neither claims nor expires a reserved room leaves it reserved.** -/
theorem reserved_step (h : Reached S) {r : String} {host : Socket} {deadline : ℕ} {e : Event}
    (henabled : Enabled S e) (hreserved : Reserved S.relay r host deadline)
    (hclaims : ¬ Claims r deadline e) (hexpires : ¬ Expires deadline e) :
    Reserved ((server L).next S e).relay r host (deadlineAfter host deadline e) := by
  rw [next_relay]
  cases e with
  | hello socket hello now token =>
    refine hostedBy_hello h.toSeated hreserved fun deadline' heq => ?_
    rw [← Option.some.inj heq]
    exact hclaims
  | message socket data now =>
    show Reserved (onMessage now socket data S.relay).1 r host
      (if socket = host ∧ data.head? = some T.handoff then now + handoffGraceMs else deadline)
    split
    · next hby =>
      obtain ⟨room, hroom, hhost, -⟩ := hreserved
      obtain ⟨rfl, htype⟩ := hby
      exact reserved_handoff h hroom hhost henabled.2 htype
    · next hby => exact hostedBy_message hreserved hby
  | close socket => exact hostedBy_close h.toSeated hreserved fun hnone => by cases hnone
  | sweep now =>
    refine hostedBy_sweep h.toSeated hreserved fun deadline' heq => ?_
    rw [← Option.some.inj heq]
    exact Nat.lt_of_not_le hexpires

/-- The room stays reserved up to the claim or the expiry, and its deadline is that of the last
HANDOFF. -/
theorem reserved_exec {r : String} {host : Socket} {es : List Event} :
    ∀ {S : ServerState} {deadline : ℕ}, Reached S → (server L).Valid S es →
      Reserved S.relay r host deadline → Unsettled r host deadline es →
      Reserved ((server L).exec S es).relay r host (deadlineAt host deadline es) := by
  induction es with
  | nil =>
    intro S deadline _ _ hreserved _
    exact hreserved
  | cons e es ih =>
    intro S deadline h hvalid hreserved hunsettled
    obtain ⟨hclaims, hexpires, hrest⟩ := hunsettled
    exact ih (reached_next h hvalid.1) hvalid.2
      (reserved_step h hvalid.1 hreserved hclaims hexpires) hrest

/-- HOST_GONE goes to the peers of a room that the event takes down. -/
theorem torn_of_hostGone {e : Event} {peer : Socket}
    (hsent : Effect.send peer .hostGone ∈ (react L R e).2) :
    ∃ r room connId, (R.rooms.get r = some room) ∧ room.peers.get connId = some peer ∧
      (room.handoffDeadline = none ∨ ∃ now, e = .sweep now ∧ expired now room = true) := by
  cases e with
  | hello socket hello now token =>
    change _ ∈ (onHello L now token socket hello R).2 at hsent
    have hout := onHello_outcome L now token socket hello R
    generalize onHello L now token socket hello R = res at hout hsent
    cases hout <;> simp [kick, claimHandoff] at hsent
  | message socket data now =>
    change _ ∈ (onMessage now socket data R).2 at hsent
    have hout := onMessage_outcome now socket data R
    generalize onMessage now socket data R = res at hout hsent
    cases hout <;> simp at hsent
  | close socket =>
    change _ ∈ (onClose socket R).2 at hsent
    have hout := onClose_outcome socket R
    generalize onClose socket R = res at hout hsent
    cases hout with
    | unattached => cases hsent
    | detached => cases hsent
    | toredown hatt hrole hroom hhost hopen =>
      obtain ⟨other, hvalue, hother⟩ := List.mem_flatMap.mp hsent
      obtain ⟨connId, hpeer⟩ := (InsertionMap.mem_values _ _).mp hvalue
      have heq : peer = other := by simpa using hother
      exact ⟨_, _, connId, hroom, by rw [heq]; exact hpeer, .inl hopen⟩
    | left => simp at hsent
  | sweep now =>
    obtain ⟨room, hmem, hexp, hvalue⟩ := sweepRooms_hostGone now _ R hsent
    obtain ⟨r, hroom⟩ := (InsertionMap.mem_values _ _).mp hmem
    obtain ⟨connId, hpeer⟩ := (InsertionMap.mem_values _ _).mp hvalue
    exact ⟨r, room, connId, hroom, hpeer, .inr ⟨now, rfl, hexp⟩⟩

/-- **Up to the claim or the expiry the window disturbs nobody.** -/
theorem undisturbed (h : Seated S) {r : String} {host : Socket} {deadline : ℕ} {e : Event}
    (hreserved : Reserved S.relay r host deadline) (hexpires : ¬ Expires deadline e) :
    Undisturbed L S r host e := by
  obtain ⟨room, hroom, hhost, hdeadline⟩ := hreserved
  refine ⟨?_, ?_⟩
  · intro connId peer hreg hsent
    rw [out_eq] at hsent
    obtain ⟨r', room', connId', hroom', hpeer', hwhy⟩ := torn_of_hostGone hsent
    -- a peer has one seat, so the room that went is this one
    have hr : r = r' := (h.unique hreg ⟨room', hroom', hpeer'⟩).1
    rw [← hr, hroom] at hroom'
    cases hroom'
    rcases hwhy with hopen | ⟨now, rfl, hexp⟩
    · rw [hopen] at hdeadline
      cases hdeadline
    · unfold expired at hexp
      rw [hdeadline] at hexp
      have hle : deadline ≤ now := of_decide_eq_true hexp
      exact hexpires hle
  · intro connId isBinary payload hsent
    rw [out_eq] at hsent
    obtain ⟨_, _, _, att, room', -, -, -, -, hroom', hhost', hopen, -⟩ := peer_of_toHost hsent
    have hr : r = att.roomId := h.ownRoom _ _ room room' hroom hroom' (hhost.trans hhost'.symm)
    rw [← hr, hroom] at hroom'
    cases hroom'
    rw [hopen] at hdeadline
    cases hdeadline

/-! ### After the claim: the departed host -/

/-- `host` has been a host, and is not the host of any room now. -/
structure Retired (S : ServerState) (host : Socket) : Prop where
  greeted : host ∈ S.greeted
  role : ∀ att, S.relay.attached.get host = some att → att.role = .host
  noRoom : ∀ r room, S.relay.rooms.get r = some room → room.host ≠ host

/-- A socket keeps the role it was attached with. -/
theorem role_next {host : Socket} (hgreeted : host ∈ S.greeted)
    (hrole : ∀ att, S.relay.attached.get host = some att → att.role = .host) {e : Event}
    (henabled : Enabled S e) :
    host ∈ ((server L).next S e).greeted ∧
      ∀ att, ((server L).next S e).relay.attached.get host = some att → att.role = .host := by
  cases e with
  | hello socket hello now token =>
    refine ⟨List.mem_cons_of_mem _ hgreeted, fun att hatt => hrole att ?_⟩
    have hne : host ≠ socket := fun heq => henabled.1 (heq ▸ hgreeted)
    change (onHello L now token socket hello S.relay).1.attached.get host = some att at hatt
    have hout := onHello_outcome L now token socket hello S.relay
    generalize onHello L now token socket hello S.relay = res at hout hatt
    cases hout with
    | refused reason hrooms hatt' => rwa [hatt'] at hatt
    | claimed => rwa [← InsertionMap.get_set_ne _ _ hne]
    | created hfresh hrole' hroom hrooms hatt' =>
      rwa [hatt', InsertionMap.get_set_ne _ _ hne] at hatt
    | joined hfresh hrole' hroom hrooms hatt' =>
      rwa [hatt', InsertionMap.get_set_ne _ _ hne] at hatt
  | message socket data now =>
    refine ⟨hgreeted, fun att hatt => hrole att ?_⟩
    change (onMessage now socket data S.relay).1.attached.get host = some att at hatt
    have hout := onMessage_outcome now socket data S.relay
    generalize onMessage now socket data S.relay = res at hout hatt
    cases hout <;> exact hatt
  | close socket =>
    refine ⟨hgreeted, fun att hatt => hrole att ?_⟩
    change (onClose socket S.relay).1.attached.get host = some att at hatt
    have hout := onClose_outcome socket S.relay
    generalize onClose socket S.relay = res at hout hatt
    cases hout with
    | unattached => exact hatt
    | detached => exact (InsertionMap.get_of_get_delete hatt).1
    | toredown => exact (InsertionMap.get_of_get_delete hatt).1
    | left => exact (InsertionMap.get_of_get_delete hatt).1
  | sweep now =>
    refine ⟨hgreeted, fun att hatt => hrole att ?_⟩
    change (sweep L now S.relay).1.attached.get host = some att at hatt
    rwa [sweep_attached] at hatt

/-- The room was there before with this host, and has handed out no fewer connIds since. -/
def SameHost (R : State) (r : String) (room' : Room) : Prop :=
  ∃ room, R.rooms.get r = some room ∧ room'.host = room.host ∧ room.nextConnId ≤ room'.nextConnId

theorem sameHost_set {r r₀ : String} {room' room₀ room₁ : Room} (hroom : R.rooms.get r₀ = some room₀)
    (hroom' : (R.rooms.set r₀ room₁).get r = some room') (hhost : room₁.host = room₀.host)
    (hcounter : room₀.nextConnId ≤ room₁.nextConnId) : SameHost R r room' := by
  rw [InsertionMap.get_set] at hroom'
  split at hroom'
  · next hr =>
    cases hroom'
    exact ⟨room₀, by rw [hr]; exact hroom, hhost, hcounter⟩
  · exact ⟨room', hroom', rfl, Nat.le_refl _⟩

theorem host_origin_hello {socket : Socket} {hello : Hello} {now : ℕ} {token : String} {r : String}
    {room' : Room} (hroom' : (onHello L now token socket hello R).1.rooms.get r = some room') :
    SameHost R r room' ∨ room'.host = socket := by
  have hout := onHello_outcome L now token socket hello R
  generalize onHello L now token socket hello R = res at hout hroom'
  cases hout with
  | refused reason hrooms hatt =>
    rw [hrooms] at hroom'
    exact .inl ⟨room', hroom', rfl, Nat.le_refl _⟩
  | claimed =>
    change (R.rooms.set _ _).get r = some room' at hroom'
    rw [InsertionMap.get_set] at hroom'
    split at hroom'
    · cases hroom'
      exact .inr rfl
    · exact .inl ⟨room', hroom', rfl, Nat.le_refl _⟩
  | created hfresh hrole hroom hrooms hatt =>
    rw [hrooms, InsertionMap.get_set] at hroom'
    split at hroom'
    · cases hroom'
      exact .inr rfl
    · exact .inl ⟨room', hroom', rfl, Nat.le_refl _⟩
  | joined hfresh hrole hroom hrooms hatt =>
    rw [hrooms] at hroom'
    exact .inl (sameHost_set hroom hroom' rfl (Nat.le_succ _))

/-- **Every host after an event was the host of its room before**, or has only just said HELLO. -/
theorem host_origin (h : Seated S) {e : Event} {r : String} {room' : Room}
    (hroom' : ((server L).next S e).relay.rooms.get r = some room') :
    SameHost S.relay r room' ∨ ∃ hello now token, e = .hello room'.host hello now token := by
  rw [next_relay] at hroom'
  cases e with
  | hello socket hello now token =>
    refine (host_origin_hello hroom').imp id fun heq => ⟨hello, now, token, ?_⟩
    rw [heq]
  | message socket data now =>
    change (onMessage now socket data S.relay).1.rooms.get r = some room' at hroom'
    have hout := onMessage_outcome now socket data S.relay
    generalize onMessage now socket data S.relay = res at hout hroom'
    cases hout with
    | ignored => exact .inl ⟨room', hroom', rfl, Nat.le_refl _⟩
    | ponged => exact .inl ⟨room', hroom', rfl, Nat.le_refl _⟩
    | kicked hatt hrole hroom hkick hpeer =>
      exact .inl (sameHost_set hroom hroom' rfl (Nat.le_refl _))
    | handedOff hatt hrole hroom hhost htype =>
      exact .inl (sameHost_set hroom hroom' rfl (Nat.le_refl _))
    | toPeer => exact .inl ⟨room', hroom', rfl, Nat.le_refl _⟩
    | toHost => exact .inl ⟨room', hroom', rfl, Nat.le_refl _⟩
  | close socket =>
    change (onClose socket S.relay).1.rooms.get r = some room' at hroom'
    have hout := onClose_outcome socket S.relay
    generalize onClose socket S.relay = res at hout hroom'
    cases hout with
    | unattached => exact .inl ⟨room', hroom', rfl, Nat.le_refl _⟩
    | detached => exact .inl ⟨room', hroom', rfl, Nat.le_refl _⟩
    | toredown =>
      exact .inl ⟨room', (InsertionMap.get_of_get_delete hroom').1, rfl, Nat.le_refl _⟩
    | left hatt hrole hconn hroom => exact .inl (sameHost_set hroom hroom' rfl (Nat.le_refl _))
  | sweep now => exact .inl ⟨room', get_of_get_sweep h.toWf hroom', rfl, Nat.le_refl _⟩

theorem retired_next (h : Seated S) {host : Socket} (hretired : Retired S host) {e : Event}
    (henabled : Enabled S e) : Retired ((server L).next S e) host := by
  obtain ⟨hgreeted, hrole⟩ := role_next (L := L) hretired.greeted hretired.role henabled
  refine ⟨hgreeted, hrole, fun r room' hroom' heq => ?_⟩
  rcases host_origin h hroom' with ⟨room, hroom, hsame, -⟩ | ⟨hello, now, token, rfl⟩
  · exact hretired.noRoom r room hroom (hsame.symm.trans heq)
  · exact henabled.1 (heq ▸ hretired.greeted)

/-- **HANDOFF and the close of a departed host change nothing.** -/
theorem departed_of_retired {host : Socket} (hretired : Retired S host) (e : Event) :
    Departed L host S e := by
  rintro (hby | rfl)
  · cases e with
    | hello => exact hby.elim
    | close => exact hby.elim
    | sweep => exact hby.elim
    | message socket data now =>
      obtain ⟨rfl, htype⟩ := hby
      rw [next_relay, out_eq]
      change (onMessage now socket data S.relay).1.rooms = _ ∧
        (onMessage now socket data S.relay).2 = []
      have hout := onMessage_outcome now socket data S.relay
      generalize onMessage now socket data S.relay = res at hout
      cases hout with
      | ignored => exact ⟨rfl, rfl⟩
      | ponged hping =>
        rw [htype] at hping
        cases hping
      | kicked hatt hrole hroom hkick hpeer =>
        have hhead := head_of_decodeKick hkick
        rw [htype] at hhead
        cases hhead
      | handedOff hatt hrole hroom hhost htype' => exact absurd hhost (hretired.noRoom _ _ hroom)
      | toPeer hatt hrole hroom hframe hpeer =>
        have hhead := head_of_decodeDataFromHost hframe
        rw [htype] at hhead
        cases hhead
      | toHost hatt hrole hroom hopen hframe hconn =>
        have hhead := head_of_decodeDataFromPeer hframe
        rw [htype] at hhead
        cases hhead
  · rw [next_relay, out_eq]
    change (onClose host S.relay).1.rooms = _ ∧ (onClose host S.relay).2 = []
    have hout := onClose_outcome host S.relay
    generalize onClose host S.relay = res at hout
    cases hout with
    | unattached => exact ⟨rfl, rfl⟩
    | detached => exact ⟨rfl, rfl⟩
    | toredown hatt hrole hroom hhost hopen => exact absurd hhost (hretired.noRoom _ _ hroom)
    | left hatt hrole hconn hroom =>
      rw [hretired.role _ hatt] at hrole
      cases hrole

/-! ### After the claim: the new host -/

/-- The close of a host with no handoff pending takes its room down. -/
theorem onClose_host {socket : Socket} {att : Attached} {room : Room}
    (hatt : R.attached.get socket = some att) (hrole : att.role = .host)
    (hroom : R.rooms.get att.roomId = some room) (hhost : room.host = socket)
    (hopen : room.handoffDeadline = none) :
    onClose socket R = teardownRoom room { R with attached := R.attached.delete socket } := by
  simp [onClose, hatt, hroom, hrole, hhost, hopen]

/-- The host of a room with no handoff pending keeps it until it hands off or the room is gone. -/
theorem hostedBy_of_holds (h : Reached S) {r : String} {socket : Socket} {e : Event}
    (henabled : Enabled S e) (hhosted : HostedBy S.relay r socket none)
    (hholds : Holds L r socket S e) : HostedBy ((server L).next S e).relay r socket none := by
  obtain ⟨hby, hhas⟩ := hholds
  rw [next_relay] at hhas ⊢
  cases e with
  | hello socket' hello now token =>
    exact hostedBy_hello h.toSeated hhosted fun deadline heq => by cases heq
  | message socket' data now => exact hostedBy_message hhosted hby
  | close socket' =>
    refine hostedBy_close h.toSeated hhosted ?_
    rintro - rfl
    -- the close of the host itself would take the room down
    obtain ⟨room, hroom, hhost, hopen⟩ := hhosted
    have hatt := h.hosts r room hroom (by rw [hhost]; exact henabled)
    rw [hhost] at hatt
    change (onClose socket' S.relay).1.rooms.has r = true at hhas
    rw [onClose_host hatt rfl hroom hhost hopen] at hhas
    obtain ⟨room', hroom'⟩ := (InsertionMap.has_iff _ _).mp hhas
    change (S.relay.rooms.delete room.roomId).get r = some room' at hroom'
    rw [h.roomId r room hroom, InsertionMap.get_delete_self] at hroom'
    cases hroom'
  | sweep now => exact hostedBy_sweep h.toSeated hhosted fun deadline heq => by cases heq

/-- **A host HELLO for a room with no handoff pending is refused.** -/
theorem refused_of_hosted {r : String} {socket : Socket} (hhosted : HostedBy S.relay r socket none)
    (e : Event) : Refused L r S e := by
  rintro rival hello now token rfl hrole rfl
  obtain ⟨room, hroom, -, hopen⟩ := hhosted
  rw [next_relay, out_eq]
  show ∃ reason, (onHello L now token rival hello S.relay).2 = kick rival reason ∧
    (onHello L now token rival hello S.relay).1.rooms = S.relay.rooms ∧
    (onHello L now token rival hello S.relay).1.attached = S.relay.attached
  have hout := onHello_outcome L now token rival hello S.relay
  generalize onHello L now token rival hello S.relay = res at hout
  cases hout with
  | refused reason hrooms hatt => exact ⟨reason, rfl, hrooms, hatt⟩
  | claimed hfresh hrole' hroom' hclaim hproto =>
    have heq := Option.some.inj (hroom'.symm.trans hroom)
    subst heq
    unfold claimable at hclaim
    rw [hopen] at hclaim
    cases hclaim
  | created hfresh hrole' hroom' hrooms hatt =>
    rw [hroom] at hroom'
    cases hroom'
  | joined hfresh hrole' hroom' hrooms hatt =>
    rw [hrole] at hrole'
    cases hrole'

/-! ### The two ways out of the window -/

/-- After a claim the departed host hosts no room. -/
theorem retired_of_claim (h : Seated S) {r : String} {host socket : Socket} {room : Room}
    {hello : Hello} {now : ℕ} {token : String} (hgreeted : host ∈ S.greeted)
    (hrole : ∀ att, S.relay.attached.get host = some att → att.role = .host)
    (hroom : S.relay.rooms.get r = some room) (hhost : room.host = host)
    (henabled : Enabled S (.hello socket hello now token))
    (htaken : TakenOver L S r socket token room (.hello socket hello now token)) :
    Retired ((server L).next S (.hello socket hello now token)) host := by
  obtain ⟨hgreeted', hrole'⟩ := role_next (L := L) hgreeted hrole henabled
  refine ⟨hgreeted', hrole', fun r' room' hroom' heq => ?_⟩
  rw [htaken.rooms, InsertionMap.get_set] at hroom'
  split at hroom'
  · cases hroom'
    have hsame : socket = host := heq
    exact henabled.1 (hsame ▸ hgreeted)
  · next hne => exact hne (h.ownRoom r' r room' room hroom' hroom (heq.trans hhost.symm))

/-- **Everything the window promises, of any state in which the room is reserved.** -/
theorem window_of_reserved (h : Reached S) {r : String} {host : Socket} {deadline : ℕ}
    (hreserved : Reserved S.relay r host deadline)
    (hrole : ∀ att, S.relay.attached.get host = some att → att.role = .host) :
    Window L S r host deadline where
  reserved := hreserved
  quiet e henabled hclaims hexpires :=
    ⟨undisturbed h.toSeated hreserved hexpires,
      reserved_step h henabled hreserved hclaims hexpires⟩
  claim socket hello now token henabled hclaims := by
    obtain ⟨room, hroom, htaken⟩ := takenOver_of_claim (L := L) h.toSeated hreserved henabled hclaims
    obtain ⟨room', hroom', hhost, -⟩ := hreserved
    have heq : room' = room := Option.some.inj (hroom'.symm.trans hroom)
    subst heq
    have hreached := reached_next (L := L) h henabled
    have hgreeted : host ∈ S.greeted := hhost ▸ h.hostGreeted r room' hroom
    have hretired := retired_of_claim h.toSeated hgreeted hrole hroom hhost henabled htaken
    have hhosted : HostedBy ((server L).next S (.hello socket hello now token)).relay r socket
        none := by
      refine ⟨{ room' with host := socket, handoffDeadline := none, hostToken := token }, ?_, rfl, rfl⟩
      rw [htaken.rooms, InsertionMap.get_set_self]
    refine ⟨⟨room', hroom, htaken⟩, fun post hvalid => ⟨?_, ?_⟩⟩
    · exact Machine.along_of_invariant (I := fun S => Reached S ∧ Retired S host)
        (fun S e h henabled => ⟨reached_next h.1 henabled, retired_next h.1.toSeated h.2 henabled⟩)
        (fun S e h _ => departed_of_retired h.2 e) hvalid ⟨hreached, hretired⟩
    · rintro before e after rfl hholds
      have hbefore := ((server L).along_append _ _ _ _).mp hvalid
      have hend := Machine.exec_invariant
        (I := fun S => Reached S ∧ HostedBy S.relay r socket none)
        (fun S e h hG => ⟨reached_next h.1 hG.1, hostedBy_of_holds h.1 hG.1 h.2 hG.2⟩)
        (Machine.along_and.mpr ⟨hbefore.1, hholds⟩) ⟨hreached, hhosted⟩
      exact refused_of_hosted hend.2 e
  expiry e _ hexpires := ended_of_expiry h.toSeated hreserved hexpires

/-- **The handoff window.**  After a HANDOFF of the current host at time `now`, and until the room is
claimed or swept, the room is reserved up to eight seconds after the last HANDOFF of that host, with
everything `Window` promises. -/
theorem handoff_window (L : RelayLimits) {pre mid : List Event} {host : Socket} {data : Bytes}
    {now : ℕ} {r : String} {room : Room}
    (hvalid : (server L).Valid init (pre ++ .message host data now :: mid))
    (htype : data.head? = some T.handoff)
    (hroom : ((server L).exec init pre).relay.rooms.get r = some room) (hhost : room.host = host)
    (hmid : Unsettled r host (now + handoffGraceMs) mid) :
    Window L ((server L).exec init (pre ++ .message host data now :: mid)) r host
      (deadlineAt host (now + handoffGraceMs) mid) := by
  obtain ⟨hpre, hevent, hvalid'⟩ := ((server L).along_append _ _ _ _).mp hvalid
  have henabled : Enabled ((server L).exec init pre) (.message host data now) := hevent
  have hreached := reached_exec hpre reached_init
  have hnext := reached_next (L := L) hreached henabled
  rw [Machine.exec_append, Machine.exec_cons]
  have hatt := hreached.hosts r room hroom (by rw [hhost]; exact henabled.2)
  rw [hhost] at hatt
  have hrole : ∀ att, ((server L).exec init pre).relay.attached.get host = some att →
      att.role = .host := by
    intro att h
    rw [hatt] at h
    cases h
    rfl
  obtain ⟨hgreeted, hrole'⟩ := role_next (L := L) henabled.1 hrole henabled
  have hreserved : Reserved ((server L).next ((server L).exec init pre)
      (.message host data now)).relay r host (now + handoffGraceMs) := by
    rw [next_relay]
    exact reserved_handoff hreached hroom hhost henabled.2 htype
  have hlater := Machine.exec_invariant
    (I := fun S => host ∈ S.greeted ∧ ∀ att, S.relay.attached.get host = some att → att.role = .host)
    (fun S e h henabled => role_next h.1 h.2 henabled) hvalid' ⟨hgreeted, hrole'⟩
  exact window_of_reserved (reached_exec hvalid' hnext) (reserved_exec hnext hvalid' hreserved hmid)
    hlater.2

/-- A host hands off, hands off once more and closes, and its peer waits. -/
theorem handoff_window_repeated :
    Window defaultLimits
      ((server defaultLimits).exec init
        ([.hello ⟨1, "10.0.0.1"⟩ ⟨.host, "65727231", "1.0.0", relayProtocolVersion, none⟩ 0 "a",
            .hello ⟨2, "10.0.0.2"⟩ ⟨.peer, "65727231", "1.0.0", relayProtocolVersion, none⟩ 1 ""] ++
          .message ⟨1, "10.0.0.1"⟩ [T.handoff] 2 ::
            [.message ⟨1, "10.0.0.1"⟩ [T.handoff] 5, .close ⟨1, "10.0.0.1"⟩]))
      "65727231" ⟨1, "10.0.0.1"⟩ 8005 :=
  handoff_window defaultLimits (by decide +kernel) rfl rfl rfl
    ⟨id, id, id, id, trivial⟩

end ScreenSharing.Relay
