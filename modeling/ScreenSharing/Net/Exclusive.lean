import ScreenSharing.Net.Transparency

/-!
# A channel of two

The relay is transparent (`relay_transparent`), and it is discreet as well: as long as the host and the
peer put no payload on their sockets but what their links are given to send, nothing else ever arrives at
the peer's link, nor at the virtual transport for the peer.  So the two endpoints have two queues to
themselves, from the HELLO of the peer on (`channel_exclusive`).

The relay tells sockets apart by what they are attached as, and it forgets nobody who has not closed.  A
socket left over from an earlier room of the same id, or from before a handoff, would be taken for the host
or the peer; `Sole` says that there is none.
-/

namespace ScreenSharing.Net

open Lib hiding Bytes readUInt32BE
open Relay hiding readUInt32BE

variable {rt : JsonRuntime} {L : RelayLimits} {W : Tunnel rt} {S : Endpoint} {n vt : ℕ} {r : String}
  {h p : Socket} {c : ℕ} {e : TunnelEvent}

/-! ### What a step adds to the queues -/

/-- A message on its way to the relay is one from before, or carries what its link is given to send, or
is a KICK of a link, or is whatever else the client writes. -/
theorem up_origin (hundone : Undone W) (henabled : W.Enabled e) {s : Socket} {message : Upward}
    (hmem : message ∈ ((tunnel L rt).next W e).up s) : message ∈ W.up s ∨
      (∃ S isBinary payload, given S e = some (isBinary, payload) ∧
        message.parcel = some ⟨S, W.stamp, isBinary, payload⟩) ∨
      message.parcel = none ∧
        ((∃ connId, encodeKick connId = .ok message.data) ∨ e = .write s message.data) := by
  have hpost : ∀ {socket : Socket} {data : Bytes} {parcel : Option Parcel},
      message ∈ (W.post socket data parcel).up s →
        message ∈ W.up s ∨ s = socket ∧ message = ⟨data, parcel⟩ := by
    intro socket data parcel hmem
    change message ∈ Function.update W.up socket _ s at hmem
    by_cases hs : s = socket
    · rw [hs, Function.update_self] at hmem
      rw [hs]
      exact (List.mem_append.mp hmem).imp id fun hnew => ⟨rfl, List.mem_singleton.mp hnew⟩
    · rw [Function.update_of_ne hs] at hmem
      exact .inl hmem
  cases e with
  | hello socket hello now token => exact .inl hmem
  | read socket now =>
    obtain ⟨first, rest, hup⟩ := List.exists_cons_of_ne_nil henabled.1
    left
    change message ∈ (W.readNext L socket now).up s at hmem
    rw [readNext_eq now hup] at hmem
    split at hmem
    · exact mem_up_pop hup hmem
    · exact mem_up_pop hup hmem
  | close socket => exact .inl hmem
  | sweep now => exact .inl hmem
  | receive socket =>
    obtain ⟨packet, rest, hdown⟩ := List.exists_cons_of_ne_nil henabled.2
    left
    change message ∈ (W.receiveNext socket).1.up s at hmem
    rw [receiveNext_eq hundone hdown] at hmem
    exact hmem
  | listen socket =>
    left
    change message ∈ (W.listen socket).up s at hmem
    unfold Tunnel.listen at hmem
    split at hmem
    · exact hmem
    · exact hmem
  | peerSend socket isBinary payload =>
    change message ∈ (W.peerSend socket isBinary payload).up s at hmem
    unfold Tunnel.peerSend at hmem
    split at hmem
    · split at hmem
      · exact .inl hmem
      · obtain hold | ⟨-, rfl⟩ := hpost hmem
        · exact .inl hold
        · exact .inr (.inl ⟨.peer socket, isBinary, payload, if_pos rfl, rfl⟩)
    · exact .inl hmem
  | hostSend socket vt isBinary payload =>
    change message ∈ (W.hostSend socket vt isBinary payload).up s at hmem
    unfold Tunnel.hostSend at hmem
    split at hmem
    · split at hmem
      · exact .inl hmem
      · split at hmem
        · obtain hold | ⟨-, rfl⟩ := hpost hmem
          · exact .inl hold
          · exact .inr (.inl ⟨.transport socket vt, isBinary, payload, if_pos rfl, rfl⟩)
        · exact .inl hmem
    · exact .inl hmem
  | hostClose socket vt =>
    change message ∈ (W.hostClose socket vt).up s at hmem
    unfold Tunnel.hostClose at hmem
    split at hmem
    · split at hmem
      · exact .inl hmem
      · split at hmem
        · next data hdata =>
          obtain hold | ⟨-, rfl⟩ := hpost hmem
          · exact .inl hold
          · obtain ⟨connId, -, hencode⟩ := Option.map_eq_some_iff.mp hdata
            exact .inr (.inr ⟨rfl, .inl ⟨connId, hencode⟩⟩)
        · exact .inl hmem
    · exact .inl hmem
  | write socket data =>
    obtain hold | ⟨rfl, rfl⟩ := hpost hmem
    · exact .inl hold
    · exact .inr (.inr ⟨rfl, .inr rfl⟩)

/-- Frames that carry a payload. -/
def carries : Frame → Bool
  | .dataToPeer .. | .dataToHost .. => true
  | _ => false

/-- A payload is only relayed when a message is. -/
theorem message_of_carries {R : State} {event : Relay.Event} {dest : Socket} {frame : Frame}
    (hcarries : carries frame = true) (hsent : Effect.send dest frame ∈ (react L R event).2) :
    ∃ socket data now, event = .message socket data now := by
  cases frame with
  | dataToPeer isBinary payload =>
    obtain ⟨socket, data, now, _, _, _, heq, -⟩ := host_of_toPeer hsent
    exact ⟨socket, data, now, heq⟩
  | dataToHost connId isBinary payload =>
    obtain ⟨socket, data, now, _, _, heq, -⟩ := peer_of_toHost hsent
    exact ⟨socket, data, now, heq⟩
  | _ => cases hcarries

/-- **A step takes the first packet off a queue, or adds to it**; a payload that is added is one that the
relay reads now, and it keeps its mark. -/
theorem down_next (hundone : Undone W) (henabled : W.Enabled e) (s : Socket) :
    (e = .receive s ∧ ∃ packet, W.down s = packet :: ((tunnel L rt).next W e).down s) ∨
      ∃ later, ((tunnel L rt).next W e).down s = W.down s ++ later ∧
        ∀ packet ∈ later, carries packet.frame = true → ∃ socket now message,
          message ∈ W.up socket ∧ packet.parcel = message.parcel ∧ Effect.send s packet.frame ∈
            (react L W.relay.relay (.message socket message.data now)).2 := by
  have hstill : ∀ {V : Tunnel rt}, V.down s = W.down s → ∃ later, V.down s = W.down s ++ later ∧
      ∀ packet ∈ later, carries packet.frame = true → ∃ socket now message,
        message ∈ W.up socket ∧ packet.parcel = message.parcel ∧ Effect.send s packet.frame ∈
          (react L W.relay.relay (.message socket message.data now)).2 := fun hdown =>
    ⟨[], hdown.trans (List.append_nil _).symm, fun packet hmem => absurd hmem List.not_mem_nil⟩
  -- the relay handles something that is not a message
  have hquiet : ∀ {V : Tunnel rt} {event : Relay.Event}, V.relay = W.relay → V.down = W.down →
      (∀ socket data now, event ≠ .message socket data now) →
      ∃ later, (V.relays L event none).down s = W.down s ++ later ∧
        ∀ packet ∈ later, carries packet.frame = true → ∃ socket now message,
          message ∈ W.up socket ∧ packet.parcel = message.parcel ∧ Effect.send s packet.frame ∈
            (react L W.relay.relay (.message socket message.data now)).2 := by
    intro V event hrelay hdown hno
    refine ⟨_, (down_relays V event none s).trans (by rw [hdown]), fun packet hmem hcarries => ?_⟩
    have hsent := mem_sentTo.mp (mem_written hmem).1
    obtain ⟨socket, data, now, heq⟩ := message_of_carries hcarries hsent
    exact absurd heq (hno socket data now)
  cases e with
  | hello socket hello now token =>
    exact .inr (@hquiet W (.hello socket hello now token) rfl rfl fun _ _ _ heq => by cases heq)
  | read socket now =>
    obtain ⟨message, rest, hup⟩ := List.exists_cons_of_ne_nil henabled.1
    right
    show ∃ later, (W.readNext L socket now).down s = _ ∧ _
    rw [readNext_eq now hup]
    split
    · exact @hquiet (W.pop socket rest) (.close socket) rfl rfl fun _ _ _ heq => by cases heq
    · refine ⟨_, down_relays (W.pop socket rest) _ _ s, fun packet hmem _ => ?_⟩
      obtain ⟨hframe, hparcel⟩ := mem_written hmem
      have hmessage : message ∈ W.up socket := by
        rw [hup]
        exact List.mem_cons_self
      exact ⟨socket, now, message, hmessage, hparcel, mem_sentTo.mp hframe⟩
  | close socket =>
    exact .inr (@hquiet W (.close socket) rfl rfl fun _ _ _ heq => by cases heq)
  | sweep now => exact .inr (@hquiet W (.sweep now) rfl rfl fun _ _ _ heq => by cases heq)
  | receive socket =>
    obtain ⟨packet, rest, hdown⟩ := List.exists_cons_of_ne_nil henabled.2
    have hnext : ((tunnel L rt).next W (.receive socket)).down = Function.update W.down socket rest := by
      show (W.receiveNext socket).1.down = _
      rw [receiveNext_eq hundone hdown]
    by_cases hs : s = socket
    · refine .inl ⟨by rw [hs], packet, ?_⟩
      rw [hnext, hs, Function.update_self]
      exact hdown
    · refine .inr (hstill ?_)
      rw [hnext, Function.update_of_ne hs]
  | listen | peerSend | hostSend | hostClose | write =>
    refine .inr (hstill ?_)
    have hstep := (client_step (L := L) rfl henabled).1
    generalize (tunnel L rt).next W _ = W' at hstep
    cases hstep <;> rfl

/-! ### What a link has put on its socket -/

/-- Neither half of the wire format makes a payload of it. -/
def NoPayload (data : Bytes) : Prop :=
  decodeDataFromPeer data = none ∧ decodeDataFromHost data = none

instance (data : Bytes) : Decidable (NoPayload data) :=
  inferInstanceAs (Decidable (_ ∧ _))

/-- Whatever else the client puts on its socket (a ping, a handoff) is no payload. -/
def Honest (s : Socket) : TunnelEvent → Prop
  | .write socket data => socket = s → NoPayload data
  | _ => True

instance (s : Socket) : ∀ e, Decidable (Honest s e)
  | .write _ _ => inferInstanceAs (Decidable (_ → _))
  | .hello .. | .read .. | .close _ | .sweep _ | .receive _ | .listen _ | .peerSend .. | .hostSend ..
  | .hostClose .. => isTrue trivial

theorem noPayload_kick {connId : ℕ} {data : Bytes} (h : encodeKick connId = .ok data) :
    NoPayload data := by
  unfold encodeKick writeUInt32BE at h
  split at h
  · cases h
    exact ⟨decodeDataFromPeer_ne (by decide), decodeDataFromHost_ne (by decide)⟩
  · cases h

/-- What the link of a host writes for a transport. -/
theorem decode_encodeDataH {connId : ℕ} {isBinary : Bool} {payload data : Bytes}
    (h : encodeDataH connId isBinary payload = .ok data) :
    decodeDataFromPeer data = none ∧ decodeDataFromHost data = some ⟨connId, isBinary, payload⟩ := by
  by_cases hconnId : connId < 2 ^ 32
  · simp only [encodeDataH, writeUInt32BE_of_lt hconnId] at h
    cases h
    exact ⟨decodeDataFromPeer_ne (by decide), decodeDataFromHost_encode hconnId isBinary payload⟩
  · unfold encodeDataH writeUInt32BE at h
    rw [if_neg hconnId] at h
    cases h

/-- **The queue of a socket to the relay**: what the relay would take for a payload was given to `send`,
and what was given to `S` was given at call `n` or later. -/
structure Upstream (s : Socket) (S : Endpoint) (n : ℕ) (W : Tunnel rt) : Prop where
  marked : ∀ message ∈ W.up s, message.parcel = none → NoPayload message.data
  numbered : ∀ message ∈ W.up s, ∀ P ∈ message.parcel, P.sender = S → n ≤ P.number

theorem marked_next {s : Socket}
    (h : ∀ message ∈ W.up s, message.parcel = none → NoPayload message.data) (hundone : Undone W)
    (henabled : W.Enabled e) (hhonest : Honest s e) :
    ∀ message ∈ ((tunnel L rt).next W e).up s, message.parcel = none → NoPayload message.data := by
  intro message hmem hnone
  obtain hold | ⟨_, _, _, -, hsome⟩ | ⟨-, ⟨connId, hkick⟩ | rfl⟩ := up_origin hundone henabled hmem
  · exact h message hold hnone
  · rw [hsome] at hnone
    cases hnone
  · exact noPayload_kick hkick
  · exact hhonest rfl

theorem upstream_next {s : Socket} (h : Upstream s S n W) (hundone : Undone W)
    (henabled : W.Enabled e) (hn : n ≤ W.stamp) (hhonest : Honest s e) :
    Upstream s S n ((tunnel L rt).next W e) := by
  refine ⟨marked_next h.marked hundone henabled hhonest, fun message hmem P hP hsender => ?_⟩
  obtain hold | ⟨_, _, _, -, hsome⟩ | ⟨hnone, -⟩ := up_origin hundone henabled hmem
  · exact h.numbered message hold P hP hsender
  · rw [hsome] at hP
    cases hP
    exact hn
  · rw [hnone] at hP
    cases hP

/-- A message that the relay takes for a payload bears the mark of one. -/
theorem Upstream.mark {s : Socket} (h : Upstream s S n W) {message : Upward}
    (hmem : message ∈ W.up s) (hpayload : ¬ NoPayload message.data)
    (hsender : ∀ P ∈ message.parcel, P.sender = S) :
    (ofSender S n message.parcel).isSome = true := by
  cases hparcel : message.parcel with
  | none => exact absurd (h.marked message hmem hparcel) hpayload
  | some P =>
    have hP : P ∈ message.parcel := hparcel
    rw [ofSender_eq_some.mpr ⟨rfl, hsender P hP, h.numbered message hmem P hP (hsender P hP)⟩]
    rfl

/-! ### Who is taken for whom -/

/-- Nobody but the host and the peer is attached as the host of the room, or under the connId. -/
structure Sole (R : State) (r : String) (h : Socket) (c : ℕ) (p : Socket) : Prop where
  host : ∀ s att, R.attached.get s = some att → att.role = .host → att.roomId = r → s = h
  peer : ∀ s, R.attached.get s = some ⟨.peer, r, some c⟩ → s = p

/-- A room that is not being handed off gets no further host. -/
theorem sole_hello {R : State} (hids : ∀ r room, R.rooms.get r = some room → room.roomId = r)
    (hsole : Sole R r h c p) {room : Room} (hroom : R.rooms.get r = some room)
    (hopen : room.handoffDeadline = none) (hbelow : c < room.nextConnId) (now : ℕ) (token : String)
    (socket : Socket) (hello : Hello) : Sole (onHello L now token socket hello R).1 r h c p := by
  -- a new attachment under another room id, or another connId, is no matter
  have hset : ∀ {R' : State} {att : Attached}, R'.attached = R.attached.set socket att →
      (att.role = .host → att.roomId ≠ r) → att ≠ ⟨.peer, r, some c⟩ → Sole R' r h c p := by
    intro R' att hattached hhost hpeer
    constructor
    · intro s att' hatt hrole hid
      rw [hattached, InsertionMap.get_set] at hatt
      split at hatt
      · cases hatt
        exact absurd hid (hhost hrole)
      · exact hsole.host s att' hatt hrole hid
    · intro s hatt
      rw [hattached, InsertionMap.get_set] at hatt
      split at hatt
      · cases hatt
        exact absurd rfl hpeer
      · exact hsole.peer s hatt
  have hout := onHello_outcome L now token socket hello R
  generalize onHello L now token socket hello R = res at hout
  cases hout with
  | refused reason hrooms hatt =>
    constructor
    · intro s att hget
      rw [hatt] at hget
      exact hsole.host s att hget
    · intro s hget
      rw [hatt] at hget
      exact hsole.peer s hget
  | claimed hfresh hrole hfound hclaim hproto =>
    refine hset rfl (fun _ hid => ?_) (by simp)
    subst hid
    rw [← hids _ _ hfound] at hfound
    cases hroom.symm.trans hfound
    simp [claimable, hopen] at hclaim
  | created hfresh hrole hfound hrooms hatt =>
    refine hset hatt (fun _ hid => ?_) (by simp)
    change hello.roomId = r at hid
    rw [hid, hroom] at hfound
    cases hfound
  | joined hfresh hrole hfound hrooms hatt =>
    refine hset hatt (fun hcontra => by cases hcontra) fun heq => ?_
    cases heq
    rw [hroom] at hfound
    cases hfound
    omega

theorem sole_next {V : ServerState} (hs : Seated V) (hsole : Sole V.relay r h c p)
    (hroom : ∃ room, V.relay.rooms.get r = some room ∧ room.handoffDeadline = none ∧
      room.peers.get c = some p) (event : Relay.Event) :
    Sole ((Relay.server L).next V event).relay r h c p := by
  have hkept : ∀ {R' : State}, (∀ s att, R'.attached.get s = some att →
      V.relay.attached.get s = some att) → Sole R' r h c p := fun hsub =>
    ⟨fun s att hatt => hsole.host s att (hsub s att hatt), fun s hatt => hsole.peer s (hsub s _ hatt)⟩
  rw [next_relay]
  cases event with
  | hello socket hello now token =>
    obtain ⟨room, hroom, hopen, hpeer⟩ := hroom
    exact sole_hello hs.roomId hsole hroom hopen (hs.below r room c p hroom hpeer) now token socket hello
  | message socket data now =>
    have hatt : (onMessage now socket data V.relay).1.attached = V.relay.attached := by
      have hout := onMessage_outcome now socket data V.relay
      generalize onMessage now socket data V.relay = res at hout
      cases hout <;> rfl
    exact hkept fun s att hget => (congrArg (InsertionMap.get · s) hatt).symm.trans hget
  | close socket =>
    refine hkept fun s att hget => ?_
    change (onClose socket V.relay).1.attached.get s = some att at hget
    have hout := onClose_outcome socket V.relay
    generalize onClose socket V.relay = res at hout hget
    cases hout with
    | unattached => exact hget
    | detached => exact (InsertionMap.get_of_get_delete hget).1
    | toredown => exact (InsertionMap.get_of_get_delete hget).1
    | left => exact (InsertionMap.get_of_get_delete hget).1
  | sweep now =>
    exact hkept fun s att hget =>
      (congrArg (InsertionMap.get · s) (sweep_attached L now V.relay)).symm.trans hget

/-! ### Where a payload is delivered -/

/-- A transport that `#peers` has under a connId was made for it. -/
def ClientLink.Tabled (link : ClientLink) : Prop :=
  ∀ c vt : ℕ, link.transport c = some vt → link.made[vt]? = some c

theorem tabled_opened (role : Role) : (ClientLink.opened role).Tabled := by
  cases role with
  | host => exact fun c vt hget => by cases hget
  | peer => exact fun c vt hget => by cases hget

theorem ClientLink.Tabled.onFrame {link : ClientLink} (h : link.Tabled) (s : Socket)
    (parcel : Option Parcel) (frame : Frame) : (link.onFrame s parcel frame).1.Tabled := by
  intro c vt hget
  cases link with
  | unopened => cases hget
  | peer link => cases hget
  | host link shut =>
    have hmade := (@made_onFrame_host (.host link shut) s rfl parcel frame).2
    rw [hmade]
    by_cases hup : frame = .peerUp c
    · rw [hup, transport_onFrame_up rfl] at hget
      cases hget
      rw [hup]
      show (link.made ++ [c])[link.made.length]? = some c
      rw [List.getElem?_append_right (Nat.le_refl _), Nat.sub_self]
      rfl
    · have hold : (ClientLink.host link shut).transport c = some vt := by
        by_cases hdown : frame = .peerDown c
        · rw [hdown] at hget
          exact absurd hget (by simp [ClientLink.onFrame, HostLink.onFrame, ClientLink.transport])
        · rw [transport_onFrame parcel hup hdown] at hget
          exact hget
      have hvt := h c vt hold
      rw [List.getElem?_append_left (List.getElem?_eq_some_iff.mp hvt).1]
      exact hvt

/-- Every link of the tunnel is. -/
def Tabled (W : Tunnel rt) : Prop := ∀ s, (W.link s).Tabled

theorem tabled_init : Tabled (Tunnel.init : Tunnel rt) := fun _ _ _ hget => by cases hget

theorem tabled_update (h : Tabled W) {s : Socket} {link : ClientLink} (hlink : link.Tabled) :
    ∀ s', (Function.update W.link s link s').Tabled := by
  intro s'
  by_cases hs : s' = s
  · rw [hs, Function.update_self]
    exact hlink
  · rw [Function.update_of_ne hs]
    exact h s'

theorem tabled_next (h : Tabled W) (hundone : Undone W) (henabled : W.Enabled e) :
    Tabled ((tunnel L rt).next W e) := by
  cases e with
  | hello socket hello now token => exact tabled_update h (tabled_opened hello.role)
  | read socket now =>
    obtain ⟨message, rest, hup⟩ := List.exists_cons_of_ne_nil henabled.1
    show Tabled (W.readNext L socket now)
    rw [readNext_eq now hup]
    split
    · exact h
    · exact h
  | close socket => exact h
  | sweep now => exact h
  | receive socket =>
    obtain ⟨packet, rest, hdown⟩ := List.exists_cons_of_ne_nil henabled.2
    show Tabled (W.receiveNext socket).1
    rw [receiveNext_eq hundone hdown]
    exact tabled_update h ((h socket).onFrame socket packet.parcel packet.frame)
  | listen socket =>
    show Tabled (W.listen socket)
    unfold Tunnel.listen
    split
    · next link shut hlink =>
      refine tabled_update h fun c vt hget => ?_
      have hold := h socket
      rw [hlink] at hold
      exact hold c vt hget
    · exact h
  | peerSend socket isBinary payload =>
    show Tabled (W.peerSend socket isBinary payload)
    unfold Tunnel.peerSend
    split
    · split
      · exact h
      · exact h
    · exact h
  | hostSend socket vt isBinary payload =>
    show Tabled (W.hostSend socket vt isBinary payload)
    unfold Tunnel.hostSend
    split
    · split
      · exact h
      · split
        · exact h
        · exact h
    · exact h
  | hostClose socket vt =>
    show Tabled (W.hostClose socket vt)
    unfold Tunnel.hostClose
    split
    · next link shut hlink =>
      have hold := h socket
      rw [hlink] at hold
      split
      · exact h
      · split
        · refine tabled_update h fun c vt' hget => ?_
          change (link.kick vt).peers.get c = some vt' at hget
          show (link.kick vt).made[vt']? = some c
          rw [HostLink.made_kick]
          unfold HostLink.kick at hget
          split at hget
          · exact hold c vt' hget
          · exact hold c vt' (InsertionMap.get_of_get_delete hget).1
        · exact tabled_update h fun c vt' hget => hold c vt' hget
    · exact h
  | write socket data => exact h

/-- A delivery is of the packet that its link receives. -/
theorem delivery_origin (hundone : Undone W) (henabled : W.Enabled e) {delivery : Delivery}
    (hmem : delivery ∈ (tunnel L rt).out W e) : ∃ s packet rest, e = .receive s ∧
      W.down s = packet :: rest ∧
      delivery ∈ ((W.link s).onFrame s packet.parcel packet.frame).2 := by
  cases e with
  | receive socket =>
    obtain ⟨packet, rest, hdown⟩ := List.exists_cons_of_ne_nil henabled.2
    refine ⟨socket, packet, rest, rfl, hdown, ?_⟩
    change delivery ∈ (W.receiveNext socket).2 at hmem
    rw [receiveNext_eq hundone hdown] at hmem
    exact hmem
  | _ => cases hmem

/-- What a virtual transport delivers came under the connId that it has. -/
theorem onFrame_transport {link : ClientLink} {s : Socket} {parcel : Option Parcel} {frame : Frame}
    {delivery : Delivery} (hmem : delivery ∈ (link.onFrame s parcel frame).2)
    (hendpoint : delivery.endpoint = .transport h vt) : s = h ∧ ∃ c isBinary payload,
      frame = .dataToHost c isBinary payload ∧ link.transport c = some vt := by
  cases link with
  | unopened => cases hmem
  | peer link =>
    obtain ⟨callback, -, heq⟩ := List.mem_filterMap.mp hmem
    split at heq
    · cases heq
      cases hendpoint
    · cases heq
  | host link shut =>
    obtain ⟨callback, hcallback, heq⟩ := List.mem_filterMap.mp hmem
    split at heq
    · next vt' isBinary payload =>
      cases heq
      cases hendpoint
      refine ⟨rfl, ?_⟩
      cases frame with
      | dataToHost connId isBinary' payload' =>
        dsimp only [HostLink.onFrame] at hcallback
        split at hcallback
        · cases hcallback
        · next hget =>
          cases List.mem_singleton.mp hcallback
          exact ⟨_, _, _, rfl, hget⟩
      | peerUp connId =>
        dsimp only [HostLink.onFrame, HostLink.peerUp] at hcallback
        split at hcallback <;> simp at hcallback
      | peerDown connId =>
        dsimp only [HostLink.onFrame] at hcallback
        split at hcallback <;> simp at hcallback
      | _ => cases hcallback
    · cases heq

/-- What the link of a peer delivers came with a payload. -/
theorem onFrame_peer {link : ClientLink} {s : Socket} {parcel : Option Parcel} {frame : Frame}
    {delivery : Delivery} (hmem : delivery ∈ (link.onFrame s parcel frame).2)
    (hendpoint : delivery.endpoint = .peer p) : s = p ∧ carries frame = true := by
  cases link with
  | unopened => cases hmem
  | host link shut =>
    obtain ⟨callback, -, heq⟩ := List.mem_filterMap.mp hmem
    split at heq
    · cases heq
      cases hendpoint
    · cases heq
  | peer link =>
    obtain ⟨callback, hcallback, heq⟩ := List.mem_filterMap.mp hmem
    split at heq
    · cases heq
      cases hendpoint
      refine ⟨rfl, ?_⟩
      cases frame with
      | dataToPeer => rfl
      | dataToHost => rfl
      | hostGone =>
        dsimp only [PeerLink.onFrame, PeerLink.fail] at hcallback
        split at hcallback <;> simp at hcallback
      | hostClaimed =>
        dsimp only [PeerLink.onFrame] at hcallback
        split at hcallback <;> simp at hcallback
      | _ => cases hcallback
    · cases heq

/-! ### Only the two of them -/

/-- **The queue of a host**: what comes behind the PEER_UP and is tagged with the connId was given to the
link of the peer, at call `n` or later.  What comes ahead of it finds no transport. -/
def Reserved (c : ℕ) (p : Socket) (n : ℕ) : Bool → List (Downward rt) → Prop
  | _, [] => True
  | up, packet :: rest =>
    (up = true → ∀ isBinary payload, packet.frame = .dataToHost c isBinary payload →
      (ofSender (.peer p) n packet.parcel).isSome = true) ∧
    Reserved c p n (up || decide (packet.frame = .peerUp c)) rest

theorem reserved_of_given {queue : List (Downward rt)}
    (hqueue : ∀ packet ∈ queue, ∀ isBinary payload, packet.frame = .dataToHost c isBinary payload →
      (ofSender (.peer p) n packet.parcel).isSome = true) : ∀ up, Reserved c p n up queue := by
  induction queue with
  | nil => exact fun _ => trivial
  | cons packet rest ih =>
    exact fun up => ⟨fun _ => hqueue packet List.mem_cons_self,
      ih (fun packet' hmem => hqueue packet' (List.mem_cons_of_mem _ hmem)) _⟩

theorem Reserved.append {queue later : List (Downward rt)}
    (hlater : ∀ packet ∈ later, ∀ isBinary payload, packet.frame = .dataToHost c isBinary payload →
      (ofSender (.peer p) n packet.parcel).isSome = true) :
    ∀ {up : Bool}, Reserved c p n up queue → Reserved c p n up (queue ++ later) := by
  induction queue with
  | nil => exact fun _ => reserved_of_given hlater _
  | cons packet rest ih => exact fun h => ⟨h.1, ih h.2⟩

/-- Ahead of the PEER_UP nothing is asked. -/
theorem reserved_unheard {queue : List (Downward rt)}
    (hqueue : ∀ packet ∈ queue, packet.frame ≠ .peerUp c) : Reserved c p n false queue := by
  induction queue with
  | nil => trivial
  | cons packet rest ih =>
    refine ⟨fun hup => (Bool.false_ne_true hup).elim, ?_⟩
    simp only [hqueue packet List.mem_cons_self, decide_false, Bool.or_false]
    exact ih fun packet' hmem => hqueue packet' (List.mem_cons_of_mem _ hmem)

/-- **The channel of the transport `vt` of `h` and the peer `p`**, which sits in room `r` under `c`: whatever
is on its way to either of them was given to the other at call `n` or later. -/
structure Exclusive (r : String) (h : Socket) (vt c : ℕ) (p : Socket) (n : ℕ) (W : Tunnel rt) : Prop where
  tabled : Tabled W
  sole : Sole W.relay.relay r h c p
  fromPeer : Upstream p (.peer p) n W
  fromHost : Upstream h (.transport h vt) n W
  toHost : Reserved c p n (decide (c ∈ (W.link h).made)) (W.down h)
  toPeer : ∀ packet ∈ W.down p, carries packet.frame = true →
    (ofSender (.transport h vt) n packet.parcel).isSome = true

/-- The peer has a seat in a room that is not being handed off. -/
def Sits (R : State) (r : String) (h : Socket) (c : ℕ) (p : Socket) : Prop :=
  ∃ room, R.rooms.get r = some room ∧ room.host = h ∧ room.handoffDeadline = none ∧
    room.peers.get c = some p

/-- What the relay sends the host under the connId is a payload that it reads from the peer. -/
theorem source_of_toHost (hW : Coherent W) (hsole : Sole W.relay.relay r h c p)
    (hsits : Sits W.relay.relay r h c p) {socket : Socket} {message : Upward} {now : ℕ}
    (hmem : message ∈ W.up socket) {isBinary : Bool} {payload : Bytes}
    (hsent : Effect.send h (.dataToHost c isBinary payload) ∈
      (react L W.relay.relay (.message socket message.data now)).2) :
    socket = p ∧ ¬ NoPayload message.data ∧ ∀ P ∈ message.parcel, P.sender = .peer p := by
  obtain ⟨room, hroom, hhost, -, -⟩ := hsits
  obtain ⟨socket', data, now', att, room', heq, hatt, hrole, hconn, hroom', hhost', -, hdecode⟩ :=
    peer_of_toHost hsent
  cases heq
  have hid := hW.reached.ownRoom _ _ _ _ hroom' hroom (hhost'.trans hhost.symm)
  have hself : W.relay.relay.attached.get socket = some ⟨.peer, r, some c⟩ := by
    rw [hatt, ← hrole, ← hid, ← hconn]
  have hp := hsole.peer socket hself
  subst hp
  have hpayload : ¬ NoPayload message.data := by
    intro hno
    rw [hno.1] at hdecode
    cases hdecode
  refine ⟨rfl, hpayload, fun P hP => ?_⟩
  have hwritten := (hW.ups socket message hmem P hP).2
  unfold WrittenBy at hwritten
  cases hsender : P.sender with
  | peer q =>
    rw [hsender] at hwritten
    rw [hwritten.1]
  | transport host vt' =>
    rw [hsender] at hwritten
    obtain ⟨-, c', -, hencode⟩ := hwritten
    rw [(decode_encodeDataH hencode).1] at hdecode
    cases hdecode

/-- A payload that the relay sends the peer is one that it reads from the host, and is for this peer. -/
theorem source_of_toPeer (hW : Coherent W) (hsole : Sole W.relay.relay r h c p)
    (hsits : Sits W.relay.relay r h c p) (hvt : ∀ vt' : ℕ, (W.link h).made[vt']? = some c → vt' = vt)
    {socket : Socket} {message : Upward} {now : ℕ} (hmem : message ∈ W.up socket) {frame : Frame}
    (hcarries : carries frame = true)
    (hsent : Effect.send p frame ∈ (react L W.relay.relay (.message socket message.data now)).2) :
    socket = h ∧ ¬ NoPayload message.data ∧ ∀ P ∈ message.parcel, P.sender = .transport h vt := by
  obtain ⟨room, hroom, hhost, -, hpeer⟩ := hsits
  have hseat := hW.reached.seat r c p ⟨room, hroom, hpeer⟩
  cases frame with
  | dataToHost c' isBinary payload =>
    -- nobody hosts a room while sitting in one
    obtain ⟨_, _, _, att, room', -, -, -, -, hroom', hhost', hopen', -⟩ := peer_of_toHost hsent
    have hnot : p ∉ W.relay.gone := fun hgone => by
      cases (hW.absent.attached p hgone).symm.trans hseat
    have hatt := hW.reached.hosts _ room' hroom' (by rw [hhost']; exact hnot)
    rw [hhost', hseat] at hatt
    cases hatt
  | dataToPeer isBinary payload =>
    obtain ⟨socket', data, now', att, room', frame, heq, hatt, hrole, hroom', hdecode, hpeer'⟩ :=
      host_of_toPeer hsent
    cases heq
    obtain ⟨hid, hconn⟩ := hW.reached.toSeated.unique ⟨room, hroom, hpeer⟩ ⟨room', hroom', hpeer'⟩
    have hh := hsole.host socket att hatt hrole hid.symm
    subst hh
    have hpayload : ¬ NoPayload message.data := by
      intro hno
      rw [hno.2] at hdecode
      cases hdecode
    refine ⟨rfl, hpayload, fun P hP => ?_⟩
    have hwritten := (hW.ups socket message hmem P hP).2
    unfold WrittenBy at hwritten
    cases hsender : P.sender with
    | peer q =>
      rw [hsender] at hwritten
      have hnone : decodeDataFromHost message.data = none := by
        rw [hwritten.2]
        exact decodeDataFromHost_ne (by decide)
      rw [hnone] at hdecode
      cases hdecode
    | transport host vt' =>
      rw [hsender] at hwritten
      obtain ⟨hown, c', hmade, hencode⟩ := hwritten
      rw [(decode_encodeDataH hencode).2] at hdecode
      cases hdecode
      rw [hown, hvt vt' (hconn ▸ hmade)]
  | _ => cases hcarries

/-- The transports that a host link has made, over a step. -/
theorem made_next (hhost : (W.link h).isHost = true) (hgreeted : h ∈ W.relay.greeted)
    (hundone : Undone W) (henabled : W.Enabled e) :
    (e ≠ .receive h ∧ (((tunnel L rt).next W e).link h).made = (W.link h).made) ∨
      e = .receive h ∧ ∃ packet, W.down h = packet :: ((tunnel L rt).next W e).down h ∧
        (((tunnel L rt).next W e).link h).made =
          (W.link h).made ++ HostLink.announced [packet.frame] := by
  cases e with
  | hello socket hello now token =>
    have hne : h ≠ socket := fun heq => henabled.1 (heq ▸ hgreeted)
    refine .inl ⟨by simp, ?_⟩
    show (Function.update W.link socket _ h).made = _
    rw [Function.update_of_ne hne]
  | read socket now =>
    obtain ⟨message, rest, hup⟩ := List.exists_cons_of_ne_nil henabled.1
    refine .inl ⟨by simp, ?_⟩
    show ((W.readNext L socket now).link h).made = _
    rw [readNext_eq now hup]
    split <;> rfl
  | close socket => exact .inl ⟨by simp, rfl⟩
  | sweep now => exact .inl ⟨by simp, rfl⟩
  | receive socket =>
    obtain ⟨packet, rest, hdown⟩ := List.exists_cons_of_ne_nil henabled.2
    have hnext : (tunnel L rt).next W (.receive socket) = _ :=
      congrArg Prod.fst (receiveNext_eq hundone hdown)
    by_cases hs : h = socket
    · subst hs
      refine .inr ⟨rfl, packet, ?_, ?_⟩
      · rw [hnext, hdown]
        show packet :: rest = packet :: Function.update W.down h rest h
        rw [Function.update_self]
      · rw [hnext]
        show (Function.update W.link h _ h).made = _
        rw [Function.update_self]
        exact (made_onFrame_host hhost packet.parcel packet.frame).2
    · refine .inl ⟨fun heq => hs (TunnelEvent.receive.inj heq).symm, ?_⟩
      rw [hnext]
      show (Function.update W.link socket _ h).made = _
      rw [Function.update_of_ne hs]
  | listen | peerSend | hostSend | hostClose | write =>
    refine .inl ⟨by simp, ?_⟩
    have hstep := (client_step (L := L) rfl henabled).1
    generalize (tunnel L rt).next W _ = W' at hstep
    cases hstep with
    | still | sent | wrote => rfl
    | relinked halike => exact made_setLink halike
    | closed hgreeted halike => exact @made_setLink _ (W.post _ _ none) h _ _ halike

/-- Whatever happens, nobody else is taken for the two of them. -/
theorem sole_tunnel (hsole : Sole W.relay.relay r h c p) (hW : Coherent W) (hundone : Undone W)
    (henabled : W.Enabled e) (hsits : Sits W.relay.relay r h c p) :
    Sole ((tunnel L rt).next W e).relay.relay r h c p := by
  have hrelay : ∀ event, Sole ((Relay.server L).next W.relay event).relay r h c p := by
    obtain ⟨room, hroom, -, hopen, hseat⟩ := hsits
    exact sole_next hW.reached.toSeated hsole ⟨room, hroom, hopen, hseat⟩
  cases e with
  | hello socket hello now token => exact hrelay (.hello socket hello now token)
  | read socket now =>
    obtain ⟨message, rest, hup⟩ := List.exists_cons_of_ne_nil henabled.1
    show Sole (W.readNext L socket now).relay.relay r h c p
    rw [readNext_eq now hup]
    split
    · exact hrelay (.close socket)
    · exact hrelay (.message socket message.data now)
  | close socket => exact hrelay (.close socket)
  | sweep now => exact hrelay (.sweep now)
  | receive socket =>
    obtain ⟨packet, rest, hdown⟩ := List.exists_cons_of_ne_nil henabled.2
    show Sole (W.receiveNext socket).1.relay.relay r h c p
    rw [receiveNext_eq hundone hdown]
    exact hsole
  | listen | peerSend | hostSend | hostClose | write =>
    have hstep := (client_step (L := L) rfl henabled).1
    generalize (tunnel L rt).next W _ = W' at hstep
    cases hstep <;> exact hsole

/-- **A step keeps the channel.** -/
theorem exclusive_next (hX : Exclusive r h vt c p n W) (hW : Coherent W) (hundone : Undone W)
    (henabled : W.Enabled e) (hn : n ≤ W.stamp) (hsits : Sits W.relay.relay r h c p)
    (hvt : ∀ vt' : ℕ, (W.link h).made[vt']? = some c → vt' = vt) (hhost : Honest h e)
    (hpeer : Honest p e) : Exclusive r h vt c p n ((tunnel L rt).next W e) := by
  have hgreeted : h ∈ W.relay.greeted ∧ (W.link h).isHost = true := by
    obtain ⟨room, hroom, rfl, -, -⟩ := hsits
    exact ⟨hW.reached.hostGreeted r room hroom, (hW.hosts r room hroom).isHost⟩
  refine ⟨tabled_next hX.tabled hundone henabled, sole_tunnel hX.sole hW hundone henabled hsits,
    upstream_next hX.fromPeer hundone henabled hn hpeer,
    upstream_next hX.fromHost hundone henabled hn hhost, ?_, ?_⟩
  · obtain ⟨hne, hmade⟩ | ⟨-, packet, hdown, hmade⟩ :=
      made_next (L := L) hgreeted.2 hgreeted.1 hundone henabled
    · obtain ⟨heq, -⟩ | ⟨later, hlater, hnew⟩ := down_next (L := L) hundone henabled h
      · exact absurd heq hne
      · rw [hmade, hlater]
        refine hX.toHost.append fun packet hmem isBinary payload hframe => ?_
        obtain ⟨socket, now, message, hmessage, hparcel, hsent⟩ := hnew packet hmem (by rw [hframe]; rfl)
        rw [hframe] at hsent
        obtain ⟨rfl, hpayload, hsender⟩ := source_of_toHost hW hX.sole hsits hmessage hsent
        rw [hparcel]
        exact hX.fromPeer.mark hmessage hpayload hsender
    · have hqueue := hX.toHost
      rw [hdown] at hqueue
      have hup : decide (c ∈ (W.link h).made ++ HostLink.announced [packet.frame]) =
          (decide (c ∈ (W.link h).made) || decide (packet.frame = .peerUp c)) := by
        cases packet.frame <;> simp [HostLink.announced, eq_comm]
      rw [hmade, hup]
      exact hqueue.2
  · intro packet hmem hcarries
    obtain ⟨-, first, hdown⟩ | ⟨later, hlater, hnew⟩ := down_next (L := L) hundone henabled p
    · refine hX.toPeer packet ?_ hcarries
      rw [hdown]
      exact List.mem_cons_of_mem _ hmem
    · rw [hlater] at hmem
      obtain hold | hmem := List.mem_append.mp hmem
      · exact hX.toPeer packet hold hcarries
      · obtain ⟨socket, now, message, hmessage, hparcel, hsent⟩ := hnew packet hmem hcarries
        obtain ⟨rfl, hpayload, hsender⟩ :=
          source_of_toPeer hW hX.sole hsits hvt hmessage hcarries hsent
        rw [hparcel]
        exact hX.fromHost.mark hmessage hpayload hsender

/-- What the transport delivers was given to the link of the peer. -/
theorem Exclusive.atHost (hX : Exclusive r h vt c p n W) (hundone : Undone W) (henabled : W.Enabled e)
    {delivery : Delivery} (hmem : delivery ∈ (tunnel L rt).out W e) {vt' : ℕ}
    (hendpoint : delivery.endpoint = .transport h vt') (hvt : (W.link h).made[vt']? = some c) :
    (ofSender (.peer p) n delivery.parcel).isSome = true := by
  obtain ⟨s, packet, rest, -, hdown, hmem⟩ := delivery_origin hundone henabled hmem
  rw [parcel_of_delivery hmem]
  obtain ⟨rfl, c', isBinary, payload, hframe, hget⟩ := onFrame_transport hmem hendpoint
  have hc : c' = c := Option.some.inj ((hX.tabled s c' vt' hget).symm.trans hvt)
  have hqueue := hX.toHost
  rw [hdown] at hqueue
  exact hqueue.1 (by simpa using List.mem_of_getElem? hvt) isBinary payload (hc ▸ hframe)

/-- What the link of the peer delivers was given to the transport. -/
theorem Exclusive.atPeer (hX : Exclusive r h vt c p n W) (hundone : Undone W) (henabled : W.Enabled e)
    {delivery : Delivery} (hmem : delivery ∈ (tunnel L rt).out W e)
    (hendpoint : delivery.endpoint = .peer p) :
    (ofSender (.transport h vt) n delivery.parcel).isSome = true := by
  obtain ⟨s, packet, rest, -, hdown, hmem⟩ := delivery_origin hundone henabled hmem
  rw [parcel_of_delivery hmem]
  obtain ⟨rfl, hcarries⟩ := onFrame_peer hmem hendpoint
  exact hX.toPeer packet (by rw [hdown]; exact List.mem_cons_self) hcarries

/-! ### From the HELLO of the peer on -/

/-- What the link of a host has put on its socket, over a run in which its client is honest. -/
theorem marked_exec {s : Socket} {es : List TunnelEvent} : ∀ {W : Tunnel rt}, Runs L W es →
    (∀ e ∈ es, Honest s e) → (∀ message ∈ W.up s, message.parcel = none → NoPayload message.data) →
      ∀ message ∈ ((tunnel L rt).exec W es).up s, message.parcel = none → NoPayload message.data := by
  induction es with
  | nil => exact fun _ _ hmarked => hmarked
  | cons e es ih =>
    intro W hruns hhonest hmarked
    obtain ⟨⟨henabled, hundone⟩, hrest⟩ := hruns
    exact ih hrest (fun e' he' => hhonest e' (List.mem_cons_of_mem _ he'))
      (marked_next hmarked hundone henabled (hhonest e List.mem_cons_self))

section Hello

variable {hello : Hello} {now : ℕ} {token : String}

/-- Whoever sits in a room right after its HELLO has the connId that came next. -/
theorem seat_of_hello (hs : Seated W.relay) (hnew : p ∉ W.relay.greeted)
    (hsits : Sits (onHello L now token p hello W.relay.relay).1 r h c p) :
    ∃ room, W.relay.relay.rooms.get r = some room ∧ room.host = h ∧ c = room.nextConnId := by
  obtain ⟨room', hroom', hhost, -, hpeer'⟩ := hsits
  have hold : ¬ Registered W.relay.relay r c p := fun hreg => hnew (hs.seat_greeted hreg)
  have hout := onHello_outcome L now token p hello W.relay.relay
  generalize onHello L now token p hello W.relay.relay = res at hout hroom'
  cases hout with
  | refused reason hrooms =>
    rw [hrooms] at hroom'
    exact absurd ⟨room', hroom', hpeer'⟩ hold
  | claimed hfresh hrole hroom hclaim hproto =>
    change (W.relay.relay.rooms.set _ _).get r = some room' at hroom'
    rw [InsertionMap.get_set] at hroom'
    split at hroom'
    · next hid =>
      cases hroom'
      rw [← hs.roomId _ _ hroom, ← hid] at hroom
      exact absurd ⟨_, hroom, hpeer'⟩ hold
    · exact absurd ⟨room', hroom', hpeer'⟩ hold
  | created hfresh hrole hroom hrooms =>
    rw [hrooms, InsertionMap.get_set] at hroom'
    split at hroom'
    · cases hroom'
      cases hpeer'
    · exact absurd ⟨room', hroom', hpeer'⟩ hold
  | joined hfresh hrole hroom hrooms =>
    rw [hrooms, InsertionMap.get_set] at hroom'
    split at hroom'
    · next hid =>
      cases hroom'
      rw [← hid] at hroom
      change (InsertionMap.set _ _ p).get c = some p at hpeer'
      rw [InsertionMap.get_set] at hpeer'
      split at hpeer'
      · next hc => exact ⟨_, hroom, hhost, hc⟩
      · exact absurd ⟨_, hroom, hpeer'⟩ hold
    · exact absurd ⟨room', hroom', hpeer'⟩ hold

/-- **The HELLO opens the channel.** -/
theorem exclusive_hello (hW : Coherent W) (htabled : Tabled W)
    (henabled : W.Enabled (.hello p hello now token))
    (hsits : Sits ((tunnel L rt).next W (.hello p hello now token)).relay.relay r h c p)
    (hsole : Sole ((tunnel L rt).next W (.hello p hello now token)).relay.relay r h c p)
    (hmarked : ∀ message ∈ W.up h, message.parcel = none → NoPayload message.data)
    (hvt : ∀ c', (W.link h).made[vt]? = some c' → c' = c) :
    Exclusive r h vt c p W.stamp ((tunnel L rt).next W (.hello p hello now token)) := by
  have hs := hW.reached.toSeated
  obtain ⟨room, hroom, hhost, hc⟩ := @seat_of_hello rt L W r h p c hello now token hs henabled.1 hsits
  have hknown := hW.hosts r room hroom
  have hgreeted := hs.hostGreeted r room hroom
  rw [hhost] at hknown hgreeted
  have hne : h ≠ p := fun heq => henabled.1 (heq ▸ hgreeted)
  have hquiet := hW.quiet p henabled.1
  -- a HELLO relays no payload
  have hnone : ∀ s, ∀ packet ∈ Tunnel.written rt none
      (sentTo s (react L W.relay.relay (.hello p hello now token)).2),
      carries packet.frame = false := by
    intro s packet hmem
    have hsent := mem_sentTo.mp (mem_written hmem).1
    refine Bool.eq_false_iff.mpr fun hcarries => ?_
    obtain ⟨_, _, _, heq⟩ := message_of_carries hcarries hsent
    cases heq
  have hdown : ∀ s, ((tunnel L rt).next W (.hello p hello now token)).down s =
      W.down s ++ Tunnel.written rt none
        (sentTo s (react L W.relay.relay (.hello p hello now token)).2) :=
    fun s => down_relays W (.hello p hello now token) none s
  have hunmade : c ∉ (W.link h).made := by
    intro hmem
    have hlt := hknown.made c hmem
    omega
  refine ⟨tabled_update htabled (tabled_opened hello.role), hsole, ⟨?_, ?_⟩, ⟨hmarked, ?_⟩, ?_, ?_⟩
  · intro message hmem
    change message ∈ W.up p at hmem
    rw [hquiet.1] at hmem
    cases hmem
  · intro message hmem
    change message ∈ W.up p at hmem
    rw [hquiet.1] at hmem
    cases hmem
  · intro message hmem P hP hsender
    have hwritten := (hW.ups h message hmem P hP).2
    unfold WrittenBy at hwritten
    rw [hsender] at hwritten
    obtain ⟨-, c', hmade, -⟩ := hwritten
    exact absurd (hvt c' hmade ▸ List.mem_of_getElem? hmade) hunmade
  · have hlink : ((tunnel L rt).next W (.hello p hello now token)).link h = W.link h :=
      Function.update_of_ne hne _ _
    rw [hlink, hdown, decide_eq_false hunmade]
    refine (reserved_unheard fun packet hmem hframe => ?_).append fun packet hmem _ _ hframe => ?_
    · have hlt := hknown.queued packet hmem c hframe
      omega
    · have hcarries := hnone h packet hmem
      rw [hframe] at hcarries
      cases hcarries
  · intro packet hmem hcarries
    rw [hdown, hquiet.2, List.nil_append] at hmem
    rw [hnone p packet hmem] at hcarries
    cases hcarries

end Hello

/-! ### Two queues -/

/-- What arrives at an endpoint. -/
def heardAt (endpoint : Endpoint) (out : List Delivery) : List (Bool × Bytes) :=
  (out.filter fun delivery => delivery.endpoint = endpoint).map Delivery.content

theorem heardAt_append (endpoint : Endpoint) (out out' : List Delivery) :
    heardAt endpoint (out ++ out') = heardAt endpoint out ++ heardAt endpoint out' := by
  simp [heardAt]

/-- The deliveries of a sender are those at an endpoint, if they arrive there and nothing else does. -/
theorem arrived_eq_heardAt {endpoint : Endpoint} {out : List Delivery}
    (hthere : ∀ delivery ∈ arrived S n out, delivery.endpoint = endpoint)
    (honly : ∀ delivery ∈ out, delivery.endpoint = endpoint →
      (ofSender S n delivery.parcel).isSome = true) :
    (arrived S n out).map Delivery.content = heardAt endpoint out := by
  unfold arrived heardAt
  congr 1
  refine List.filter_congr fun delivery hmem => ?_
  rw [Bool.eq_iff_iff, decide_eq_true_iff]
  exact ⟨fun hmark => hthere delivery (List.mem_filter.mpr ⟨hmem, hmark⟩), honly delivery hmem⟩

/-- Of the transports that the link of `h` has made, `vt` is the one for `c`. -/
def Named (W : Tunnel rt) (h : Socket) (vt c : ℕ) : Prop :=
  ∀ i a : ℕ, (W.link h).made[i]? = some a → (a = c ↔ i = vt)

/-- It was the one before. -/
theorem named_of_exec {es : List TunnelEvent} (hruns : Runs L W es) (hgreeted : h ∈ W.relay.greeted)
    (hnamed : Named ((tunnel L rt).exec W es) h vt c) : Named W h vt c :=
  fun i a hmade => hnamed i a (made_exec hruns hgreeted hmade)

/-- **The two endpoints and the queues between them.** -/
structure Paired (r : String) (h : Socket) (vt c : ℕ) (p : Socket) (n : ℕ) (W : Tunnel rt) : Prop where
  coherent : Coherent W
  exclusive : Exclusive r h vt c p n W
  now : Established W r h c p
  stamp : n ≤ W.stamp
  up : Carried (.peer p) n h (.dataToHost c) W
  down : Carried (.transport h vt) n p .dataToPeer W

/-- **The law of a queue** from `S` to `T`: what `S` is given is put in, and what arrives at `T` is taken
out. -/
def Queue (S T : Endpoint) (n : ℕ) (W : Tunnel rt) (sent : List (Bool × Bytes)) (out : List Delivery)
    (W' : Tunnel rt) : Prop :=
  (inTransit S n T.socket W).map Parcel.content ++ sent =
    heardAt T out ++ (inTransit S n T.socket W').map Parcel.content

theorem queue_of_flows {T : Endpoint} {form : Bool → Bytes → Frame} {goal : Endpoint → Prop}
    {sent : List (Bool × Bytes)} {out : List Delivery} {W' : Tunnel rt}
    (hflows : Flows S n T.socket form goal W sent out W')
    (hgoal : ∀ endpoint, goal endpoint → endpoint = T)
    (honly : ∀ delivery ∈ out, delivery.endpoint = T →
      (ofSender S n delivery.parcel).isSome = true) : Queue S T n W sent out W' := by
  refine hflows.law.trans (congrArg (· ++ _) (arrived_eq_heardAt (fun delivery hmem => ?_) honly))
  exact hgoal _ (hflows.goals delivery hmem)

theorem queue_nil {T : Endpoint} : Queue S T n W [] [] W := by
  unfold Queue
  rw [List.append_nil]
  rfl

/-- The law over one stretch of a run and the next. -/
theorem Queue.trans {T : Endpoint} {W' W'' : Tunnel rt} {sent sent' : List (Bool × Bytes)}
    {out out' : List Delivery} (hfirst : Queue S T n W sent out W')
    (hrest : Queue S T n W' sent' out' W'') : Queue S T n W (sent ++ sent') (out ++ out') W'' := by
  unfold Queue at hfirst hrest ⊢
  rw [← List.append_assoc, hfirst, List.append_assoc, hrest, heardAt_append, List.append_assoc]

theorem sends_cons (S : Endpoint) (e : TunnelEvent) (es : List TunnelEvent) :
    sends S (e :: es) = (given S e).toList ++ sends S es := by
  unfold sends
  cases hgiven : given S e with
  | none =>
    rw [List.filterMap_cons_none hgiven]
    rfl
  | some x =>
    rw [List.filterMap_cons_some hgiven]
    rfl

/-- **One step**, for the two queues. -/
theorem paired_next (hc : c < 2 ^ 32) (hP : Paired r h vt c p n W) (hundone : Undone W)
    (henabled : W.Enabled e) (hnext : Established ((tunnel L rt).next W e) r h c p)
    (hhost : Honest h e) (hpeer : Honest p e) (hnamed : Named W h vt c) :
    Paired r h vt c p n ((tunnel L rt).next W e) ∧
      Queue (.peer p) (.transport h vt) n W (given (.peer p) e).toList ((tunnel L rt).out W e)
        ((tunnel L rt).next W e) ∧
      Queue (.transport h vt) (.peer p) n W (given (.transport h vt) e).toList
        ((tunnel L rt).out W e) ((tunnel L rt).next W e) := by
  have hvt : ∀ vt' : ℕ, (W.link h).made[vt']? = some c → vt' = vt :=
    fun vt' hmade => (hnamed vt' c hmade).mp rfl
  have hmine : ∀ c', (W.link h).made[vt]? = some c' → c' = c :=
    fun c' hmade => (hnamed vt c' hmade).mpr rfl
  have hup := flow_next hP.coherent hundone hP.stamp hP.up henabled
    (passes_up hP.coherent hc hP.now henabled hnext)
  have hdown := flow_next hP.coherent hundone hP.stamp hP.down henabled
    (passes_down hP.coherent hc hP.now hmine henabled hnext)
  have hX := exclusive_next (L := L) hP.exclusive hP.coherent hundone henabled hP.stamp hP.now.room hvt
    hhost hpeer
  have hstamp := Nat.le_trans hP.stamp (keeps_next (L := L) hundone henabled).stamp
  refine ⟨⟨coherent_next hP.coherent hundone henabled, hX, hnext, hstamp, hup.carried, hdown.carried⟩,
    queue_of_flows (T := .transport h vt) hup ?_ fun delivery hmem hendpoint => ?_,
    queue_of_flows (T := .peer p) hdown (fun endpoint heq => heq) fun delivery hmem hendpoint =>
      hP.exclusive.atPeer hundone henabled hmem hendpoint⟩
  · intro endpoint hgoal
    obtain ⟨vt', heq, hmade⟩ := hgoal
    rw [heq, hvt vt' hmade]
  · -- the transport that delivers has been made for the peer
    obtain ⟨s, packet, rest, -, -, hout⟩ := delivery_origin hundone henabled hmem
    obtain ⟨rfl, c', -, -, -, hget⟩ := onFrame_transport hout hendpoint
    have hmade := hP.exclusive.tabled s c' vt hget
    exact hP.exclusive.atHost hundone henabled hmem hendpoint (hmine c' hmade ▸ hmade)

/-- **A run**, for the two queues. -/
theorem paired_exec (hc : c < 2 ^ 32) {es : List TunnelEvent} : ∀ {W : Tunnel rt},
    Paired r h vt c p n W → Runs L W es → (∀ e ∈ es, Honest h e ∧ Honest p e) →
    (tunnel L rt).Along (fun W e => Established ((tunnel L rt).next W e) r h c p) W es →
    Named ((tunnel L rt).exec W es) h vt c →
      Paired r h vt c p n ((tunnel L rt).exec W es) ∧
        Queue (.peer p) (.transport h vt) n W (sends (.peer p) es) ((tunnel L rt).trace W es)
          ((tunnel L rt).exec W es) ∧
        Queue (.transport h vt) (.peer p) n W (sends (.transport h vt) es)
          ((tunnel L rt).trace W es) ((tunnel L rt).exec W es) := by
  induction es with
  | nil =>
    intro W hP _ _ _ _
    exact ⟨hP, queue_nil, queue_nil⟩
  | cons e es ih =>
    intro W hP hruns hhonest hstays hnamed
    have hnow := named_of_exec hruns (hP.now.greeted hP.coherent) hnamed
    obtain ⟨⟨henabled, hundone⟩, hrest⟩ := hruns
    obtain ⟨hhost, hpeer⟩ := hhonest e List.mem_cons_self
    obtain ⟨hnext, hup, hdown⟩ := paired_next hc hP hundone henabled hstays.1 hhost hpeer hnow
    obtain ⟨hend, hupRest, hdownRest⟩ := ih hnext hrest
      (fun e' he' => hhonest e' (List.mem_cons_of_mem _ he')) hstays.2 hnamed
    rw [sends_cons, sends_cons]
    exact ⟨hend, hup.trans hupRest, hdown.trans hdownRest⟩

theorem tabled_exec {es : List TunnelEvent} (hruns : Runs L W es) (h : Tabled W) :
    Tabled ((tunnel L rt).exec W es) :=
  Machine.exec_invariant (fun _ _ h hG => tabled_next h hG.2 hG.1) hruns h

/-- Right after the HELLO, both queues are empty. -/
theorem paired_hello {hello : Hello} {now : ℕ} {token : String} (hW : Coherent W) (htabled : Tabled W)
    (hmarked : ∀ message ∈ W.up h, message.parcel = none → NoPayload message.data)
    (hundone : Undone W) (henabled : W.Enabled (.hello p hello now token))
    (hnow : Established ((tunnel L rt).next W (.hello p hello now token)) r h c p)
    (hsole : Sole ((tunnel L rt).next W (.hello p hello now token)).relay.relay r h c p)
    (hnamed : Named ((tunnel L rt).next W (.hello p hello now token)) h vt c) :
    Paired r h vt c p W.stamp ((tunnel L rt).next W (.hello p hello now token)) := by
  have hfirst := coherent_next (L := L) hW hundone henabled
  have hmine : ∀ c', (W.link h).made[vt]? = some c' → c' = c := by
    intro c' hmade
    obtain ⟨room, hroom, hhost, -⟩ :=
      @seat_of_hello rt L W r h p c hello now token hW.reached.toSeated henabled.1 hnow.room
    have hold : h ∈ W.relay.greeted := hhost ▸ hW.reached.hostGreeted r room hroom
    exact (hnamed vt c' ((keeps_next (L := L) hundone henabled).made h hold vt c' hmade)).mpr rfl
  exact ⟨hfirst, exclusive_hello hW htabled henabled hnow.room hsole hmarked hmine, hnow,
    Nat.le_refl _, (fresh_stamp hfirst).2, (fresh_stamp hfirst).2⟩

/-- The transport that has been made for the peer by the end of a run is the one for it. -/
theorem named_of_made (hW : Coherent W) (hnow : Established W r h c p)
    (hvt : (W.link h).made[vt]? = some c) : Named W h vt c := by
  obtain ⟨room, hroom, rfl, -, hseat⟩ := hnow.room
  intro i a hmade
  constructor
  · intro ha
    rw [ha] at hmade
    exact (hW.linked r room c p hroom hseat).unique i vt hmade hvt
  · intro hi
    rw [hi] at hmade
    exact Option.some.inj (hmade.symm.trans hvt)

/-- **The two endpoints have the channel to themselves**, from the HELLO of the peer on and as long as it
keeps its seat: what either is given to send is what arrives at the other, all that arrives there, and then
what is on its way. -/
theorem channel_exclusive (L : RelayLimits) (rt : JsonRuntime) (hc : c < 2 ^ 32)
    {pre es : List TunnelEvent} {hello : Hello} {now : ℕ} {token : String}
    (hvalid : (tunnel L rt).Valid Tunnel.init (pre ++ .hello p hello now token :: es))
    (hjson : (tunnel L rt).Along (fun W _ => Undone W) Tunnel.init
      (pre ++ .hello p hello now token :: es))
    (hhonest : ∀ e ∈ pre ++ es, Honest h e ∧ Honest p e)
    (hnow : Established ((tunnel L rt).exec Tunnel.init (pre ++ [.hello p hello now token])) r h c p)
    (hsole : Sole ((tunnel L rt).exec Tunnel.init
      (pre ++ [.hello p hello now token])).relay.relay r h c p)
    (hstays : (tunnel L rt).Along (fun W e => Established ((tunnel L rt).next W e) r h c p)
      ((tunnel L rt).exec Tunnel.init (pre ++ [.hello p hello now token])) es)
    (hvt : (((tunnel L rt).exec Tunnel.init (pre ++ .hello p hello now token :: es)).link h).made[vt]? =
      some c) :
    let W := (tunnel L rt).exec Tunnel.init (pre ++ [.hello p hello now token])
    let W' := (tunnel L rt).exec W es
    sends (.peer p) es = heardAt (.transport h vt) ((tunnel L rt).trace W es) ++
        (inTransit (.peer p) W.stamp h W').map Parcel.content ∧
      sends (.transport h vt) es = heardAt (.peer p) ((tunnel L rt).trace W es) ++
        (inTransit (.transport h vt) W.stamp p W').map Parcel.content := by
  have hruns : Runs L Tunnel.init (pre ++ .hello p hello now token :: es) :=
    Machine.along_and.mpr ⟨hvalid, hjson⟩
  obtain ⟨hbefore, ⟨henabled, hundone⟩, hduring⟩ := (Machine.along_append _ _ _ _ _).mp hruns
  have hmarked := marked_exec hbefore (s := h)
    (fun e he => (hhonest e (List.mem_append_left _ he)).1)
    fun message hmem => absurd hmem List.not_mem_nil
  have hW := Runs.coherent hbefore coherent_init
  have hfirst := coherent_next (L := L) hW hundone henabled
  intro W W'
  have hWeq : W = (tunnel L rt).next ((tunnel L rt).exec Tunnel.init pre) (.hello p hello now token) :=
    Machine.exec_append ..
  rw [Machine.exec_append] at hvt
  change Established W r h c p at hnow
  change Sole W.relay.relay r h c p at hsole
  change (tunnel L rt).Along _ W es at hstays
  rw [← hWeq] at hduring hfirst
  have hend : (W'.link h).made[vt]? = some c := by
    show (((tunnel L rt).exec W es).link h).made[vt]? = some c
    rw [hWeq]
    exact hvt
  have hnamed := named_of_made (Runs.coherent hduring hfirst) (established_exec hnow hstays) hend
  have hopen : Paired r h vt c p W.stamp W := by
    have hthen := named_of_exec hduring (hnow.greeted hfirst) hnamed
    rw [hWeq] at hnow hsole hthen ⊢
    exact paired_hello hW (tabled_exec hbefore tabled_init) hmarked hundone henabled hnow hsole hthen
  obtain ⟨-, hup, hdown⟩ := paired_exec hc hopen hduring
    (fun e he => hhonest e (List.mem_append_right _ he)) hstays hnamed
  have hempty : ∀ S d, inTransit S W.stamp d W = [] := by
    intro S d
    have hfresh : inTransit S W.stamp d W = [] ∧ Carried S W.stamp d .dataToPeer W := fresh_stamp hfirst
    exact hfresh.1
  unfold Queue at hup hdown
  rw [hempty] at hup hdown
  exact ⟨hup, hdown⟩

def pairHostHello : TunnelEvent :=
  .hello pairHost ⟨.host, "65727231", "1.0.0", relayProtocolVersion, none⟩ 0 "ab"

def pairPeerHello : TunnelEvent :=
  .hello pairPeer ⟨.peer, "65727231", "1.0.0", relayProtocolVersion, none⟩ 0 ""

/-- Right after the HELLO of the peer. -/
def pairOpened : Tunnel pairRuntime :=
  (tunnel Relay.defaultLimits pairRuntime).exec Tunnel.init ([pairHostHello] ++ [pairPeerHello])

/-- The host pings the relay while the peer and it write to each other. -/
def pairPings : List TunnelEvent :=
  [.write pairHost [T.ping], .receive pairHost, .receive pairHost, .peerSend pairPeer true [T.handoff],
    .hostSend pairHost 0 false [0x68, 0x69], .read pairHost 1, .read pairPeer 1, .read pairHost 1,
    .receive pairHost, .receive pairHost, .receive pairPeer, .receive pairPeer,
    .peerSend pairPeer true []]

theorem channel_exclusive_pair :
    (sends (.peer pairPeer) pairPings =
        heardAt (.transport pairHost 0)
          ((tunnel Relay.defaultLimits pairRuntime).trace pairOpened pairPings) ++
        (inTransit (.peer pairPeer) pairOpened.stamp pairHost
          ((tunnel Relay.defaultLimits pairRuntime).exec pairOpened pairPings)).map Parcel.content ∧
      sends (.transport pairHost 0) pairPings =
        heardAt (.peer pairPeer)
          ((tunnel Relay.defaultLimits pairRuntime).trace pairOpened pairPings) ++
        (inTransit (.transport pairHost 0) pairOpened.stamp pairPeer
          ((tunnel Relay.defaultLimits pairRuntime).exec pairOpened pairPings)).map Parcel.content) ∧
    sends (.peer pairPeer) pairPings = [(true, [T.handoff]), (true, [])] ∧
    heardAt (.transport pairHost 0)
        ((tunnel Relay.defaultLimits pairRuntime).trace pairOpened pairPings) =
      [(true, [T.handoff])] := by
  have hvalid : (tunnel Relay.defaultLimits pairRuntime).Valid Tunnel.init
      ([pairHostHello] ++ pairPeerHello :: pairPings) := by
    decide +kernel
  have hjson := along_undone undoes_pairFrame coherent_init hvalid (by decide +kernel)
  have hnow : Established pairOpened "65727231" pairHost 1 pairPeer :=
    ⟨⟨_, rfl, rfl, rfl, rfl⟩, rfl, fun _ _ => List.not_mem_nil⟩
  have hstays : (tunnel Relay.defaultLimits pairRuntime).Along (fun W e => Established
      ((tunnel Relay.defaultLimits pairRuntime).next W e) "65727231" pairHost 1 pairPeer)
      pairOpened pairPings := by
    refine ⟨?_, ?_, ?_, ?_, ?_, ?_, ?_, ?_, ?_, ?_, ?_, ?_, ?_, trivial⟩ <;>
      exact ⟨⟨_, rfl, rfl, rfl, rfl⟩, rfl, fun _ _ => List.not_mem_nil⟩
  have hsole : Sole pairOpened.relay.relay "65727231" pairHost 1 pairPeer := by
    have hentries : pairOpened.relay.relay.attached.entries =
        [(pairHost, ⟨.host, "65727231", none⟩), (pairPeer, ⟨.peer, "65727231", some 1⟩)] := by
      decide +kernel
    have hpair : ∀ s att, pairOpened.relay.relay.attached.get s = some att →
        (s, att) = (pairHost, ⟨.host, "65727231", none⟩) ∨
          (s, att) = (pairPeer, ⟨.peer, "65727231", some 1⟩) := by
      intro s att hatt
      have hmem := (InsertionMap.mem_entries _ _ _).mpr hatt
      rw [hentries] at hmem
      exact List.mem_pair.mp hmem
    constructor
    · intro s att hatt hrole _
      obtain heq | heq := hpair s att hatt
      · exact congrArg Prod.fst heq
      · cases heq
        cases hrole
    · intro s hatt
      obtain heq | heq := hpair s _ hatt
      · cases heq
      · exact congrArg Prod.fst heq
  exact ⟨channel_exclusive Relay.defaultLimits pairRuntime (by decide) hvalid hjson (by decide +kernel)
    hnow hsole hstays (by decide +kernel), by decide +kernel, by decide +kernel⟩

end ScreenSharing.Net
