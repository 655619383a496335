import ScreenSharing.Net.Coherence

/-!
# The relay is transparent

While a room has its host and no handoff is pending, and a peer is registered in it under `c`, what the
peer's link is given to send arrives at the virtual transport for `c`, and the other way round:
unchanged, in order, once, and nowhere else (`relay_transparent`).

A payload on its way is in one of two queues, that of its sender or that of its addressee.
`flow_next` says that a step neither loses nor doubles one nor lets it overtake another; what it asks
of the step is proved for the two directions in turn.
-/

namespace ScreenSharing.Net

open Lib hiding Bytes readUInt32BE
open Relay hiding readUInt32BE

variable {rt : JsonRuntime} {L : RelayLimits} {W : Tunnel rt} {S : Endpoint} {n : ℕ} {d : Socket}
  {form : Bool → Bytes → Frame} {goal : Endpoint → Prop} {r : String} {h p : Socket} {c : ℕ}

/-! ### Payloads on their way -/

/-- The mark, if it is of a payload that `S` was given at call `n` or later. -/
def ofSender (S : Endpoint) (n : ℕ) (parcel : Option Parcel) : Option Parcel :=
  parcel.filter fun P => P.sender = S ∧ n ≤ P.number

/-- The payloads that `S` is given to send, in order. -/
def sends (S : Endpoint) (es : List TunnelEvent) : List (Bool × Bytes) := es.filterMap (given S)

/-- The deliveries of payloads that `S` was given at call `n` or later, wherever they arrive. -/
def arrived (S : Endpoint) (n : ℕ) (out : List Delivery) : List Delivery :=
  out.filter fun delivery => (ofSender S n delivery.parcel).isSome

def Delivery.content (delivery : Delivery) : Bool × Bytes := (delivery.isBinary, delivery.payload)

def Parcel.content (P : Parcel) : Bool × Bytes := (P.isBinary, P.payload)

/-- Those of `S` on their way to the relay, and from the relay to `d`. -/
def upward (S : Endpoint) (n : ℕ) (W : Tunnel rt) : List Parcel :=
  (W.up S.socket).filterMap fun message => ofSender S n message.parcel

def downward (S : Endpoint) (n : ℕ) (d : Socket) (W : Tunnel rt) : List Parcel :=
  (W.down d).filterMap fun packet => ofSender S n packet.parcel

def inTransit (S : Endpoint) (n : ℕ) (d : Socket) (W : Tunnel rt) : List Parcel :=
  downward S n d W ++ upward S n W

/-- From the relay they are on their way to `d` only, in frames of one form. -/
def Carried (S : Endpoint) (n : ℕ) (d : Socket) (form : Bool → Bytes → Frame) (W : Tunnel rt) : Prop :=
  ∀ s, ∀ packet ∈ W.down s, ∀ P, ofSender S n packet.parcel = some P →
    s = d ∧ packet.frame = form P.isBinary P.payload

@[simp] theorem ofSender_none : ofSender S n none = none := rfl

theorem ofSender_eq_some {parcel : Option Parcel} {P : Parcel} :
    ofSender S n parcel = some P ↔ parcel = some P ∧ P.sender = S ∧ n ≤ P.number := by
  simp [ofSender, Option.filter_eq_some_iff]

/-- Every endpoint writes to its own socket. -/
theorem socket_of_written {link : ClientLink} {s : Socket} {data : Bytes} {P : Parcel}
    (hwritten : WrittenBy link s data P) : s = P.sender.socket := by
  unfold WrittenBy at hwritten
  cases hsender : P.sender with
  | peer q =>
    rw [hsender] at hwritten
    exact hwritten.1.symm
  | transport host vt =>
    rw [hsender] at hwritten
    exact hwritten.1.symm

theorem socket_of_up (hW : Coherent W) {s : Socket} {message : Upward} (hmem : message ∈ W.up s)
    {P : Parcel} (hP : ofSender S n message.parcel = some P) : s = S.socket := by
  obtain ⟨hparcel, rfl, -⟩ := ofSender_eq_some.mp hP
  exact socket_of_written (hW.ups s message hmem P hparcel).2

/-! ### What the operations do to them -/

theorem upward_post {s : Socket} {data : Bytes} {parcel : Option Parcel} {stamp : ℕ}
    (hnot : ofSender S n parcel = none) :
    upward S n { W.post s data parcel with stamp := stamp } = upward S n W := by
  show (Function.update W.up s _ S.socket).filterMap _ = _
  by_cases hs : S.socket = s
  · rw [hs, Function.update_self, List.filterMap_append, ← hs]
    simp [upward, hnot]
  · rw [Function.update_of_ne hs]
    rfl

theorem upward_postParcel {data : Bytes} {isBinary : Bool} {payload : Bytes} (hn : n ≤ W.stamp) :
    upward S n (W.postParcel S S.socket data isBinary payload) =
      upward S n W ++ [⟨S, W.stamp, isBinary, payload⟩] := by
  show (Function.update W.up S.socket _ S.socket).filterMap _ = _
  have hmine : ofSender S n (some ⟨S, W.stamp, isBinary, payload⟩) =
      some ⟨S, W.stamp, isBinary, payload⟩ := ofSender_eq_some.mpr ⟨rfl, rfl, hn⟩
  rw [Function.update_self, List.filterMap_append]
  simp [upward, hmine]

theorem upward_postParcel_other {S' : Endpoint} (hS : S ≠ S') (s : Socket) (data : Bytes)
    (isBinary : Bool) (payload : Bytes) :
    upward S n (W.postParcel S' s data isBinary payload) = upward S n W := by
  refine upward_post (Option.eq_none_iff_forall_ne_some.mpr fun P hP => hS ?_)
  obtain ⟨heq, hsender, -⟩ := ofSender_eq_some.mp hP
  cases heq
  exact hsender.symm

theorem written_none {parcel : Option Parcel} (hnot : ofSender S n parcel = none)
    (frames : List Frame) :
    (Tunnel.written rt parcel frames).filterMap (fun packet => ofSender S n packet.parcel) = [] := by
  rw [List.filterMap_eq_nil_iff]
  intro packet hmem
  rw [(mem_written hmem).2]
  exact hnot

theorem downward_relays {e : Relay.Event} {parcel : Option Parcel}
    (hnot : ofSender S n parcel = none) :
    downward S n d (W.relays L e parcel) = downward S n d W := by
  unfold downward
  rw [down_relays, List.filterMap_append, written_none hnot, List.append_nil]

theorem carried_relays (hcarried : Carried S n d form W) {e : Relay.Event} {parcel : Option Parcel}
    (hnot : ofSender S n parcel = none) : Carried S n d form (W.relays L e parcel) := by
  intro s packet hmem P hP
  obtain hold | ⟨-, hparcel⟩ := mem_down_relays hmem
  · exact hcarried s packet hold P hP
  · rw [hparcel, hnot] at hP
    cases hP

theorem upward_pop {s : Socket} {message : Upward} {rest : List Upward}
    (hup : W.up s = message :: rest)
    (hnot : s = S.socket → ofSender S n message.parcel = none) :
    upward S n (W.pop s rest) = upward S n W := by
  show (Function.update W.up s rest S.socket).filterMap _ = _
  by_cases hs : S.socket = s
  · rw [hs, Function.update_self]
    simp [upward, hs, hup, hnot hs.symm]
  · rw [Function.update_of_ne hs]
    rfl

theorem upward_pop_self {message : Upward} {rest : List Upward} {P : Parcel}
    (hup : W.up S.socket = message :: rest) (hP : ofSender S n message.parcel = some P) :
    upward S n W = P :: upward S n (W.pop S.socket rest) := by
  have hrest : upward S n (W.pop S.socket rest) =
      rest.filterMap fun message => ofSender S n message.parcel := by
    show (Function.update W.up S.socket rest S.socket).filterMap _ = _
    rw [Function.update_self]
  rw [hrest]
  simp [upward, hup, hP]

/-- A delivery carries the mark of its packet. -/
theorem parcel_of_delivery {link : ClientLink} {s : Socket} {parcel : Option Parcel} {frame : Frame}
    {delivery : Delivery} (hmem : delivery ∈ (link.onFrame s parcel frame).2) :
    delivery.parcel = parcel := by
  cases link with
  | unopened => cases hmem
  | host link shut =>
    obtain ⟨callback, -, heq⟩ := List.mem_filterMap.mp hmem
    split at heq
    · cases heq
      rfl
    · cases heq
  | peer link =>
    obtain ⟨callback, -, heq⟩ := List.mem_filterMap.mp hmem
    split at heq
    · cases heq
      rfl
    · cases heq

theorem arrived_none {link : ClientLink} {s : Socket} {parcel : Option Parcel} {frame : Frame}
    (hnot : ofSender S n parcel = none) : arrived S n (link.onFrame s parcel frame).2 = [] := by
  unfold arrived
  rw [List.filter_eq_nil_iff]
  intro delivery hmem
  rw [parcel_of_delivery hmem, hnot]
  simp

/-! ### One step -/

/-- What is asked of a step for payloads of `S` on their way to `d`. -/
structure Passes (L : RelayLimits) (S : Endpoint) (n : ℕ) (d : Socket)
    (form : Bool → Bytes → Frame) (goal : Endpoint → Prop) (W : Tunnel rt) (e : TunnelEvent) :
    Prop where
  /-- what is given to `send` is written -/
  sent : ∀ isBinary payload, given S e = some (isBinary, payload) →
    ∃ data, (tunnel L rt).step W e = (W.postParcel S S.socket data isBinary payload, [])
  /-- the relay passes it on to `d`, and does nothing else -/
  relayed : ∀ now message rest P, e = .read S.socket now → W.up S.socket = message :: rest →
    ofSender S n message.parcel = some P → ¬ message.data.length > maxPayload ∧
      (∃ data, Wire.encode rt (form P.isBinary P.payload) = .ok data) ∧
      (Relay.onMessage now S.socket message.data W.relay.relay).2 =
        [.send d (form P.isBinary P.payload)]
  /-- the link at `d` delivers it -/
  received : ∀ packet rest P, e = .receive d → W.down d = packet :: rest →
    ofSender S n packet.parcel = some P → packet.frame = form P.isBinary P.payload →
      ∃ endpoint, goal endpoint ∧ ((W.link d).onFrame d packet.parcel packet.frame).2 =
        [⟨endpoint, P.isBinary, P.payload, packet.parcel⟩]

/-- The flow over one step: what was on its way and is given now has arrived or is on its way. -/
structure Flows (S : Endpoint) (n : ℕ) (d : Socket) (form : Bool → Bytes → Frame)
    (goal : Endpoint → Prop) (W : Tunnel rt) (sent : List (Bool × Bytes)) (out : List Delivery)
    (W' : Tunnel rt) : Prop where
  law : (inTransit S n d W).map Parcel.content ++ sent =
    (arrived S n out).map Delivery.content ++ (inTransit S n d W').map Parcel.content
  goals : ∀ delivery ∈ arrived S n out, goal delivery.endpoint
  carried : Carried S n d form W'

/-- Nothing of `S` moves. -/
theorem flows_still {W' : Tunnel rt} {out : List Delivery} (hup : upward S n W' = upward S n W)
    (hdown : downward S n d W' = downward S n d W) (hout : arrived S n out = [])
    (hcarried : Carried S n d form W') : Flows S n d form goal W [] out W' := by
  refine ⟨?_, ?_, hcarried⟩
  · simp [inTransit, hup, hdown, hout]
  · rw [hout]
    intro delivery hmem
    cases hmem

theorem flows_relays {e : Relay.Event} {parcel : Option Parcel} (hcarried : Carried S n d form W)
    (hnot : ofSender S n parcel = none) : Flows S n d form goal W [] [] (W.relays L e parcel) :=
  flows_still rfl (downward_relays hnot) rfl (carried_relays hcarried hnot)

/-- A message of `S` is passed on. -/
theorem flows_relayed {now : ℕ} {message : Upward} {rest : List Upward} {P : Parcel}
    (hcarried : Carried S n d form W) (hup : W.up S.socket = message :: rest)
    (hP : ofSender S n message.parcel = some P) {data : Bytes}
    (hencode : Wire.encode rt (form P.isBinary P.payload) = .ok data)
    (hsends : (Relay.onMessage now S.socket message.data W.relay.relay).2 =
      [.send d (form P.isBinary P.payload)]) :
    Flows S n d form goal W [] []
      ((W.pop S.socket rest).relays L (.message S.socket message.data now) message.parcel) := by
  have hdown : ∀ s, ((W.pop S.socket rest).relays L (.message S.socket message.data now)
      message.parcel).down s = W.down s ++ Tunnel.written rt message.parcel
        (sentTo s [.send d (form P.isBinary P.payload)]) := by
    intro s
    rw [down_relays, ← hsends]
    rfl
  have hself : ((W.pop S.socket rest).relays L (.message S.socket message.data now)
      message.parcel).down d = W.down d ++
        [⟨form P.isBinary P.payload, data, hencode, message.parcel⟩] := by
    rw [hdown, sentTo_cons_send, if_pos rfl]
    exact congrArg _ (written_single hencode)
  have hother : ∀ s, s ≠ d → ((W.pop S.socket rest).relays L
      (.message S.socket message.data now) message.parcel).down s = W.down s := by
    intro s hs
    rw [hdown, sentTo_cons_send, if_neg (Ne.symm hs)]
    exact List.append_nil _
  refine ⟨?_, fun delivery hmem => (List.not_mem_nil hmem).elim, fun s packet hmem Q hQ => ?_⟩
  · have hdownward : downward S n d ((W.pop S.socket rest).relays L
        (.message S.socket message.data now) message.parcel) = downward S n d W ++ [P] := by
      unfold downward
      rw [hself, List.filterMap_append]
      simp [hP]
    have hupward : upward S n ((W.pop S.socket rest).relays L
        (.message S.socket message.data now) message.parcel) = upward S n (W.pop S.socket rest) := rfl
    simp [inTransit, hdownward, hupward, upward_pop_self hup hP, arrived]
  · by_cases hs : s = d
    · refine ⟨hs, ?_⟩
      rw [hs, hself] at hmem
      obtain hold | hnew := List.mem_append.mp hmem
      · exact (hcarried d packet hold Q hQ).2
      · cases List.mem_singleton.mp hnew
        rw [hP] at hQ
        cases hQ
        rfl
    · rw [hother s hs] at hmem
      exact hcarried s packet hmem Q hQ

/-- The relay reads. -/
theorem flows_read {s : Socket} {now : ℕ} (hW : Coherent W) (hcarried : Carried S n d form W)
    (hpasses : Passes L S n d form goal W (.read s now)) (hne : W.up s ≠ []) :
    Flows S n d form goal W [] [] (W.readNext L s now) := by
  obtain ⟨message, rest, hup⟩ := List.exists_cons_of_ne_nil hne
  have hmem : message ∈ W.up s := by
    rw [hup]
    exact List.mem_cons_self
  cases hP : ofSender S n message.parcel with
  | none =>
    have hpop : upward S n (W.pop s rest) = upward S n W := upward_pop hup fun _ => hP
    have hcarried' : Carried S n d form (W.pop s rest) := hcarried
    rw [readNext_eq now hup]
    split
    · exact flows_still hpop (downward_relays rfl) rfl (carried_relays hcarried' rfl)
    · exact flows_still hpop (downward_relays hP) rfl (carried_relays hcarried' hP)
  | some P =>
    have hs := socket_of_up hW hmem hP
    subst hs
    obtain ⟨hshort, ⟨data, hencode⟩, hsends⟩ := hpasses.relayed now message rest P rfl hup hP
    rw [readNext_eq now hup, if_neg hshort]
    exact flows_relayed hcarried hup hP hencode hsends

/-- A link receives. -/
theorem flows_receive {s : Socket} (hundone : Undone W) (hcarried : Carried S n d form W)
    (hpasses : Passes L S n d form goal W (.receive s)) :
    Flows S n d form goal W [] (W.receiveNext s).2 (W.receiveNext s).1 := by
  cases hdown : W.down s with
  | nil =>
    have hnext : W.receiveNext s = (W, []) := by
      unfold Tunnel.receiveNext
      rw [hdown]
    rw [hnext]
    exact flows_still rfl rfl rfl hcarried
  | cons packet rest =>
    rw [receiveNext_eq hundone hdown]
    have hcarried' : ∀ W' : Tunnel rt, W'.down = Function.update W.down s rest →
        Carried S n d form W' := by
      intro W' hW' s' packet' hmem P hP
      rw [hW'] at hmem
      refine hcarried s' packet' ?_ P hP
      by_cases hs' : s' = s
      · rw [hs', Function.update_self] at hmem
        rw [hs', hdown]
        exact List.mem_cons_of_mem _ hmem
      · rw [Function.update_of_ne hs'] at hmem
        exact hmem
    cases hP : ofSender S n packet.parcel with
    | none =>
      refine flows_still rfl ?_ (arrived_none hP) (hcarried' _ rfl)
      show (Function.update W.down s rest d).filterMap _ = _
      by_cases hs : d = s
      · rw [hs, Function.update_self]
        simp [downward, hdown, hP]
      · rw [Function.update_of_ne hs]
        rfl
    | some P =>
      obtain ⟨hs, hframe⟩ := hcarried s packet (by rw [hdown]; exact List.mem_cons_self) P hP
      subst hs
      obtain ⟨endpoint, hgoal, hdeliver⟩ := hpasses.received packet rest P rfl hdown hP hframe
      dsimp only
      rw [hdeliver]
      have harrived : arrived S n [⟨endpoint, P.isBinary, P.payload, packet.parcel⟩] =
          [⟨endpoint, P.isBinary, P.payload, packet.parcel⟩] := by
        simp [arrived, hP]
      refine ⟨?_, ?_, hcarried' _ rfl⟩
      · rw [harrived]
        simp [inTransit, downward, upward, hdown, hP, Parcel.content, Delivery.content]
      · rw [harrived]
        intro delivery hmem
        rw [List.mem_singleton.mp hmem]
        exact hgoal

/-- A client does something by itself. -/
theorem flows_client (hcarried : Carried S n d form W) {e : TunnelEvent}
    (hsent : ∀ {isBinary payload}, given S e = some (isBinary, payload) →
      Flows S n d form goal W [(isBinary, payload)] ((tunnel L rt).out W e)
        ((tunnel L rt).next W e))
    (hstep : ClientStep W e ((tunnel L rt).next W e)) (hout : (tunnel L rt).out W e = []) :
    Flows S n d form goal W (given S e).toList ((tunnel L rt).out W e)
      ((tunnel L rt).next W e) := by
  cases hgiven : given S e with
  | some x => exact hsent hgiven
  | none =>
    rw [hout]
    generalize (tunnel L rt).next W e = W' at hstep
    cases hstep with
    | still => exact flows_still rfl rfl rfl hcarried
    | sent hgiven' =>
      refine flows_still (upward_postParcel_other ?_ ..) rfl rfl hcarried
      intro heq
      rw [← heq, hgiven] at hgiven'
      cases hgiven'
    | wrote | closed =>
      exact flows_still (@upward_post _ _ _ _ _ _ none W.stamp rfl) rfl rfl hcarried
    | relinked => exact flows_still rfl rfl rfl hcarried

/-- **One step of the flow.** -/
theorem flow_next (hW : Coherent W) (hundone : Undone W) (hn : n ≤ W.stamp)
    (hcarried : Carried S n d form W) {e : TunnelEvent} (henabled : W.Enabled e)
    (hpasses : Passes L S n d form goal W e) :
    Flows S n d form goal W (given S e).toList ((tunnel L rt).out W e)
      ((tunnel L rt).next W e) := by
  have hsent : ∀ {isBinary : Bool} {payload : Bytes}, given S e = some (isBinary, payload) →
      Flows S n d form goal W [(isBinary, payload)] ((tunnel L rt).out W e)
        ((tunnel L rt).next W e) := by
    intro isBinary payload hgiven
    obtain ⟨data, hstep⟩ := hpasses.sent isBinary payload hgiven
    have hout : (tunnel L rt).out W e = [] := congrArg Prod.snd hstep
    have hnext : (tunnel L rt).next W e = W.postParcel S S.socket data isBinary payload :=
      congrArg Prod.fst hstep
    rw [hout, hnext]
    refine ⟨?_, fun delivery hmem => (List.not_mem_nil hmem).elim, hcarried⟩
    have hdownward : downward S n d (W.postParcel S S.socket data isBinary payload) =
        downward S n d W := rfl
    simp [inTransit, upward_postParcel hn, hdownward, arrived, Parcel.content]
  have hrelays : ∀ e', Flows S n d form goal W [] [] (W.relays L e' none) :=
    fun e' => flows_relays hcarried rfl
  cases e with
  | hello socket hello now token =>
    have hflows := hrelays (.hello socket hello now token)
    exact ⟨hflows.law, hflows.goals, hflows.carried⟩
  | read socket now => exact flows_read hW hcarried hpasses henabled.1
  | close socket => exact hrelays (.close socket)
  | sweep now => exact hrelays (.sweep now)
  | receive socket => exact flows_receive hundone hcarried hpasses
  | listen | peerSend | hostSend | hostClose | write =>
    obtain ⟨hstep, hout⟩ := client_step (L := L) rfl henabled
    exact flows_client hcarried hsent hstep hout

/-! ### The two directions -/

/-- The room has its host and no handoff is pending, the peer is registered under `c`, and neither its
link nor the transport for it is closed. -/
structure Established (W : Tunnel rt) (r : String) (h : Socket) (c : ℕ) (p : Socket) : Prop where
  room : ∃ room, W.relay.relay.rooms.get r = some room ∧ room.host = h ∧
    room.handoffDeadline = none ∧ room.peers.get c = some p
  peer : (W.link p).isOpenPeer = true
  host : ∀ vt : ℕ, (W.link h).made[vt]? = some c → vt ∉ (W.link h).shut

section Directions

variable {e : TunnelEvent}

/-- A message that is too long costs its sender the seat, or the room. -/
theorem closed_of_long {s : Socket} {now : ℕ} {message : Upward} {rest : List Upward}
    (hup : W.up s = message :: rest) (hlong : message.data.length > maxPayload) :
    ((tunnel L rt).next W (.read s now)).relay.relay = (onClose s W.relay.relay).1 := by
  show (W.readNext L s now).relay.relay = _
  rw [readNext_eq now hup, if_pos hlong, relay_relays, next_relay]
  rfl

/-- **From a peer to the transport of the host.** -/
theorem passes_up (hW : Coherent W) (hc : c < 2 ^ 32) (hnow : Established W r h c p)
    (henabled : W.Enabled e) (hnext : Established ((tunnel L rt).next W e) r h c p) :
    Passes L (.peer p) n h (.dataToHost c)
      (fun endpoint => ∃ vt, endpoint = .transport h vt ∧ (W.link h).made[vt]? = some c) W e := by
  obtain ⟨room, hroom, rfl, hopen, hpeer⟩ := hnow.room
  have hs := hW.reached.toSeated
  refine ⟨fun isBinary payload hgiven => ?_, fun now message rest P heq hup hP => ?_,
    fun packet rest P heq hdown hP hframe => ?_⟩
  · have he : e = .peerSend p isBinary payload := by
      cases e with
      | peerSend socket isBinary' payload' =>
        simp only [given] at hgiven
        split at hgiven
        · next hS =>
          cases hS
          cases hgiven
          rfl
        · cases hgiven
      | hostSend socket vt isBinary' payload' => simp [given] at hgiven
      | _ => cases hgiven
    subst he
    have hlink := hnow.peer
    refine ⟨encodeDataP isBinary payload, ?_⟩
    show (W.peerSend p isBinary payload, []) = _
    cases hl : W.link p with
    | peer link =>
      rw [hl] at hlink
      have hclosed : link.closed = false := by simpa [ClientLink.isOpenPeer] using hlink
      unfold Tunnel.peerSend
      rw [hl]
      simp only [hclosed]
      rfl
    | _ =>
      rw [hl] at hlink
      cases hlink
  · subst heq
    obtain ⟨hparcel, hsender, -⟩ := ofSender_eq_some.mp hP
    have hhead : W.up p = message :: rest := hup
    have hmem : message ∈ W.up p := by
      rw [hhead]
      exact List.mem_cons_self
    have hwritten := (hW.ups p message hmem P hparcel).2
    unfold WrittenBy at hwritten
    rw [hsender] at hwritten
    have hatt := hs.seat r c p ⟨room, hroom, hpeer⟩
    refine ⟨fun hlong => ?_, ⟨_, Wire.dataToHost_eq_ok.mpr ⟨hc, rfl⟩⟩, ?_⟩
    · -- the close would take the seat
      obtain ⟨room', hroom', -, -, hpeer'⟩ := hnext.room
      have hreached : Coherent ((tunnel L rt).next W (.read p now)) := coherent_read hW henabled
      have hatt' := hreached.reached.seat r c p ⟨room', hroom', hpeer'⟩
      rw [closed_of_long hhead hlong] at hatt'
      cases (unattached_of_close W.relay.relay p).symm.trans hatt'
    · rw [hwritten.2]
      exact congrArg Prod.snd
        (onMessage_dataP hatt rfl hroom hopen (decode_encodeDataP P.isBinary P.payload) rfl)
  · have hlinked := hW.linked r room c p hroom hpeer
    have hmeets := hlinked.meets
    rw [hdown] at hmeets
    obtain ⟨hparcel, hsender, -⟩ := ofSender_eq_some.mp hP
    have hmade : c ∈ (W.link room.host).made := by
      simpa using hmeets.1.after P hparcel hsender
    obtain ⟨vt, hvt⟩ := List.mem_iff_getElem?.mp hmade
    have hfound := (hlinked.found vt hvt).resolve_right (hnow.host vt hvt)
    refine ⟨.transport room.host vt, ⟨vt, rfl, hvt⟩, ?_⟩
    rw [hframe]
    cases hl : W.link room.host with
    | host link shut =>
      rw [hl] at hfound
      have hget : link.peers.get c = some vt := hfound
      simp [ClientLink.onFrame, HostLink.onFrame, hget, ClientLink.hostDeliveries]
    | unopened =>
      rw [hl] at hfound
      cases hfound
    | peer link =>
      rw [hl] at hfound
      cases hfound

/-- **From the transport of the host to the peer.** -/
theorem passes_down {vt : ℕ} (hW : Coherent W) (hc : c < 2 ^ 32) (hnow : Established W r h c p)
    (hvt : ∀ c', (W.link h).made[vt]? = some c' → c' = c) (henabled : W.Enabled e)
    (hnext : Established ((tunnel L rt).next W e) r h c p) :
    Passes L (.transport h vt) n p .dataToPeer (fun endpoint => endpoint = .peer p) W e := by
  obtain ⟨room, hroom, rfl, hopen, hpeer⟩ := hnow.room
  refine ⟨fun isBinary payload hgiven => ?_, fun now message rest P heq hup hP => ?_,
    fun packet rest P heq hdown hP hframe => ?_⟩
  · have he : e = .hostSend room.host vt isBinary payload := by
      cases e with
      | peerSend socket isBinary' payload' => simp [given] at hgiven
      | hostSend socket vt' isBinary' payload' =>
        simp only [given] at hgiven
        split at hgiven
        · next hS =>
          cases hS
          cases hgiven
          rfl
        · cases hgiven
      | _ => cases hgiven
    subst he
    obtain ⟨c', hmade⟩ : ∃ c', (W.link room.host).made[vt]? = some c' :=
      ⟨_, List.getElem?_eq_getElem henabled.2⟩
    have hc' := hvt c' hmade
    subst hc'
    have hshut := hnow.host vt hmade
    refine ⟨T.dataH :: (writeBE 4 c' ++ (if isBinary then 1 else 0) :: payload), ?_⟩
    show (W.hostSend room.host vt isBinary payload, []) = _
    cases hl : W.link room.host with
    | host link shut =>
      rw [hl] at hmade hshut
      have hmade' : link.made[vt]? = some c' := hmade
      have hshut' : vt ∉ shut := hshut
      unfold Tunnel.hostSend
      rw [hl]
      simp only [hshut', if_false, hmade', Option.map_some, encodeDataH, writeUInt32BE_of_lt hc]
      rfl
    | unopened =>
      rw [hl] at hmade
      cases hmade
    | peer link =>
      rw [hl] at hmade
      cases hmade
  · subst heq
    obtain ⟨hparcel, hsender, -⟩ := ofSender_eq_some.mp hP
    have hhead : W.up room.host = message :: rest := hup
    have hmem : message ∈ W.up room.host := by
      rw [hhead]
      exact List.mem_cons_self
    have hwritten := (hW.ups room.host message hmem P hparcel).2
    unfold WrittenBy at hwritten
    rw [hsender] at hwritten
    obtain ⟨-, c', hmade, hencode⟩ := hwritten
    have hc' := hvt c' hmade
    subst hc'
    have hatt := hW.reached.hosts r room hroom henabled.2.2
    refine ⟨fun hlong => ?_, ⟨_, rfl⟩, ?_⟩
    · -- the close would take the room down
      obtain ⟨room', hroom', -⟩ := hnext.room
      change ((tunnel L rt).next W (.read room.host now)).relay.relay.rooms.get r =
        some room' at hroom'
      rw [closed_of_long hhead hlong] at hroom'
      change (onClose room.host W.relay.relay).1.rooms.get r = some room' at hroom'
      rw [onClose_host hatt rfl hroom rfl hopen] at hroom'
      change (W.relay.relay.rooms.delete room.roomId).get r = some room' at hroom'
      rw [hW.reached.roomId r room hroom, InsertionMap.get_delete_self] at hroom'
      cases hroom'
    · have hdata : message.data =
          T.dataH :: (writeBE 4 c' ++ (if P.isBinary then 1 else 0) :: P.payload) := by
        simp only [encodeDataH, writeUInt32BE_of_lt hc] at hencode
        exact (Except.ok.inj hencode).symm
      rw [hdata]
      exact congrArg Prod.snd (onMessage_dataH hatt rfl hroom
        (decodeDataFromHost_encode hc P.isBinary P.payload) hpeer)
  · have hlink := hnow.peer
    refine ⟨.peer p, rfl, ?_⟩
    rw [hframe]
    cases hl : W.link p with
    | peer link => rfl
    | _ =>
      rw [hl] at hlink
      cases hlink

end Directions

/-! ### Runs -/

/-- What a step keeps: the calls of `send` are counted, whoever has said HELLO has, and keeps the
transports it has made. -/
structure Keeps (W W' : Tunnel rt) : Prop where
  stamp : W.stamp ≤ W'.stamp
  greeted : ∀ s ∈ W.relay.greeted, s ∈ W'.relay.greeted
  made : ∀ s ∈ W.relay.greeted, ∀ (vt c : ℕ), (W.link s).made[vt]? = some c →
    (W'.link s).made[vt]? = some c

theorem keeps_relays (W : Tunnel rt) (e : Relay.Event) (parcel : Option Parcel) :
    Keeps W (W.relays L e parcel) :=
  ⟨Nat.le_refl _, fun _ hs => greeted_mono W.relay e hs, fun _ _ _ _ hvt => hvt⟩

theorem made_setLink {s s' : Socket} {link : ClientLink} (halike : Alike rt (W.link s') link) :
    ((W.setLink s' link).link s).made = (W.link s).made := by
  show (Function.update W.link s' link s).made = _
  by_cases hs : s = s'
  · rw [hs, Function.update_self]
    exact halike.made
  · rw [Function.update_of_ne hs]

theorem keeps_client {e : TunnelEvent} {W' : Tunnel rt} (hstep : ClientStep W e W') : Keeps W W' := by
  cases hstep with
  | still | wrote => exact ⟨Nat.le_refl _, fun _ hs => hs, fun _ _ _ _ hvt => hvt⟩
  | sent => exact ⟨Nat.le_succ _, fun _ hs => hs, fun _ _ _ _ hvt => hvt⟩
  | relinked halike =>
    refine ⟨Nat.le_refl _, fun _ hs => hs, fun s _ vt c hvt => ?_⟩
    rw [made_setLink halike]
    exact hvt
  | closed hgreeted halike =>
    refine ⟨Nat.le_refl _, fun _ hs => hs, fun s _ vt c hvt => ?_⟩
    rw [@made_setLink _ (W.post _ _ none) s _ _ halike]
    exact hvt

theorem keeps_next (hundone : Undone W) {e : TunnelEvent} (henabled : W.Enabled e) :
    Keeps W ((tunnel L rt).next W e) := by
  cases e with
  | hello socket hello now token =>
    have hrelays := keeps_relays (L := L) W (.hello socket hello now token) none
    refine ⟨hrelays.stamp, hrelays.greeted, fun s hs vt c hvt => ?_⟩
    have hne : s ≠ socket := fun heq => henabled.1 (heq ▸ hs)
    show (Function.update W.link socket _ s).made[vt]? = some c
    rw [Function.update_of_ne hne]
    exact hvt
  | read socket now =>
    obtain ⟨message, rest, hup⟩ := List.exists_cons_of_ne_nil henabled.1
    have hrelays := fun e parcel => keeps_relays (L := L) (W.pop socket rest) e parcel
    show Keeps W (W.readNext L socket now)
    rw [readNext_eq now hup]
    split
    · exact ⟨(hrelays _ _).stamp, (hrelays _ _).greeted, (hrelays _ _).made⟩
    · exact ⟨(hrelays _ _).stamp, (hrelays _ _).greeted, (hrelays _ _).made⟩
  | close socket => exact keeps_relays (L := L) W (.close socket) none
  | sweep now => exact keeps_relays (L := L) W (.sweep now) none
  | receive socket =>
    obtain ⟨packet, rest, hdown⟩ := List.exists_cons_of_ne_nil henabled.2
    show Keeps W (W.receiveNext socket).1
    rw [receiveNext_eq hundone hdown]
    refine ⟨Nat.le_refl _, fun _ hs => hs, fun s _ vt c hvt => ?_⟩
    show (Function.update W.link socket _ s).made[vt]? = some c
    by_cases hsocket : s = socket
    · rw [hsocket, Function.update_self]
      exact made_onFrame_mono _ _ (hsocket ▸ hvt)
    · rw [Function.update_of_ne hsocket]
      exact hvt
  | listen | peerSend | hostSend | hostClose | write =>
    exact keeps_client (client_step rfl henabled).1

/-- What a run of the tunnel meets. -/
def Runs (L : RelayLimits) (W : Tunnel rt) (es : List TunnelEvent) : Prop :=
  (tunnel L rt).Along (fun W e => W.Enabled e ∧ Undone W) W es

theorem made_exec {es : List TunnelEvent} {s : Socket} {vt : ℕ} : ∀ {W : Tunnel rt}, Runs L W es →
    s ∈ W.relay.greeted → (W.link s).made[vt]? = some c →
      (((tunnel L rt).exec W es).link s).made[vt]? = some c := by
  induction es with
  | nil => exact fun _ _ hvt => hvt
  | cons e es ih =>
    intro W hruns hs hvt
    obtain ⟨⟨henabled, hundone⟩, hrest⟩ := hruns
    have hkeeps := keeps_next (L := L) hundone henabled
    exact ih hrest (hkeeps.greeted s hs) (hkeeps.made s hs vt c hvt)

theorem Passes.mono {goal' : Endpoint → Prop} {e : TunnelEvent}
    (hpasses : Passes L S n d form goal W e) (hgoal : ∀ endpoint, goal endpoint → goal' endpoint) :
    Passes L S n d form goal' W e where
  sent := hpasses.sent
  relayed := hpasses.relayed
  received packet rest P he hdown hP hframe := by
    obtain ⟨endpoint, hmet, hdeliver⟩ := hpasses.received packet rest P he hdown hP hframe
    exact ⟨endpoint, hgoal endpoint hmet, hdeliver⟩

/-- **The flow over a run.** -/
theorem flow_exec {es : List TunnelEvent} : ∀ {W : Tunnel rt}, Coherent W → n ≤ W.stamp →
    Carried S n d form W → Runs L W es →
    (tunnel L rt).Along (fun W e => Passes L S n d form goal W e) W es →
      Flows S n d form goal W (sends S es) ((tunnel L rt).trace W es) ((tunnel L rt).exec W es) := by
  induction es with
  | nil =>
    intro W _ _ hcarried _ _
    exact flows_still rfl rfl rfl hcarried
  | cons e es ih =>
    intro W hW hn hcarried hruns hpasses
    obtain ⟨⟨henabled, hundone⟩, hrest⟩ := hruns
    have hfirst := flow_next hW hundone hn hcarried henabled hpasses.1
    have hlater := ih (coherent_next hW hundone henabled)
      (Nat.le_trans hn (keeps_next hundone henabled).stamp)
      hfirst.carried hrest hpasses.2
    have hsends : sends S (e :: es) = (given S e).toList ++ sends S es := by
      unfold sends
      cases hgiven : given S e with
      | none => rw [List.filterMap_cons_none hgiven]; rfl
      | some x => rw [List.filterMap_cons_some hgiven]; rfl
    have hout : arrived S n ((tunnel L rt).trace W (e :: es)) =
        arrived S n ((tunnel L rt).out W e) ++
          arrived S n ((tunnel L rt).trace ((tunnel L rt).next W e) es) :=
      List.filter_append _ _
    refine ⟨?_, ?_, hlater.carried⟩
    · rw [hsends, ← List.append_assoc, hfirst.law, List.append_assoc, hlater.law, hout,
        List.map_append, List.append_assoc]
      rfl
    · rw [hout]
      intro delivery hmem
      obtain hearly | hlate := List.mem_append.mp hmem
      · exact hfirst.goals delivery hearly
      · exact hlater.goals delivery hlate

/-! ### Transparency -/

theorem Runs.coherent {es : List TunnelEvent} (hruns : Runs L W es) (hW : Coherent W) :
    Coherent ((tunnel L rt).exec W es) :=
  coherent_exec hW (hruns.mono fun _ _ h => h.1) (hruns.mono fun _ _ h => h.2)

theorem Established.greeted (hW : Coherent W) (hnow : Established W r h c p) :
    h ∈ W.relay.greeted := by
  obtain ⟨room, hroom, rfl, -, -⟩ := hnow.room
  exact hW.reached.hostGreeted r room hroom

/-- Every step of the run passes on what goes up, to a transport of `c` that is there at the end. -/
theorem passes_up_along (hc : c < 2 ^ 32) {es : List TunnelEvent} : ∀ {W : Tunnel rt}, Coherent W →
    Runs L W es → Established W r h c p →
    (tunnel L rt).Along (fun W e => Established ((tunnel L rt).next W e) r h c p) W es →
      (tunnel L rt).Along (fun W' e => Passes L (.peer p) n h (.dataToHost c) (fun endpoint =>
        ∃ vt, endpoint = .transport h vt ∧
          (((tunnel L rt).exec W es).link h).made[vt]? = some c) W' e) W es := by
  induction es with
  | nil => exact fun _ _ _ _ => trivial
  | cons e es ih =>
    intro W hW hruns hnow hstays
    have hpasses := passes_up (n := n) hW hc hnow hruns.1.1 hstays.1
    refine ⟨hpasses.mono fun endpoint => ?_,
      ih (coherent_next hW hruns.1.2 hruns.1.1) hruns.2 hstays.1 hstays.2⟩
    intro ⟨vt, heq, hvt⟩
    exact ⟨vt, heq, made_exec hruns (hnow.greeted hW) hvt⟩

/-- Every step of the run passes on what goes down from the transport for `c`. -/
theorem passes_down_along {vt : ℕ} (hc : c < 2 ^ 32) {es : List TunnelEvent} :
    ∀ {W : Tunnel rt}, Coherent W → Runs L W es → Established W r h c p →
    (((tunnel L rt).exec W es).link h).made[vt]? = some c →
    (tunnel L rt).Along (fun W e => Established ((tunnel L rt).next W e) r h c p) W es →
      (tunnel L rt).Along (fun W' e => Passes L (.transport h vt) n p .dataToPeer
        (fun endpoint => endpoint = .peer p) W' e) W es := by
  induction es with
  | nil => exact fun _ _ _ _ _ => trivial
  | cons e es ih =>
    intro W hW hruns hnow hvt hstays
    have hmine : ∀ c', (W.link h).made[vt]? = some c' → c' = c := by
      intro c' hmade
      have hend := made_exec hruns (hnow.greeted hW) hmade
      exact Option.some.inj (hend.symm.trans hvt)
    exact ⟨passes_down hW hc hnow hmine hruns.1.1 hstays.1,
      ih (coherent_next hW hruns.1.2 hruns.1.1) hruns.2 hstays.1 hvt hstays.2⟩

/-- No payload has a number that is still to come. -/
theorem fresh_stamp (hW : Coherent W) {S : Endpoint} {d : Socket} {form : Bool → Bytes → Frame} :
    inTransit S W.stamp d W = [] ∧ Carried S W.stamp d form W := by
  have hdown : ∀ s, ∀ packet ∈ W.down s, ofSender S W.stamp packet.parcel = none := by
    intro s packet hmem
    refine Option.eq_none_iff_forall_ne_some.mpr fun P hP => ?_
    obtain ⟨hparcel, -, hle⟩ := ofSender_eq_some.mp hP
    have hlt := (hW.downs s packet hmem P hparcel).1
    omega
  have hup : ∀ s, ∀ message ∈ W.up s, ofSender S W.stamp message.parcel = none := by
    intro s message hmem
    refine Option.eq_none_iff_forall_ne_some.mpr fun P hP => ?_
    obtain ⟨hparcel, -, hle⟩ := ofSender_eq_some.mp hP
    have hlt := (hW.ups s message hmem P hparcel).1
    omega
  constructor
  · simp only [inTransit, downward, upward]
    rw [List.filterMap_eq_nil_iff.mpr (hdown d), List.filterMap_eq_nil_iff.mpr (hup S.socket)]
    rfl
  · intro s packet hmem P hP
    rw [hdown s packet hmem] at hP
    cases hP

/-- Whoever can still be heard by the relay has said HELLO and has not gone. -/
structure Open (W : Tunnel rt) (s : Socket) : Prop where
  greeted : s ∈ W.relay.greeted
  stays : s ∉ W.relay.gone

theorem Established.open_host (hW : Coherent W) (hnow : Established W r h c p) : Open W h := by
  obtain ⟨room, hroom, rfl, hopen, -⟩ := hnow.room
  exact ⟨hW.reached.hostGreeted r room hroom, hW.absent.hosts r room hroom hopen⟩

theorem Established.open_peer (hW : Coherent W) (hnow : Established W r h c p) : Open W p := by
  obtain ⟨room, hroom, rfl, -, hpeer⟩ := hnow.room
  refine ⟨hW.reached.toSeated.seat_greeted ⟨room, hroom, hpeer⟩, fun hgone => ?_⟩
  have hatt := hW.reached.seat r c p ⟨room, hroom, hpeer⟩
  cases (hW.absent.attached p hgone).symm.trans hatt

theorem established_exec {es : List TunnelEvent} : ∀ {W : Tunnel rt}, Established W r h c p →
    (tunnel L rt).Along (fun W e => Established ((tunnel L rt).next W e) r h c p) W es →
      Established ((tunnel L rt).exec W es) r h c p := by
  induction es with
  | nil => exact fun hnow _ => hnow
  | cons e es ih => exact fun _ hstays => ih hstays.1 hstays.2

/-- **What `S` is given to send while the run lasts**: what has arrived of it, unchanged and in order,
and then what is on its way to `d`.  It arrives at endpoints that meet `goal`, and nowhere else; and
what is on its way can move on. -/
structure Transparent (L : RelayLimits) (S : Endpoint) (d : Socket) (goal : Endpoint → Prop)
    (W : Tunnel rt) (es : List TunnelEvent) : Prop where
  delivered : sends S es =
    (arrived S W.stamp ((tunnel L rt).trace W es)).map Delivery.content ++
      (inTransit S W.stamp d ((tunnel L rt).exec W es)).map Parcel.content
  nowhereElse : ∀ delivery ∈ arrived S W.stamp ((tunnel L rt).trace W es), goal delivery.endpoint
  read : ∀ now, upward S W.stamp ((tunnel L rt).exec W es) ≠ [] →
    ((tunnel L rt).exec W es).Enabled (.read S.socket now)
  receive : downward S W.stamp d ((tunnel L rt).exec W es) ≠ [] →
    ((tunnel L rt).exec W es).Enabled (.receive d)

theorem transparent_of_passes (hW : Coherent W) {es : List TunnelEvent} (hruns : Runs L W es)
    (hpasses : (tunnel L rt).Along (fun W' e => Passes L S W.stamp d form goal W' e) W es)
    (hsource : Open ((tunnel L rt).exec W es) S.socket)
    (htarget : Open ((tunnel L rt).exec W es) d) : Transparent L S d goal W es := by
  obtain ⟨hnone, hcarried⟩ := fresh_stamp hW (S := S) (d := d)
  have hflows := flow_exec hW (Nat.le_refl _) hcarried hruns hpasses
  refine ⟨?_, hflows.goals, fun now hup => ⟨fun hnil => hup ?_, hsource.greeted, hsource.stays⟩,
    fun hdown => ⟨htarget.greeted, fun hnil => hdown ?_⟩⟩
  · have hlaw := hflows.law
    rw [hnone] at hlaw
    exact hlaw
  · simp [upward, hnil]
  · simp [downward, hnil]

/-- Whoever has not said HELLO is sent nothing. -/
theorem along_undone {known : Frame → Bool}
    (hknown : ∀ frame, known frame = true → ∀ v ∈ Wire.object frame, rt.Undoes v)
    {es : List TunnelEvent} (hW : Coherent W) (hvalid : (tunnel L rt).Valid W es)
    (hframes : (tunnel L rt).Along (fun W _ => ∀ s ∈ W.relay.greeted, ∀ packet ∈ W.down s,
      known packet.frame = true) W es) : (tunnel L rt).Along (fun W _ => Undone W) W es := by
  have hundone : ∀ W : Tunnel rt, Coherent W → (∀ s ∈ W.relay.greeted, ∀ packet ∈ W.down s,
      known packet.frame = true) → Undone W := by
    intro W hW hall s packet hmem
    by_cases hs : s ∈ W.relay.greeted
    · exact hknown _ (hall s hs packet hmem)
    · rw [(hW.quiet s hs).2] at hmem
      cases hmem
  exact Machine.along_of_invariant
    (fun W e hW hG => coherent_next hW (hundone W hW hG.2) hG.1)
    (fun W _ hW hG => hundone W hW hG.2) (Machine.along_and.mpr ⟨hvalid, hframes⟩) hW

/-- **The relay is transparent.** -/
theorem relay_transparent (L : RelayLimits) (rt : JsonRuntime) (hc : c < 2 ^ 32)
    {pre es : List TunnelEvent} (hvalid : (tunnel L rt).Valid Tunnel.init (pre ++ es))
    (hjson : (tunnel L rt).Along (fun W _ => Undone W) Tunnel.init (pre ++ es))
    (hnow : Established ((tunnel L rt).exec Tunnel.init pre) r h c p)
    (hstays : (tunnel L rt).Along (fun W e => Established ((tunnel L rt).next W e) r h c p)
      ((tunnel L rt).exec Tunnel.init pre) es) :
    Transparent L (.peer p) h (fun endpoint => ∃ vt, endpoint = .transport h vt ∧
        (((tunnel L rt).exec Tunnel.init (pre ++ es)).link h).made[vt]? = some c)
      ((tunnel L rt).exec Tunnel.init pre) es ∧
    ∀ vt : ℕ, (((tunnel L rt).exec Tunnel.init (pre ++ es)).link h).made[vt]? = some c →
      (∀ vt' : ℕ, (((tunnel L rt).exec Tunnel.init (pre ++ es)).link h).made[vt']? = some c →
        vt' = vt) ∧
      Transparent L (.transport h vt) p (fun endpoint => endpoint = .peer p)
        ((tunnel L rt).exec Tunnel.init pre) es := by
  have hruns : Runs L Tunnel.init (pre ++ es) := Machine.along_and.mpr ⟨hvalid, hjson⟩
  obtain ⟨hbefore, hduring⟩ := (Machine.along_append _ _ _ _ _).mp hruns
  have hW : Coherent ((tunnel L rt).exec Tunnel.init pre) := Runs.coherent hbefore coherent_init
  have hend := Runs.coherent hduring hW
  have hthen := established_exec hnow hstays
  have hhost := hthen.open_host hend
  have hpeer := hthen.open_peer hend
  rw [Machine.exec_append]
  refine ⟨transparent_of_passes hW hduring (passes_up_along hc hW hduring hnow hstays) hpeer hhost,
    fun vt hvt => ⟨fun vt' hvt' => ?_, ?_⟩⟩
  · obtain ⟨room, hroom, heq, -, hseat⟩ := hthen.room
    rw [← heq] at hvt hvt'
    exact (hend.linked r room c p hroom hseat).unique vt' vt hvt' hvt
  · exact transparent_of_passes hW hduring (passes_down_along hc hW hduring hnow hvt hstays)
      hhost hpeer

/-! ### A room of two -/

/-- The texts of `{ hostToken: 'ab' }` and of `{ connId: 1 }`. -/
def tokenText : Bytes :=
  [0x7b, 0x22, 0x68, 0x6f, 0x73, 0x74, 0x54, 0x6f, 0x6b, 0x65, 0x6e, 0x22, 0x3a, 0x22, 0x61, 0x62,
    0x22, 0x7d]

def oneText : Bytes :=
  [0x7b, 0x22, 0x63, 0x6f, 0x6e, 0x6e, 0x49, 0x64, 0x22, 0x3a, 0x31, 0x7d]

/-- A runtime that knows how to write and read these two. -/
def pairRuntime : JsonRuntime where
  stringify
    | .obj [(_, .str _)] => tokenText
    | _ => oneText
  parse text :=
    if text = tokenText then .ok (Wire.readyObject none (some "ab"))
    else if text = oneText then .ok (Wire.connIdObject 1)
    else .error .syntaxError
  display _ := .error .typeError
  parse_nil := rfl

def pairFrame (frame : Frame) : Bool :=
  frame = .ready none (some "ab") || frame = .ready (some 1) none || frame = .peerUp 1 ||
    (Wire.object frame).isNone

theorem undoes_pairFrame (frame : Frame) (h : pairFrame frame = true) :
    ∀ v ∈ Wire.object frame, pairRuntime.Undoes v := by
  intro v hv
  have hcases : frame = .ready none (some "ab") ∨ frame = .ready (some 1) none ∨ frame = .peerUp 1 := by
    simp only [pairFrame, Bool.or_eq_true, decide_eq_true_eq, Option.isNone_iff_eq_none] at h
    obtain ((h | h) | h) | h := h
    · exact .inl h
    · exact .inr (.inl h)
    · exact .inr (.inr h)
    · rw [h] at hv
      cases hv
  obtain rfl | rfl | rfl := hcases <;> cases hv <;> rfl

def pairHost : Socket := ⟨0, "10.0.0.1"⟩

def pairPeer : Socket := ⟨1, "10.0.0.2"⟩

/-- A peer joins a room. -/
def pairUp : List TunnelEvent :=
  [.hello pairHost ⟨.host, "65727231", "1.0.0", relayProtocolVersion, none⟩ 0 "ab",
    .hello pairPeer ⟨.peer, "65727231", "1.0.0", relayProtocolVersion, none⟩ 0 "",
    .receive pairHost, .receive pairHost]

/-- The peer and the host write to each other; the peer writes what looks like a close of the room. -/
def pairTalk : List TunnelEvent :=
  [.peerSend pairPeer true [T.handoff], .hostSend pairHost 0 false [0x68, 0x69], .read pairPeer 1,
    .read pairHost 1, .receive pairHost, .receive pairPeer, .receive pairPeer]

theorem relay_transparent_pair :
    Transparent Relay.defaultLimits (.peer pairPeer) pairHost (fun endpoint => ∃ vt : ℕ,
        endpoint = .transport pairHost vt ∧
          (((tunnel Relay.defaultLimits pairRuntime).exec Tunnel.init (pairUp ++ pairTalk)).link
            pairHost).made[vt]? = some 1)
      ((tunnel Relay.defaultLimits pairRuntime).exec Tunnel.init pairUp) pairTalk ∧
    Transparent Relay.defaultLimits (.transport pairHost 0) pairPeer
      (fun endpoint => endpoint = .peer pairPeer)
      ((tunnel Relay.defaultLimits pairRuntime).exec Tunnel.init pairUp) pairTalk ∧
    ((tunnel Relay.defaultLimits pairRuntime).trace Tunnel.init (pairUp ++ pairTalk)).map
        (fun delivery => (delivery.endpoint, delivery.content)) =
      [(.transport pairHost 0, true, [T.handoff]), (.peer pairPeer, false, [0x68, 0x69])] := by
  have hvalid : (tunnel Relay.defaultLimits pairRuntime).Valid Tunnel.init (pairUp ++ pairTalk) := by
    decide +kernel
  have hjson := along_undone undoes_pairFrame coherent_init hvalid (by decide +kernel)
  have hstays : (tunnel Relay.defaultLimits pairRuntime).Along (fun W e =>
      Established ((tunnel Relay.defaultLimits pairRuntime).next W e) "65727231" pairHost 1 pairPeer)
      ((tunnel Relay.defaultLimits pairRuntime).exec Tunnel.init pairUp) pairTalk := by
    refine ⟨?_, ?_, ?_, ?_, ?_, ?_, ?_, trivial⟩ <;>
      exact ⟨⟨_, rfl, rfl, rfl, rfl⟩, rfl, fun _ _ => List.not_mem_nil⟩
  have hnow : Established ((tunnel Relay.defaultLimits pairRuntime).exec Tunnel.init pairUp)
      "65727231" pairHost 1 pairPeer :=
    ⟨⟨_, rfl, rfl, rfl, rfl⟩, rfl, fun _ _ => List.not_mem_nil⟩
  have htransparent :=
    relay_transparent Relay.defaultLimits pairRuntime (by decide) hvalid hjson hnow hstays
  exact ⟨htransparent.1, (htransparent.2 0 rfl).2, by decide +kernel⟩

end ScreenSharing.Net
