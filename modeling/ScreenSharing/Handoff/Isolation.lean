import ScreenSharing.Handoff.Network
import ScreenSharing.Relay.Membership

/-!
# The sessions before and after a handoff

A survivor keeps its socket through a handoff, and its old session and the new one share it.  While
the handoff is pending the relay drops the frames of the survivors; from the claim on it forwards
whatever it reads to the new host, and it cannot tell a frame of the old session from one of the
new.

`Isolated` is what the new host relies on: a frame tagged with a connId was written by the peer that
has it, after this peer had heard of the claim, in the session it made then, and the `hello` comes
first.  The relay's guard covers the pending window and nothing else, so the rest depends on timing.
`isolated_of_undelayed` says on what: at each claim the old frames are read already, and a peer that
has not made its new session yet writes nothing.  `Fresh` is the invariant behind it.
-/

namespace ScreenSharing.Handoff

open Lib Net
open Relay (Effect Frame Hello RelayLimits Socket sentTo Registered Seated)

/-- **Session isolation of one step.**  A frame the relay forwards to a host, tagged with the connId
of one of its peers, was written by that peer after it had received every HOST_CLAIMED sent to it,
in the session it made afterwards; and the first such frame is the `hello` of that session. -/
def Isolated (L : RelayLimits) (N : Network) (e : NetworkEvent) : Prop :=
  ∀ r room connId isBinary payload peer, N.relay.relay.rooms.get r = some room →
    room.peers.get connId = some peer →
    Effect.send room.host (.dataToHost connId isBinary payload) ∈ (network L).out N e →
    ∃ now sent, e = .read peer now ∧ (N.up peer).head? = some sent ∧
      sent.received = N.told peer ∧ sent.session = N.told peer ∧
      (0 < N.told peer → sent.hello = true ∨ N.opened peer = true)

/-- A socket attached as a peer shares its connId with no other one that has a seat there now. -/
def OwnSeat (R : Relay.State) (socket : Socket) : Prop :=
  ∀ att ∈ R.attached.get socket, ∀ connId ∈ att.connId, ∀ room ∈ R.rooms.get att.roomId,
    ∀ other ∈ room.peers.get connId, other = socket

/-- The condition on a step.  When a room is claimed, no DATA frame of one of its peers is on its
way.  After the claim, a peer writes one only in the session it made on hearing of it.  A DATA frame
that is read comes from the socket that has the seat. -/
def Undelayed (N : Network) : NetworkEvent → Prop
  | .hello _ hello now _ =>
    ∀ room ∈ Relay.claimedRoom N.relay.relay now hello, ∀ peer ∈ room.peers.values,
      ∀ sent ∈ N.up peer, sent.isData = false
  | .send socket data =>
    N.HasSeat socket → (Relay.decodeDataFromPeer data).isSome = true →
      (N.survivor socket).session = N.told socket
  | .receive socket (.answer _) =>
    N.HasSeat socket → (N.survivor socket).session = N.told socket
  | .rehome socket _ => N.HasSeat socket → .hostClaimed ∉ N.down socket
  | .read socket _ =>
    ∀ sent ∈ (N.up socket).head?, sent.isData = true → OwnSeat N.relay.relay socket
  | _ => True

instance (R : Relay.State) (socket : Socket) : Decidable (OwnSeat R socket) := by
  unfold OwnSeat
  infer_instance

instance (N : Network) : (e : NetworkEvent) → Decidable (Undelayed N e)
  | .hello _ hello now _ =>
    inferInstanceAs (Decidable (∀ room ∈ Relay.claimedRoom N.relay.relay now hello,
      ∀ peer ∈ room.peers.values, ∀ sent ∈ N.up peer, sent.isData = false))
  | .send socket data =>
    inferInstanceAs (Decidable (N.HasSeat socket →
      (Relay.decodeDataFromPeer data).isSome = true →
        (N.survivor socket).session = N.told socket))
  | .receive socket (.answer _) =>
    inferInstanceAs (Decidable (N.HasSeat socket →
      (N.survivor socket).session = N.told socket))
  | .rehome socket _ =>
    inferInstanceAs (Decidable (N.HasSeat socket → .hostClaimed ∉ N.down socket))
  | .read socket _ =>
    inferInstanceAs (Decidable (∀ sent ∈ (N.up socket).head?,
      sent.isData = true → OwnSeat N.relay.relay socket))
  | .receive _ .nothing | .receive _ .hostTransfer | .timeout _ | .close _ | .sweep _ =>
    isTrue trivial

variable {L : RelayLimits} {N : Network}

/-! ### The queues and the counts -/

theorem relays_effects (e : Relay.Event) :
    (N.relays L e).2 = (Relay.react L N.relay.relay e).2 := by
  cases e <;> rfl

theorem relays_relay (e : Relay.Event) :
    (N.relays L e).1.relay = (Relay.server L).next N.relay e := rfl

theorem told_relays (e : Relay.Event) (s : Socket) :
    (N.relays L e).1.told s =
      N.told s + (sentTo s (Relay.react L N.relay.relay e).2).count .hostClaimed := by
  rw [← relays_effects (L := L) (N := N) e]
  show (N.survivor s).received + (N.down s ++ sentTo s (N.relays L e).2).count .hostClaimed = _
  rw [List.count_append, ← Nat.add_assoc]
  rfl

theorem told_relays_eq {e : Relay.Event} {s : Socket}
    (h : Effect.send s .hostClaimed ∉ (Relay.react L N.relay.relay e).2) :
    (N.relays L e).1.told s = N.told s ∧ (N.relays L e).1.opened s = N.opened s := by
  have hnone : Frame.hostClaimed ∉ sentTo s (Relay.react L N.relay.relay e).2 :=
    fun hmem => h (Relay.mem_sentTo.mp hmem)
  constructor
  · rw [told_relays, List.count_eq_zero.mpr hnone, Nat.add_zero]
  · show (N.opened s && !(sentTo s (N.relays L e).2).contains .hostClaimed) = N.opened s
    rw [relays_effects, List.contains_eq_mem, decide_eq_false hnone, Bool.not_false, Bool.and_true]

theorem told_relays_lt {e : Relay.Event} {s : Socket}
    (h : Effect.send s .hostClaimed ∈ (Relay.react L N.relay.relay e).2) :
    N.told s < (N.relays L e).1.told s := by
  rw [told_relays]
  exact Nat.lt_add_of_pos_right (List.count_pos_iff.mpr (Relay.mem_sentTo.mpr h))

/-! ### The invariant -/

/-- The next DATA frame of the socket is the `hello` of its present session; or it has written none,
and a new session is still to be made. -/
def HelloNext (N : Network) (socket : Socket) : Prop :=
  match (N.up socket).find? Sent.isData with
  | some sent => sent.hello = true
  | none => (N.survivor socket).session < N.told socket ∨ (N.survivor socket).link.closed = true

structure Fresh (N : Network) : Prop where
  seated : Seated N.relay
  /-- a socket writes nothing and is told nothing before its HELLO -/
  quiet : ∀ s, s ∉ N.relay.greeted → N.up s = [] ∧ N.told s = 0
  behind : ∀ s, (N.survivor s).session ≤ (N.survivor s).received
  /-- no DATA frame of an old session is on its way -/
  current : ∀ s, N.HasSeat s → ∀ sent ∈ N.up s, sent.isData = true →
    sent.received = N.told s ∧ sent.session = N.told s
  opening : ∀ r room connId s, N.relay.relay.rooms.get r = some room →
    room.peers.get connId = some s → room.handoffDeadline = none → 0 < N.told s →
    N.opened s = false → HelloNext N s

theorem fresh_init : Fresh .init where
  seated := Relay.seated_init
  quiet s _ := ⟨rfl, rfl⟩
  behind s := Nat.le_refl 0
  current s h := by
    obtain ⟨r, connId, room, hroom, -⟩ := h
    cases hroom
  opening r room connId s hroom := by cases hroom

/-! ### Steps of the relay -/

/-- No peer of a room that the event claims has a DATA frame on its way. -/
def ClaimsClean (N : Network) (e : Relay.Event) : Prop :=
  ∀ host hello now token room, e = .hello host hello now token →
    Relay.claimedRoom N.relay.relay now hello = some room →
    ∀ peer ∈ room.peers.values, ∀ sent ∈ N.up peer, sent.isData = false

/-- **A seat over one event of the relay**: it was there and its socket was told nothing; or its
socket was told of a new host, and has no DATA frame on its way; or its socket is new. -/
theorem seat_change (h : Seated N.relay) {e : Relay.Event} (henabled : Relay.Enabled N.relay e)
    (hclean : ClaimsClean N e) {r : String} {room' : Relay.Room} {connId : ℕ} {s : Socket}
    (hroom' : (N.relays L e).1.relay.relay.rooms.get r = some room')
    (hpeer' : room'.peers.get connId = some s) :
    (∃ room, N.relay.relay.rooms.get r = some room ∧ room.peers.get connId = some s ∧
        (room'.handoffDeadline = none → room.handoffDeadline = none) ∧
        (N.relays L e).1.told s = N.told s ∧ (N.relays L e).1.opened s = N.opened s) ∨
      (N.told s < (N.relays L e).1.told s ∧ ∀ sent ∈ N.up s, sent.isData = false) ∨
      (s ∉ N.relay.greeted ∧ (N.relays L e).1.told s = N.told s) := by
  rw [relays_relay, Relay.next_relay] at hroom'
  cases Relay.seat_origin h henabled hroom' hpeer' with
  | kept hroom hpeer hopen huntold =>
    obtain ⟨htold, hopened⟩ := told_relays_eq huntold
    exact .inl ⟨_, hroom, hpeer, hopen, htold, hopened⟩
  | claimed hevent hclaimed hroom hpeer htold =>
    refine .inr (.inl ⟨told_relays_lt htold, ?_⟩)
    exact hclean _ _ _ _ _ hevent hclaimed s ((InsertionMap.mem_values _ _).mpr ⟨connId, hpeer⟩)
  | joined hnew huntold => exact .inr (.inr ⟨hnew, (told_relays_eq huntold).1⟩)

theorem greeted_next (S : Relay.ServerState) (e : Relay.Event) {s : Socket} (hs : s ∈ S.greeted) :
    s ∈ ((Relay.server L).next S e).greeted := by
  cases e with
  | hello socket hello now token => exact List.mem_cons_of_mem _ hs
  | message socket data now => exact hs
  | close socket => exact hs
  | sweep now => exact hs

/-- Nobody is told of a new host before its HELLO. -/
theorem untold_of_ungreeted (h : Seated N.relay) (e : Relay.Event) {s : Socket}
    (hs : s ∉ N.relay.greeted) :
    Effect.send s .hostClaimed ∉ (Relay.react L N.relay.relay e).2 := by
  intro htold
  obtain ⟨host, hello, now, token, room, connId, rfl, hclaimed, hpeer⟩ :=
    Relay.claim_of_told htold
  have hroom := Relay.get_of_claimedRoom hclaimed
  exact hs (h.seat_greeted ⟨room, hroom, hpeer⟩)

/-- **The relay handles an event**, and frames may be taken from the queues to it: what is left is
still fresh, as long as the `hello` of each new session is. -/
theorem fresh_of_relays (h : Fresh N) {e : Relay.Event} (henabled : Relay.Enabled N.relay e)
    (hclean : ClaimsClean N e) {N' : Network} (hrelay : N'.relay = (N.relays L e).1.relay)
    (hdown : N'.down = (N.relays L e).1.down) (hsurvivor : N'.survivor = N.survivor)
    (hup : ∀ s, ∀ sent ∈ N'.up s, sent ∈ N.up s)
    (hopening : ∀ r room connId s, N.relay.relay.rooms.get r = some room →
      room.peers.get connId = some s → room.handoffDeadline = none → 0 < N.told s →
      (N.relays L e).1.opened s = N.opened s → N'.told s = N.told s → N'.opened s = false →
      HelloNext N' s) : Fresh N' := by
  have htold : ∀ s, N'.told s = (N.relays L e).1.told s := by
    intro s
    unfold Network.told
    rw [hdown, hsurvivor]
    rfl
  have hchange : ∀ {r room' connId s}, N'.relay.relay.rooms.get r = some room' →
      room'.peers.get connId = some s → _ := fun hroom' hpeer' =>
    seat_change h.seated henabled hclean (hrelay ▸ hroom') hpeer'
  refine ⟨?_, ?_, ?_, ?_, ?_⟩
  · rw [hrelay]
    exact Relay.seated_next h.seated henabled
  · intro s hs
    have hs₀ : s ∉ N.relay.greeted := by
      intro hmem
      rw [hrelay] at hs
      exact hs (greeted_next N.relay e hmem)
    obtain ⟨hempty, hzero⟩ := h.quiet s hs₀
    constructor
    · refine List.eq_nil_iff_forall_not_mem.mpr fun sent hmem => ?_
      have hmem₀ := hup s sent hmem
      rw [hempty] at hmem₀
      cases hmem₀
    · rw [htold, (told_relays_eq (untold_of_ungreeted h.seated e hs₀)).1, hzero]
  · intro s
    rw [hsurvivor]
    exact h.behind s
  · rintro s ⟨r, connId, room', hroom', hpeer'⟩ sent hmem hdata
    rw [htold]
    rcases hchange hroom' hpeer' with ⟨room, hroom, hpeer, -, heq, -⟩ | ⟨-, hnone⟩ | ⟨hnew, -⟩
    · rw [heq]
      exact h.current s ⟨r, connId, room, hroom, hpeer⟩ sent (hup s sent hmem) hdata
    · rw [hnone sent (hup s sent hmem)] at hdata
      cases hdata
    · have hmem₀ := hup s sent hmem
      rw [(h.quiet s hnew).1] at hmem₀
      cases hmem₀
  · intro r room' connId s hroom' hpeer' hopen' hpos hopened'
    rcases hchange hroom' hpeer' with ⟨room, hroom, hpeer, hopen, heq, hsame⟩ | ⟨hlt, hnone⟩ |
        ⟨hnew, heq⟩
    · have heq' : N'.told s = N.told s := (htold s).trans heq
      exact hopening r room connId s hroom hpeer (hopen hopen') (heq' ▸ hpos) hsame heq' hopened'
    · have hfind : (N'.up s).find? Sent.isData = none := by
        refine List.find?_eq_none.mpr fun sent hmem => ?_
        rw [hnone sent (hup s sent hmem)]
        exact Bool.false_ne_true
      unfold HelloNext
      rw [hfind]
      dsimp only
      refine .inl ?_
      have hbehind := h.behind s
      have htold₀ : (N.survivor s).received ≤ N.told s := Nat.le_add_right _ _
      rw [htold, hsurvivor]
      omega
    · rw [htold, heq, (h.quiet s hnew).2] at hpos
      cases hpos

/-- The relay handles an event other than a frame of a client. -/
theorem fresh_relays (h : Fresh N) {e : Relay.Event} (henabled : Relay.Enabled N.relay e)
    (hclean : ClaimsClean N e) : Fresh (N.relays L e).1 := by
  refine fresh_of_relays h henabled hclean rfl rfl rfl (fun _ _ hmem => hmem) ?_
  intro r room connId s hroom hpeer hopen hpos hsame htold hopened
  have hnext := h.opening r room connId s hroom hpeer hopen hpos (hsame ▸ hopened)
  unfold HelloNext at hnext ⊢
  rw [htold]
  exact hnext

/-- A DATA frame of a peer with a seat in an open room is forwarded. -/
theorem toHost_of_read (h : Fresh N) {r : String} {room : Relay.Room} {connId : ℕ} {s : Socket}
    (hroom : N.relay.relay.rooms.get r = some room) (hpeer : room.peers.get connId = some s)
    (hopen : room.handoffDeadline = none) {sent : Sent} (hdata : sent.isData = true) (now : ℕ) :
    (Relay.react L N.relay.relay (.message s sent.data now)).2.any toHost = true := by
  obtain ⟨frame, hframe⟩ := Option.isSome_iff_exists.mp hdata
  have hatt := h.seated.seat r connId s ⟨room, hroom, hpeer⟩
  show (Relay.onMessage now s sent.data N.relay.relay).2.any toHost = true
  rw [Relay.onMessage_dataP hatt rfl hroom hopen hframe rfl]
  rfl

/-- The next frame leaves its queue, and the relay handles it. -/
theorem readNext_fields {socket : Socket} (now : ℕ) {sent : Sent} {rest : List Sent}
    (hup : N.up socket = sent :: rest) :
    (N.readNext L socket now).1.relay =
        (N.relays L (.message socket sent.data now)).1.relay ∧
      (N.readNext L socket now).1.down = (N.relays L (.message socket sent.data now)).1.down ∧
      (N.readNext L socket now).1.survivor = N.survivor ∧
      (N.readNext L socket now).1.up = Function.update N.up socket rest := by
  unfold Network.readNext
  rw [hup]
  dsimp only
  split <;> exact ⟨rfl, rfl, rfl, rfl⟩

/-- A flag that is not set was not set before; and if it is the flag of the socket, the frame was no
`hello` that the relay forwarded. -/
theorem readNext_opened {socket s : Socket} {now : ℕ} {sent : Sent} {rest : List Sent}
    (hup : N.up socket = sent :: rest) (hfalse : (N.readNext L socket now).1.opened s = false) :
    (N.relays L (.message socket sent.data now)).1.opened s = false ∧
      (s = socket → (sent.hello &&
        (N.relays L (.message socket sent.data now)).2.any toHost) = false) := by
  unfold Network.readNext at hfalse
  rw [hup] at hfalse
  dsimp only at hfalse
  split at hfalse
  · by_cases hs : s = socket
    · rw [hs] at hfalse
      dsimp only at hfalse
      rw [Function.update_self] at hfalse
      cases hfalse
    · dsimp only at hfalse
      rw [Function.update_of_ne hs] at hfalse
      exact ⟨hfalse, fun heq => absurd heq hs⟩
  · next hno => exact ⟨hfalse, fun _ => Bool.eq_false_iff.mpr hno⟩

/-- **The relay reads a frame of a client.**  A DATA frame of a peer in an open room is forwarded, so
a `hello` that leaves the queue sets the flag. -/
theorem fresh_readNext (h : Fresh N) {socket : Socket} {now : ℕ}
    (henabled : Relay.Enabled N.relay (.message socket [] now)) :
    Fresh (N.readNext L socket now).1 := by
  cases hup : N.up socket with
  | nil =>
    unfold Network.readNext
    rw [hup]
    exact h
  | cons sent rest =>
    have hclean : ClaimsClean N (.message socket sent.data now) :=
      fun _ _ _ _ _ heq => by cases heq
    obtain ⟨hrelay, hdown, hsurvivor, hrest⟩ := readNext_fields (L := L) now hup
    refine fresh_of_relays h (e := .message socket sent.data now) henabled hclean hrelay hdown
      hsurvivor ?_ ?_
    · intro s sent' hmem
      rw [hrest] at hmem
      by_cases hs : s = socket
      · rw [hs, Function.update_self] at hmem
        rw [hs, hup]
        exact List.mem_cons_of_mem _ hmem
      · rw [Function.update_of_ne hs] at hmem
        exact hmem
    · intro r room connId s hroom hpeer hopen hpos hsame htold hfalse
      obtain ⟨hbefore, hforward⟩ := readNext_opened hup hfalse
      have hnext := h.opening r room connId s hroom hpeer hopen hpos (hsame ▸ hbefore)
      unfold HelloNext at hnext ⊢
      rw [htold, hsurvivor, hrest]
      by_cases hs : s = socket
      · subst hs
        rw [Function.update_self]
        rw [hup] at hnext
        by_cases hdata : sent.isData = true
        · -- the frame is forwarded, so it is no `hello`; but the next DATA frame is one
          have htoHost := toHost_of_read (L := L) h hroom hpeer hopen hdata now
          have hhello := hforward rfl
          rw [relays_effects, htoHost, Bool.and_true] at hhello
          rw [List.find?_cons_of_pos hdata] at hnext
          change sent.hello = true at hnext
          rw [hhello] at hnext
          cases hnext
        · rw [List.find?_cons_of_neg hdata] at hnext
          exact hnext
      · rw [Function.update_of_ne hs]
        exact hnext

/-! ### Steps of a client -/

/-- **A client does something**: its state and its queue to the relay may change, and nobody is told
anything new. -/
theorem fresh_of_client (h : Fresh N) {N' : Network} (socket : Socket) (hrelay : N'.relay = N.relay)
    (hopened : N'.opened = N.opened) (htold : ∀ s, N'.told s = N.told s)
    (hother : ∀ s, s ≠ socket → N'.up s = N.up s ∧ N'.survivor s = N.survivor s)
    (hquiet : socket ∉ N.relay.greeted → N'.up socket = [])
    (hbehind : (N'.survivor socket).session ≤ (N'.survivor socket).received)
    (hcurrent : N.HasSeat socket → ∀ sent ∈ N'.up socket, sent.isData = true →
      sent.received = N.told socket ∧ sent.session = N.told socket)
    (hopening : N.HasSeat socket → HelloNext N socket → HelloNext N' socket) : Fresh N' := by
  refine ⟨?_, ?_, ?_, ?_, ?_⟩
  · rw [hrelay]
    exact h.seated
  · intro s hs
    rw [hrelay] at hs
    rw [htold]
    refine ⟨?_, (h.quiet s hs).2⟩
    by_cases heq : s = socket
    · rw [heq] at hs ⊢
      exact hquiet hs
    · rw [(hother s heq).1]
      exact (h.quiet s hs).1
  · intro s
    by_cases heq : s = socket
    · rw [heq]
      exact hbehind
    · rw [(hother s heq).2]
      exact h.behind s
  · intro s hseat sent hmem hdata
    unfold Network.HasSeat at hseat
    rw [hrelay] at hseat
    rw [htold]
    by_cases heq : s = socket
    · rw [heq] at hseat hmem ⊢
      exact hcurrent hseat sent hmem hdata
    · rw [(hother s heq).1] at hmem
      exact h.current s hseat sent hmem hdata
  · intro r room connId s hroom hpeer hopen hpos hfalse
    rw [hrelay] at hroom
    rw [htold] at hpos
    rw [hopened] at hfalse
    have hnext := h.opening r room connId s hroom hpeer hopen hpos hfalse
    by_cases heq : s = socket
    · rw [heq] at hpeer hnext ⊢
      exact hopening ⟨r, connId, room, hroom, hpeer⟩ hnext
    · unfold HelloNext at hnext ⊢
      rw [htold, (hother s heq).1, (hother s heq).2]
      exact hnext

/-- A client changes its own state, perhaps with a frame from the relay. -/
theorem fresh_setSurvivor (h : Fresh N) {N' : Network} (socket : Socket)
    (hrelay : N'.relay = N.relay) (hopened : N'.opened = N.opened) (hup : N'.up = N.up)
    (htold : ∀ s, N'.told s = N.told s)
    (hother : ∀ s, s ≠ socket → N'.survivor s = N.survivor s)
    (hsession : (N'.survivor socket).session = (N.survivor socket).session)
    (hreceived : (N.survivor socket).received ≤ (N'.survivor socket).received)
    (hclosed : (N.survivor socket).link.closed = true →
      (N'.survivor socket).link.closed = true) : Fresh N' := by
  refine fresh_of_client h socket hrelay hopened htold
    (fun s hs => ⟨congrFun hup s, hother s hs⟩) ?_ ?_ ?_ ?_
  · intro hs
    rw [hup]
    exact (h.quiet socket hs).1
  · rw [hsession]
    exact Nat.le_trans (h.behind socket) hreceived
  · intro hseat sent hmem hdata
    rw [hup] at hmem
    exact h.current socket hseat sent hmem hdata
  · intro _ hnext
    unfold HelloNext at hnext ⊢
    rw [hup, htold, hsession]
    split at hnext
    · exact hnext
    · exact hnext.imp id hclosed

/-- **A client writes a frame**, perhaps the `hello` of a session it makes just now.  If it has a
seat and the frame is a DATA frame, it has heard of every claim. -/
theorem fresh_written (h : Fresh N) {socket : Socket} {k : Survivor} {data : Relay.Bytes} {hello : Bool}
    (hgreeted : socket ∈ N.relay.greeted) (hreceived : k.received = (N.survivor socket).received)
    (hbehind : k.session ≤ k.received) (hclosed : k.link = (N.survivor socket).link)
    (hpresent : N.HasSeat socket → (Relay.decodeDataFromPeer data).isSome = true →
      k.session = N.told socket)
    (hmade : k.session = (N.survivor socket).session ∨
      (hello = true ∧ (Relay.decodeDataFromPeer data).isSome = true)) :
    Fresh ((N.setSurvivor socket k).write socket data hello) := by
  obtain ⟨hrelay', hdown', hsurvivor', hopened'⟩ := 
    Network.write_fields (N.setSurvivor socket k) socket data hello
  have hk : ((N.setSurvivor socket k).write socket data hello).survivor socket = k := by
    rw [hsurvivor', Network.survivor_setSurvivor_self]
  have htold : ∀ s, ((N.setSurvivor socket k).write socket data hello).told s = N.told s :=
    fun s => Network.told_write.trans (Network.told_setSurvivor hreceived)
  have hup := Network.up_write_self (N.setSurvivor socket k) socket data hello
  rw [Network.survivor_setSurvivor_self, hclosed] at hup
  change _ = if (N.survivor socket).link.closed then N.up socket else N.up socket ++ _ at hup
  have hleast : (N.survivor socket).received ≤ N.told socket := Nat.le_add_right _ _
  refine fresh_of_client h socket hrelay' hopened' htold ?_ (fun hs => absurd hgreeted hs) ?_ ?_ ?_
  · intro s hs
    rw [hsurvivor', Network.survivor_setSurvivor_ne hs]
    exact ⟨Network.up_write_ne hs, rfl⟩
  · rw [hk]
    exact hbehind
  · intro hseat sent hmem hdata
    rw [hup] at hmem
    split at hmem
    · exact h.current socket hseat sent hmem hdata
    · rcases List.mem_append.mp hmem with hold | hnew
      · exact h.current socket hseat sent hold hdata
      · rw [List.mem_singleton.mp hnew] at hdata ⊢
        have hsession := hpresent hseat hdata
        exact ⟨by dsimp only; omega, hsession⟩
  · intro hseat hnext
    unfold HelloNext at hnext ⊢
    rw [htold, hk, hup, hclosed]
    by_cases hdead : (N.survivor socket).link.closed = true
    · rw [if_pos hdead]
      split at hnext
      · exact hnext
      · exact .inr hdead
    · rw [if_neg hdead, List.find?_append]
      cases hfirst : (N.up socket).find? Sent.isData with
      | some sent =>
        rw [hfirst] at hnext
        exact hnext
      | none =>
        rw [hfirst] at hnext
        rw [Option.none_or]
        -- nothing was written since the claim, so a DATA frame now is the `hello`
        have hold : (N.survivor socket).session < N.told socket := hnext.resolve_right hdead
        by_cases hdata : Sent.isData ⟨data, k.received, k.session, hello⟩ = true
        · rw [List.find?_cons_of_pos hdata]
          rcases hmade with hsame | ⟨hhello, -⟩
          · have hsession := hpresent hseat hdata
            omega
          · exact hhello
        · rw [List.find?_cons_of_neg hdata]
          rcases hmade with hsame | ⟨-, hdata'⟩
          · exact .inl (hsame ▸ hold)
          · exact absurd hdata' hdata

theorem fresh_write (h : Fresh N) {socket : Socket} {data : Relay.Bytes}
    (hgreeted : socket ∈ N.relay.greeted)
    (hpresent : N.HasSeat socket → (Relay.decodeDataFromPeer data).isSome = true →
      (N.survivor socket).session = N.told socket) :
    Fresh (N.write socket data false) := by
  have hsame : N.setSurvivor socket (N.survivor socket) = N := by
    unfold Network.setSurvivor
    rw [Function.update_eq_self]
  have hwritten :
      Fresh ((N.setSurvivor socket (N.survivor socket)).write socket data false) :=
    fresh_written h hgreeted rfl (h.behind socket) rfl hpresent (.inl rfl)
  rw [hsame] at hwritten
  exact hwritten

/-- A client re-homes. -/
theorem fresh_rehome (h : Fresh N) {socket : Socket} (payload : Relay.Bytes)
    (hgreeted : socket ∈ N.relay.greeted)
    (harrived : N.HasSeat socket → .hostClaimed ∉ N.down socket) :
    Fresh ((N.setSurvivor socket (N.survivor socket).remake).write socket
      (encodeDataP false payload) true) := by
  refine fresh_written h hgreeted rfl (Nat.le_refl _) rfl ?_ (.inr ⟨rfl, ?_⟩)
  · intro hseat _
    show (N.survivor socket).received = N.told socket
    unfold Network.told
    rw [List.count_eq_zero.mpr (harrived hseat), Nat.add_zero]
  · rw [decode_encodeDataP]
    rfl

/-- A client receives a frame. -/
theorem fresh_receiveNext (h : Fresh N) {socket : Socket} {reaction : Reaction}
    (hgreeted : socket ∈ N.relay.greeted)
    (hpresent : ∀ payload, reaction = .answer payload → N.HasSeat socket →
      (N.survivor socket).session = N.told socket) :
    Fresh (N.receiveNext socket reaction) := by
  unfold Network.receiveNext
  split
  · exact h
  · next frame rest hdown =>
    obtain ⟨hreceived, hsession, hclosed⟩ :=
      (N.survivor socket).onFrame_fields frame reaction
    let N' := { N with down := Function.update N.down socket rest }.setSurvivor socket
      ((N.survivor socket).onFrame frame reaction)
    have hself : N'.survivor socket = (N.survivor socket).onFrame frame reaction :=
      Network.survivor_setSurvivor_self
    -- a HOST_CLAIMED moves from the queue to the count
    have htold : ∀ s, N'.told s = N.told s := by
      intro s
      unfold Network.told
      by_cases hs : s = socket
      · rw [hs, hself, hreceived, hdown]
        show _ + (Function.update N.down socket rest socket).count _ = _
        rw [Function.update_self, List.count_cons]
        by_cases hframe : frame = .hostClaimed
        · rw [if_pos hframe, hframe]
          simp only [beq_self_eq_true, if_true]
          omega
        · rw [if_neg hframe]
          simp only [beq_iff_eq, hframe, if_false, Nat.add_zero]
      · show ((N'.survivor s).received + (Function.update N.down socket rest s).count _) = _
        rw [Function.update_of_ne hs, Network.survivor_setSurvivor_ne hs]
    have hfresh : Fresh N' := by
      refine fresh_setSurvivor h socket rfl rfl rfl htold
        (fun s hs => Network.survivor_setSurvivor_ne hs) ?_ ?_ ?_
      · rw [hself]
        exact hsession
      · rw [hself, hreceived]
        split <;> omega
      · rw [hself]
        exact hclosed
    dsimp only
    split
    · refine fresh_write hfresh hgreeted fun hseat _ => ?_
      rw [hself, hsession, htold]
      exact hpresent _ rfl hseat
    · exact hfresh

/-! ### Runs -/

/-- **One step keeps the invariant**, if it meets the condition. -/
theorem fresh_next (h : Fresh N) {e : NetworkEvent} (henabled : N.Enabled e)
    (hundelayed : Undelayed N e) : Fresh ((network L).next N e) := by
  cases e with
  | hello socket hello now token =>
    refine fresh_relays (L := L) h (e := .hello socket hello now token) henabled ?_
    rintro _ _ _ _ room heq hclaimed peer hpeer sent hmem
    cases heq
    exact hundelayed room hclaimed peer hpeer sent hmem
  | read socket now => exact fresh_readNext (L := L) h henabled.2
  | close socket =>
    exact fresh_relays (L := L) h (e := .close socket) henabled fun _ _ _ _ _ heq => by cases heq
  | sweep now =>
    exact fresh_relays (L := L) h (e := .sweep now) trivial fun _ _ _ _ _ heq => by cases heq
  | send socket data => exact fresh_write h henabled.1 hundelayed
  | receive socket reaction =>
    refine fresh_receiveNext h henabled.1 ?_
    rintro payload rfl
    exact hundelayed
  | timeout socket =>
    have hfields : (N.survivor socket).giveUp.received = (N.survivor socket).received ∧
        (N.survivor socket).giveUp.session = (N.survivor socket).session ∧
        (N.survivor socket).giveUp.link = (N.survivor socket).link := by
      unfold Survivor.giveUp
      split <;> exact ⟨rfl, rfl, rfl⟩
    obtain ⟨hreceived, hsession, hlink⟩ := hfields
    refine fresh_setSurvivor h socket rfl rfl rfl
      (fun s => Network.told_setSurvivor hreceived)
      (fun s hs => Network.survivor_setSurvivor_ne hs) ?_ ?_ ?_
    · exact (congrArg Survivor.session Network.survivor_setSurvivor_self).trans hsession
    · exact Nat.le_of_eq
        ((congrArg Survivor.received Network.survivor_setSurvivor_self).trans hreceived).symm
    · intro hclosed
      show ((N.setSurvivor socket _).survivor socket).link.closed = true
      rw [Network.survivor_setSurvivor_self, hlink]
      exact hclosed
  | rehome socket payload => exact fresh_rehome h payload henabled.1 hundelayed

/-- What the relay sends when it reads the next frame of a socket. -/
theorem readNext_effects {socket : Socket} {now : ℕ} {effect : Effect}
    (hmem : effect ∈ (N.readNext L socket now).2) :
    ∃ sent, (N.up socket).head? = some sent ∧
      effect ∈ (Relay.react L N.relay.relay (.message socket sent.data now)).2 := by
  unfold Network.readNext at hmem
  split at hmem
  · cases hmem
  · next sent rest hup =>
    refine ⟨sent, by rw [hup]; rfl, ?_⟩
    dsimp only at hmem
    split at hmem <;> exact hmem

/-- A frame that reaches a host was written by the peer it is tagged with, in its present
session. -/
theorem isolated_read (h : Fresh N) {socket : Socket} {now : ℕ}
    (hundelayed : Undelayed N (.read socket now)) {r : String} {room : Relay.Room} {connId : ℕ}
    {isBinary : Bool} {payload : Relay.Bytes} {peer : Socket}
    (hroom : N.relay.relay.rooms.get r = some room) (hpeer : room.peers.get connId = some peer)
    (hout : Effect.send room.host (.dataToHost connId isBinary payload) ∈
      (N.readNext L socket now).2) :
    ∃ now' sent, NetworkEvent.read socket now = .read peer now' ∧
      (N.up peer).head? = some sent ∧ sent.received = N.told peer ∧
      sent.session = N.told peer ∧
      (0 < N.told peer → sent.hello = true ∨ N.opened peer = true) := by
  obtain ⟨sent, hhead, hsent⟩ := readNext_effects hout
  obtain ⟨_, _, _, att, room', heq, hatt, -, hconn, hroom', hhost, hopen, hdata⟩ :=
    Relay.peer_of_toHost hsent
  cases heq
  -- the frame goes to the room its sender is attached to, and its connId is the sender's seat there
  have hr : att.roomId = r := h.seated.ownRoom _ _ room' room hroom' hroom hhost
  have hsame : room' = room := by
    rw [hr] at hroom'
    exact Option.some.inj (hroom'.symm.trans hroom)
  subst hsame
  have hown : peer = socket :=
    hundelayed sent hhead hdata att hatt connId hconn room' hroom' peer hpeer
  subst hown
  have hmem : sent ∈ N.up peer := List.mem_of_mem_head? hhead
  obtain ⟨hreceived, hsession⟩ := h.current peer ⟨r, connId, room', hroom, hpeer⟩ sent hmem hdata
  refine ⟨now, sent, rfl, hhead, hreceived, hsession, fun hpos => ?_⟩
  cases hopened : N.opened peer with
  | true => exact .inr rfl
  | false =>
    have hnext := h.opening r room' connId peer hroom hpeer hopen hpos hopened
    have hfirst : (N.up peer).find? Sent.isData = some sent := by
      obtain ⟨rest, hup⟩ := List.head?_eq_some_iff.mp hhead
      rw [hup]
      exact List.find?_cons_of_pos hdata
    unfold HelloNext at hnext
    rw [hfirst] at hnext
    exact .inl hnext

/-- An event other than a message sends no host a frame of a peer. -/
theorem not_toHost_relays {e : Relay.Event} (hno : ∀ socket data now, e ≠ .message socket data now)
    {host : Socket} {connId : ℕ} {isBinary : Bool} {payload : Relay.Bytes} :
    Effect.send host (.dataToHost connId isBinary payload) ∉ (N.relays L e).2 := by
  intro hsent
  rw [relays_effects] at hsent
  obtain ⟨socket, data, now, -, -, heq, -⟩ := Relay.peer_of_toHost hsent
  exact hno socket data now heq

/-- **A step from a fresh state is isolated**, if it meets the condition. -/
theorem isolated_of_fresh (h : Fresh N) {e : NetworkEvent} (henabled : N.Enabled e)
    (hundelayed : Undelayed N e) : Isolated L N e := by
  intro r room connId isBinary payload peer hroom hpeer hout
  cases e with
  | hello socket hello now token => exact absurd hout (not_toHost_relays (by simp))
  | close socket => exact absurd hout (not_toHost_relays (by simp))
  | sweep now => exact absurd hout (not_toHost_relays (by simp))
  | read socket now => exact isolated_read (L := L) h hundelayed hroom hpeer hout
  | send socket data => cases hout
  | receive socket reaction => cases hout
  | timeout socket => cases hout
  | rehome socket payload => cases hout

/-- **Session isolation.**  In every run of the network whose steps all meet the condition, every
step is isolated. -/
theorem isolated_of_undelayed (L : RelayLimits) (es : List NetworkEvent)
    (hvalid : (network L).Valid .init es) (hundelayed : (network L).Along Undelayed .init es) :
    (network L).Along (Isolated L) .init es := by
  have hboth := Machine.along_and.mpr ⟨hvalid, hundelayed⟩
  exact Machine.along_of_invariant (I := Fresh)
    (fun N e h hstep => fresh_next h hstep.1 hstep.2)
    (fun N e h hstep => isolated_of_fresh h hstep.1 hstep.2) hboth fresh_init

/-! ### A frame that is on its way at the claim -/

/-- A host leaves while a frame of its peer is on its way; the relay reads it after the claim. -/
def staleFrameRun : List NetworkEvent :=
  [.hello ⟨1, "10.0.0.1"⟩ (Relay.helloAs .host) 0 "a",
    .hello ⟨2, "10.0.0.2"⟩ (Relay.helloAs .peer) 1 "",
    .hello ⟨3, "10.0.0.3"⟩ (Relay.helloAs .peer) 2 "",
    .send ⟨1, "10.0.0.1"⟩ [Relay.T.handoff], .read ⟨1, "10.0.0.1"⟩ 3,
    .send ⟨2, "10.0.0.2"⟩ (encodeDataP true [7]), .close ⟨3, "10.0.0.3"⟩,
    .hello ⟨4, "10.0.0.3"⟩ (Relay.helloAs .host) 4 "b", .read ⟨2, "10.0.0.2"⟩ 5]

theorem stale_frame_forwarded :
    (network Relay.defaultLimits).Valid .init staleFrameRun ∧
      ¬ (network Relay.defaultLimits).Along (Isolated Relay.defaultLimits) .init staleFrameRun := by
  refine ⟨by decide +kernel, fun halong => ?_⟩
  have hstep := Machine.along_iff_split.mp halong (staleFrameRun.take 8)
    (.read ⟨2, "10.0.0.2"⟩ 5) [] rfl
  obtain ⟨now, sent, -, hhead, hreceived, -⟩ :=
    hstep "65727231" _ 1 true [7] ⟨2, "10.0.0.2"⟩ rfl rfl (by decide +kernel)
  -- the frame was written before the relay told its sender of the claim
  have hsent : ((((network Relay.defaultLimits).exec .init (staleFrameRun.take 8)).up
      ⟨2, "10.0.0.2"⟩).head?.map Sent.received) = some 0 := by decide +kernel
  have htold : ((network Relay.defaultLimits).exec .init (staleFrameRun.take 8)).told
      ⟨2, "10.0.0.2"⟩ = 1 := by decide +kernel
  rw [hhead, Option.map_some, hreceived, htold] at hsent
  cases hsent

/-- A handoff in which every frame arrives in time. -/
def timelyRun : List NetworkEvent :=
  [.hello ⟨1, "10.0.0.1"⟩ (Relay.helloAs .host) 0 "a",
    .hello ⟨2, "10.0.0.2"⟩ (Relay.helloAs .peer) 1 "",
    .send ⟨2, "10.0.0.2"⟩ (encodeDataP true [7]), .read ⟨2, "10.0.0.2"⟩ 2,
    .send ⟨1, "10.0.0.1"⟩ [Relay.T.handoff], .read ⟨1, "10.0.0.1"⟩ 3,
    .send ⟨1, "10.0.0.1"⟩ [Relay.T.dataH, 0, 0, 0, 1, 1, 9], .read ⟨1, "10.0.0.1"⟩ 3,
    .receive ⟨2, "10.0.0.2"⟩ .nothing, .receive ⟨2, "10.0.0.2"⟩ .hostTransfer,
    .hello ⟨4, "10.0.0.3"⟩ (Relay.helloAs .host) 4 "b",
    .receive ⟨2, "10.0.0.2"⟩ .nothing, .rehome ⟨2, "10.0.0.2"⟩ [8], .read ⟨2, "10.0.0.2"⟩ 5]

theorem isolated_of_undelayed_timelyRun :
    (network Relay.defaultLimits).Along (Isolated Relay.defaultLimits) .init timelyRun :=
  isolated_of_undelayed Relay.defaultLimits timelyRun (by decide +kernel) (by decide +kernel)

end ScreenSharing.Handoff
