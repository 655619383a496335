import ScreenSharing.Relay.Limits
import ScreenSharing.Relay.Membership

/-!
# Rooms do not interfere

The relay keeps all rooms in one table and all sockets in another, and reads both by keys that come
from the network.  What the members of a room see of it depends on their room alone: take away the
events of all other sockets, and they are sent the same frames and closed at the same points.

A socket belongs to the room its HELLO names (`home`).  `Local` says that an event of a socket touches
the room and the attachment of its home, and tells only sockets of that home; `local_react` proves it of
every event.  `Purged` relates the relay to the one that has never met the other rooms, and
`purged_next` keeps it over one event of the room.  The only ties between rooms are the limits: the
number of rooms, and the windows of an ip.  A run in which they refuse nobody stays such a run when
events are taken away (`Fewer`).
-/

namespace ScreenSharing.Relay

open Lib SlidingWindow

variable {L : RelayLimits} {home : Socket → String} {r : String} {now clock : ℕ}
  {F P : State} {socket : Socket}

/-- The socket that is called. -/
def Effect.target : Effect → Socket
  | .send dest _ => dest
  | .close socket _ _ => socket

/-- Does the effect concern a socket of room `r`? -/
def Effect.concerns (home : Socket → String) (r : String) (effect : Effect) : Bool :=
  home effect.target = r

/-- Does the event come from a socket of room `r`, or is it a sweep? -/
def Event.concerns (home : Socket → String) (r : String) : Event → Bool
  | .hello socket _ _ _ => home socket = r
  | .message socket _ _ => home socket = r
  | .close socket => home socket = r
  | .sweep _ => true

/-- The socket says HELLO for its home. -/
def Event.AtHome (home : Socket → String) : Event → Prop
  | .hello socket greeting _ _ => greeting.roomId = home socket
  | _ => True

/-! ### An event of a socket is local to its home -/

/-- Everybody is where they belong. -/
structure Homed (home : Socket → String) (R : State) : Prop where
  roomId : ∀ r room, R.rooms.get r = some room → room.roomId = r
  host : ∀ r room, R.rooms.get r = some room → home room.host = r
  peer : ∀ r room, R.rooms.get r = some room →
    ∀ connId socket, room.peers.get connId = some socket → home socket = r
  attached : ∀ socket att, R.attached.get socket = some att → att.roomId = home socket

theorem homed_new : Homed home new where
  roomId r room h := by cases h
  host r room h := by cases h
  peer r room h := by cases h
  attached socket att h := by cases h

/-- A step of `socket` touches its own home only. -/
structure Local (home : Socket → String) (socket : Socket) (R : State)
    (res : State × List Effect) : Prop where
  rooms : ∀ r, r ≠ home socket → res.1.rooms.get r = R.rooms.get r
  attached : ∀ other, other ≠ socket → res.1.attached.get other = R.attached.get other
  effects : ∀ effect ∈ res.2, home effect.target = home socket
  homed : Homed home res.1

/-- The same tables. -/
theorem Homed.same (h : Homed home F) {R' : State} (hrooms : R'.rooms = F.rooms)
    (hatt : R'.attached = F.attached) : Homed home R' := by
  constructor
  · rw [hrooms]
    exact h.roomId
  · rw [hrooms]
    exact h.host
  · rw [hrooms]
    exact h.peer
  · rw [hatt]
    exact h.attached

theorem local_same (h : Homed home F) {R' : State} {effects : List Effect}
    (hrooms : R'.rooms = F.rooms) (hatt : R'.attached = F.attached)
    (heffects : ∀ effect ∈ effects, home effect.target = home socket) :
    Local home socket F (R', effects) where
  rooms r _ := by
    show R'.rooms.get r = _
    rw [hrooms]
  attached other _ := by
    show R'.attached.get other = _
    rw [hatt]
  effects := heffects
  homed := h.same hrooms hatt

theorem local_kick (h : Homed home F) {R' : State} (reason : RejectReason)
    (hrooms : R'.rooms = F.rooms) (hatt : R'.attached = F.attached) :
    Local home socket F (R', kick socket reason) := by
  refine local_same h hrooms hatt fun effect hmem => ?_
  rcases List.mem_pair.mp hmem with rfl | rfl <;> rfl

/-- The home room is set, the attachment of the socket too, perhaps. -/
theorem local_set (h : Homed home F) {R' : State} {effects : List Effect} {room : Room}
    (hrooms : R'.rooms = F.rooms.set (home socket) room)
    (hatt : R'.attached = F.attached ∨ R'.attached = F.attached.delete socket ∨
      ∃ att, att.roomId = home socket ∧ R'.attached = F.attached.set socket att)
    (hroomId : room.roomId = home socket) (hhost : home room.host = home socket)
    (hpeers : ∀ connId peer, room.peers.get connId = some peer → home peer = home socket)
    (heffects : ∀ effect ∈ effects, home effect.target = home socket) :
    Local home socket F (R', effects) := by
  refine ⟨fun r hr => ?_, fun other hother => ?_, heffects, ?_, ?_, ?_, ?_⟩
  · show R'.rooms.get r = _
    rw [hrooms, InsertionMap.get_set_ne _ _ hr]
  · show R'.attached.get other = _
    rcases hatt with heq | heq | ⟨att, -, heq⟩
    · rw [heq]
    · rw [heq, InsertionMap.get_delete_ne _ hother]
    · rw [heq, InsertionMap.get_set_ne _ _ hother]
  · show ∀ r room, R'.rooms.get r = some room → _
    rw [hrooms]
    exact InsertionMap.forall_get_set h.roomId hroomId
  · show ∀ r room, R'.rooms.get r = some room → _
    rw [hrooms]
    exact InsertionMap.forall_get_set h.host hhost
  · show ∀ r room, R'.rooms.get r = some room → _
    rw [hrooms]
    exact InsertionMap.forall_get_set h.peer hpeers
  · show ∀ socket att, R'.attached.get socket = some att → _
    rcases hatt with heq | heq | ⟨att, hatt, heq⟩
    · rw [heq]
      exact h.attached
    · rw [heq]
      exact InsertionMap.forall_get_delete h.attached
    · rw [heq]
      exact InsertionMap.forall_get_set h.attached hatt

theorem Homed.deletePeer (h : Homed home F) {r : String} {room : Room}
    (hroom : F.rooms.get r = some room) (c₀ : ℕ) : ∀ connId peer,
    (room.peers.delete c₀).get connId = some peer → home peer = r :=
  InsertionMap.forall_get_delete (h.peer r room hroom)

theorem local_hello (h : Homed home F) (socket : Socket) {hello : Hello} (token : String)
    (hhome : hello.roomId = home socket) :
    Local home socket F (onHello L now token socket hello F) := by
  have hout := onHello_outcome L now token socket hello F
  generalize onHello L now token socket hello F = res at hout
  cases hout with
  | refused reason hrooms hatt => exact local_kick h reason hrooms hatt
  | claimed hfresh hrole hroom hclaim hproto =>
    rename_i room
    rw [hhome] at hroom
    have hroomId : room.roomId = home socket := h.roomId _ room hroom
    unfold claimHandoff
    have hset : F.rooms.set room.roomId
        { room with host := socket, handoffDeadline := none, hostToken := token } =
        F.rooms.set (home socket)
          { room with host := socket, handoffDeadline := none, hostToken := token } := by rw [hroomId]
    refine local_set h hset (.inr (.inr ⟨_, hroomId, rfl⟩)) hroomId rfl (h.peer _ room hroom)
      fun effect hmem => ?_
    rcases List.mem_cons.mp hmem with rfl | hrest
    · rfl
    · obtain ⟨⟨connId, peer⟩, hentry, heffect⟩ := List.mem_flatMap.mp hrest
      rcases List.mem_pair.mp heffect with rfl | rfl
      · rfl
      · exact h.peer _ room hroom connId peer ((InsertionMap.mem_entries _ _ _).mp hentry)
  | created hfresh hrole hroom hrooms hatt =>
    rw [hhome] at hrooms hatt
    refine local_set h hrooms (.inr (.inr ⟨_, rfl, hatt⟩)) rfl rfl (fun _ _ h => by cases h)
      fun effect hmem => ?_
    cases List.mem_singleton.mp hmem
    rfl
  | joined hfresh hrole hroom hrooms hatt =>
    rename_i R' room
    rw [hhome] at hroom hrooms hatt
    have hhost := h.host _ room hroom
    refine local_set h hrooms (.inr (.inr ⟨_, rfl, hatt⟩)) (h.roomId _ room hroom) hhost
      (InsertionMap.forall_get_set (h.peer _ room hroom) rfl) fun effect hmem => ?_
    rcases List.mem_pair.mp hmem with rfl | rfl
    · rfl
    · exact hhost

theorem local_message (h : Homed home F) (socket : Socket) (data : Bytes) :
    Local home socket F (onMessage now socket data F) := by
  have hout := onMessage_outcome now socket data F
  generalize onMessage now socket data F = res at hout
  cases hout with
  | ignored => exact local_same h rfl rfl fun effect hmem => by cases hmem
  | ponged hping =>
    refine local_same h rfl rfl fun effect hmem => ?_
    cases List.mem_singleton.mp hmem
    rfl
  | kicked hatt hrole hroom hkick hpeer =>
    rename_i att room connId peer
    have hhome := h.attached socket att hatt
    rw [hhome] at hroom ⊢
    refine local_set h rfl (.inl rfl) (h.roomId _ room hroom) (h.host _ room hroom)
      (h.deletePeer hroom connId) fun effect hmem => ?_
    cases List.mem_singleton.mp hmem
    exact h.peer _ room hroom connId peer hpeer
  | handedOff hatt hrole hroom hhost htype =>
    rename_i att room
    have hhome := h.attached socket att hatt
    rw [hhome] at hroom ⊢
    exact local_set h rfl (.inl rfl) (h.roomId _ room hroom) (h.host _ room hroom)
      (h.peer _ room hroom) fun effect hmem => by cases hmem
  | toPeer hatt hrole hroom hframe hpeer =>
    rename_i att room frame peer
    have hhome := h.attached socket att hatt
    rw [hhome] at hroom
    refine local_same h rfl rfl fun effect hmem => ?_
    cases List.mem_singleton.mp hmem
    exact h.peer _ room hroom frame.connId peer hpeer
  | toHost hatt hrole hroom hopen hframe hconn =>
    rename_i att room frame connId
    have hhome := h.attached socket att hatt
    rw [hhome] at hroom
    refine local_same h rfl rfl fun effect hmem => ?_
    cases List.mem_singleton.mp hmem
    exact h.host _ room hroom

/-- The sockets that hear of the end of a room. -/
theorem concerned_of_teardown (h : Homed home F) {r : String} {room : Room}
    (hroom : F.rooms.get r = some room) {R : State} :
    ∀ effect ∈ (teardownRoom room R).2, home effect.target = r := by
  intro effect hmem
  obtain ⟨peer, hpeer, heffect⟩ := List.mem_flatMap.mp hmem
  obtain ⟨connId, hget⟩ := (InsertionMap.mem_values _ _).mp hpeer
  have hhome := h.peer r room hroom connId peer hget
  rcases List.mem_pair.mp heffect with rfl | rfl <;> exact hhome

theorem local_close (h : Homed home F) (socket : Socket) : Local home socket F (onClose socket F) := by
  have hout := onClose_outcome socket F
  generalize onClose socket F = res at hout
  have hdetached : Homed home { F with attached := F.attached.delete socket } :=
    ⟨h.roomId, h.host, h.peer, InsertionMap.forall_get_delete h.attached⟩
  cases hout with
  | unattached => exact local_same h rfl rfl fun effect hmem => by cases hmem
  | detached =>
    exact ⟨fun _ _ => rfl, fun other hother => InsertionMap.get_delete_ne _ hother,
      (fun effect hmem => by cases hmem), hdetached⟩
  | toredown hatt hrole hroom hhost hopen =>
    rename_i att room
    have hhome := h.attached socket att hatt
    rw [hhome] at hroom
    refine ⟨fun r hr => ?_, fun other hother => InsertionMap.get_delete_ne _ hother,
      concerned_of_teardown h hroom, InsertionMap.forall_get_delete h.roomId,
      InsertionMap.forall_get_delete h.host, InsertionMap.forall_get_delete h.peer,
      hdetached.attached⟩
    refine InsertionMap.get_delete_ne _ ?_
    rw [h.roomId _ room hroom]
    exact hr
  | left hatt hrole hconn hroom =>
    rename_i att room connId
    have hhome := h.attached socket att hatt
    rw [hhome] at hroom ⊢
    have hhost := h.host _ room hroom
    refine local_set h rfl (.inr (.inl rfl)) (h.roomId _ room hroom) hhost
      (h.deletePeer hroom connId) fun effect hmem => ?_
    cases List.mem_singleton.mp hmem
    exact hhost

/-- A sweep moves nobody. -/
theorem homed_sweep (h : Homed home F) (now : ℕ) : Homed home (sweep L now F).1 := by
  have hget : ∀ {r room}, (sweep L now F).1.rooms.get r = some room → F.rooms.get r = some room := by
    intro r room hroom
    rw [sweep_rooms_get L now F h.roomId] at hroom
    split at hroom
    · next hold =>
      split at hroom
      · cases hroom
      · rw [hold, hroom]
    · cases hroom
  refine ⟨fun r room hroom => h.roomId r room (hget hroom), fun r room hroom => h.host r room (hget hroom),
    fun r room hroom => h.peer r room (hget hroom), ?_⟩
  rw [sweep_attached]
  exact h.attached

/-! ### The relay without the other rooms -/

/-- `P` is `F` without the other rooms. -/
structure Purged (home : Socket → String) (r : String) (F P : State) : Prop where
  room : P.rooms.get r = F.rooms.get r
  otherRoom : ∀ r', r' ≠ r → P.rooms.get r' = none
  attached : ∀ socket, home socket = r → P.attached.get socket = F.attached.get socket
  otherAttached : ∀ socket, home socket ≠ r → P.attached.get socket = none

theorem purged_new : Purged home r new new := ⟨rfl, fun _ _ => rfl, fun _ _ => rfl, fun _ _ => rfl⟩

theorem Purged.same (h : Purged home r F P) {F' P' : State} (hF : F'.rooms = F.rooms)
    (hFatt : F'.attached = F.attached) (hP : P'.rooms = P.rooms) (hPatt : P'.attached = P.attached) :
    Purged home r F' P' := by
  constructor
  · rw [hF, hP]
    exact h.room
  · rw [hP]
    exact h.otherRoom
  · rw [hFatt, hPatt]
    exact h.attached
  · rw [hPatt]
    exact h.otherAttached

/-- **What happens at another home** is not noticed. -/
theorem Purged.elsewhere (h : Purged home r F P) {res : State × List Effect}
    (hlocal : Local home socket F res) (hother : home socket ≠ r) : Purged home r res.1 P where
  room := by rw [hlocal.rooms r (Ne.symm hother), h.room]
  otherRoom := h.otherRoom
  attached s hs := by
    have hne : s ≠ socket := by
      rintro rfl
      exact hother hs
    rw [hlocal.attached s hne, h.attached s hs]
  otherAttached := h.otherAttached

/-- The two relays react alike. -/
structure Agree (home : Socket → String) (r : String) (res res' : State × List Effect) : Prop where
  out : res'.2 = res.2
  purged : Purged home r res.1 res'.1

/-- The room is set in both. -/
theorem Purged.setRoom (h : Purged home r F P) {F' P' : State} (room : Room)
    (hF : F'.rooms = F.rooms.set r room) (hP : P'.rooms = P.rooms.set r room)
    (hattached : ∀ socket, home socket = r → P'.attached.get socket = F'.attached.get socket)
    (hother : ∀ socket, home socket ≠ r → P'.attached.get socket = none) : Purged home r F' P' where
  room := by rw [hF, hP, InsertionMap.get_set_self, InsertionMap.get_set_self]
  otherRoom r' hr' := by
    rw [hP, InsertionMap.get_set_ne _ _ hr']
    exact h.otherRoom r' hr'
  attached := hattached
  otherAttached := hother

theorem Purged.attached_set (h : Purged home r F P) (hs : home socket = r) (att : Attached) :
    (∀ s, home s = r → (P.attached.set socket att).get s = (F.attached.set socket att).get s) ∧
      ∀ s, home s ≠ r → (P.attached.set socket att).get s = none := by
  refine ⟨fun s hhome => ?_, fun s hhome => ?_⟩
  · rw [InsertionMap.get_set, InsertionMap.get_set, h.attached s hhome]
  · have hne : s ≠ socket := by
      rintro rfl
      exact hhome hs
    rw [InsertionMap.get_set_ne _ _ hne]
    exact h.otherAttached s hhome

theorem Purged.attached_delete (h : Purged home r F P) (socket : Socket) :
    (∀ s, home s = r → (P.attached.delete socket).get s = (F.attached.delete socket).get s) ∧
      ∀ s, home s ≠ r → (P.attached.delete socket).get s = none := by
  refine ⟨fun s hhome => ?_, fun s hhome => ?_⟩
  · rw [InsertionMap.get_delete, InsertionMap.get_delete, h.attached s hhome]
  · rw [InsertionMap.get_delete, h.otherAttached s hhome]
    split <;> rfl

theorem agree_message (h : Purged home r F P) (hF : Homed home F) (hs : home socket = r)
    (now : ℕ) (data : Bytes) :
    Agree home r (onMessage now socket data F) (onMessage now socket data P) := by
  have hset : ∀ (room : Room) (effects : List Effect),
      Agree home r ({ F with rooms := F.rooms.set r room }, effects)
        ({ P with rooms := P.rooms.set r room }, effects) := fun room effects =>
    ⟨rfl, h.setRoom room rfl rfl h.attached h.otherAttached⟩
  have hkeep : ∀ effects : List Effect, Agree home r (F, effects) (P, effects) := fun _ => ⟨rfl, h⟩
  unfold onMessage
  by_cases hping : data.head? = some T.ping
  · rw [if_pos hping, if_pos hping]
    exact hkeep _
  · rw [if_neg hping, if_neg hping, h.attached socket hs]
    cases hatt : F.attached.get socket with
    | none => exact hkeep _
    | some att =>
      have hroomId : att.roomId = r := (hF.attached socket att hatt).trans hs
      dsimp only
      rw [hroomId, h.room]
      cases F.rooms.get r with
      | none => exact hkeep _
      | some room =>
        dsimp only
        cases att.role with
        | host =>
          dsimp only
          unfold onHostMessage
          by_cases hkick : data.head? = some T.kick
          · rw [if_pos hkick, if_pos hkick]
            unfold onKick
            rw [hroomId]
            cases decodeKick data with
            | none => exact hkeep _
            | some connId =>
              dsimp only
              cases room.peers.get connId with
              | none => exact hkeep _
              | some peer => exact hset _ _
          · rw [if_neg hkick, if_neg hkick]
            by_cases hhandoff : data.head? = some T.handoff
            · rw [if_pos hhandoff, if_pos hhandoff]
              unfold onHandoff
              rw [hroomId]
              by_cases hhost : room.host = socket
              · rw [if_pos hhost, if_pos hhost]
                exact hset _ _
              · rw [if_neg hhost, if_neg hhost]
                exact hkeep _
            · rw [if_neg hhandoff, if_neg hhandoff]
              cases decodeDataFromHost data with
              | none => exact hkeep _
              | some frame =>
                dsimp only
                cases room.peers.get frame.connId with
                | none => exact hkeep _
                | some peer => exact hkeep _
        | peer =>
          dsimp only
          unfold onPeerMessage
          by_cases hopen : room.handoffDeadline.isSome = true
          · rw [if_pos hopen, if_pos hopen]
            exact hkeep _
          · rw [if_neg hopen, if_neg hopen]
            cases decodeDataFromPeer data with
            | none => exact hkeep _
            | some frame =>
              cases att.connId with
              | none => exact hkeep _
              | some connId => exact hkeep _

theorem agree_close (h : Purged home r F P) (hF : Homed home F) (hs : home socket = r) :
    Agree home r (onClose socket F) (onClose socket P) := by
  obtain ⟨hatt₁, hatt₂⟩ := h.attached_delete socket
  have hdetached : ∀ effects : List Effect,
      Agree home r ({ F with attached := F.attached.delete socket }, effects)
        ({ P with attached := P.attached.delete socket }, effects) := fun effects =>
    ⟨rfl, h.room, h.otherRoom, hatt₁, hatt₂⟩
  unfold onClose
  rw [h.attached socket hs]
  cases hatt : F.attached.get socket with
  | none => exact ⟨rfl, h⟩
  | some att =>
    have hroomId : att.roomId = r := (hF.attached socket att hatt).trans hs
    dsimp only
    rw [hroomId, h.room]
    cases hroom : F.rooms.get r with
    | none => exact hdetached _
    | some room =>
      dsimp only
      cases att.role with
      | host =>
        dsimp only
        by_cases hcur : room.host ≠ socket ∨ room.handoffDeadline.isSome = true
        · rw [if_pos hcur, if_pos hcur]
          exact hdetached _
        · rw [if_neg hcur, if_neg hcur]
          refine ⟨rfl, ?_, fun r' hr' => ?_, hatt₁, hatt₂⟩
          · show (P.rooms.delete room.roomId).get r = (F.rooms.delete room.roomId).get r
            rw [InsertionMap.get_delete, InsertionMap.get_delete, h.room]
          · show (P.rooms.delete room.roomId).get r' = none
            rw [InsertionMap.get_delete, h.otherRoom r' hr']
            split <;> rfl
      | peer =>
        dsimp only
        cases att.connId with
        | none => exact hdetached _
        | some connId => exact ⟨rfl, h.setRoom _ rfl rfl hatt₁ hatt₂⟩

/-! ### The limits -/

/-- At every time from `clock` on, no more hits count in `P` than in `F`. -/
def Fewer (L : RelayLimits) (clock : ℕ) (F P : State) : Prop :=
  ∀ ip kind now, clock ≤ now → (fresh L.rateWindowMs now (hits P ip kind)).length ≤
    (fresh L.rateWindowMs now (hits F ip kind)).length

theorem fewer_new : Fewer L 0 new new := fun _ _ _ _ => Nat.le_refl _

theorem Fewer.later (h : Fewer L clock F P) (hle : clock ≤ now) : Fewer L now F P :=
  fun ip kind t ht => h ip kind t (Nat.le_trans hle ht)

theorem Fewer.trans {Q : State} (h : Fewer L clock F P) (h' : Fewer L clock Q F) :
    Fewer L clock Q P := fun ip kind t ht =>
  Nat.le_trans (h ip kind t ht) (h' ip kind t ht)

theorem fewer_of_rate {F' P' : State} (h : Fewer L clock F P) (hF : F'.rate = F.rate)
    (hP : P'.rate = P.rate) : Fewer L clock F' P' := by
  unfold Fewer hits at h ⊢
  rw [hF, hP]
  exact h

/-- An attempt counts at least what counted before. -/
theorem fresh_allow (ip : String) (kind : RateKind) (ip' : String) (kind' : RateKind) {t : ℕ}
    (ht : now ≤ t) : fresh L.rateWindowMs t (hits (allow L now ip kind F).1 ip' kind') =
      fresh L.rateWindowMs t (hits F ip' kind') ++
        if (ip' = ip ∧ kind' = kind) ∧ (allow L now ip kind F).2 = true then
          fresh L.rateWindowMs t [now] else [] := by
  rw [hits_allow]
  by_cases hsame : ip' = ip ∧ kind' = kind
  · rw [if_pos hsame, hsame.1, hsame.2, fresh_append, fresh_fresh ht]
    by_cases hallowed : (allow L now ip kind F).2 = true
    · rw [if_pos hallowed, if_pos ⟨⟨rfl, rfl⟩, hallowed⟩]
    · rw [if_neg hallowed, if_neg fun hboth => hallowed hboth.2]
      rfl
  · rw [if_neg hsame, if_neg fun hboth => hsame hboth.1, List.append_nil]

/-- An attempt that `F` alone makes. -/
theorem fewer_allow (ip : String) (kind : RateKind) : Fewer L now (allow L now ip kind F).1 F := by
  intro ip' kind' t ht
  rw [fresh_allow ip kind ip' kind' ht, List.length_append]
  exact Nat.le_add_right _ _

theorem Fewer.allowed (h : Fewer L clock F P) (hle : clock ≤ now) {ip : String} {kind : RateKind}
    (hallowed : (allow L now ip kind F).2 = true) : (allow L now ip kind P).2 = true := by
  rw [allow_verdict, decide_eq_true_eq] at hallowed ⊢
  exact Nat.lt_of_le_of_lt (h ip kind now hle) hallowed

/-- An attempt that both make, and that `F` allows. -/
theorem Fewer.attempt (h : Fewer L now F P) {ip : String} {kind : RateKind}
    (hallowed : (allow L now ip kind F).2 = true) :
    Fewer L now (allow L now ip kind F).1 (allow L now ip kind P).1 := by
  intro ip' kind' t ht
  rw [fresh_allow ip kind ip' kind' ht, fresh_allow ip kind ip' kind' ht, hallowed,
    h.allowed (Nat.le_refl now) hallowed, List.length_append, List.length_append]
  exact Nat.add_le_add_right (h ip' kind' t ht) _

/-- A sweep forgets nothing that counts. -/
theorem fresh_sweep (ip : String) (kind : RateKind) {t : ℕ} (ht : now ≤ t) :
    fresh L.rateWindowMs t (hits (sweep L now F).1 ip kind) =
      fresh L.rateWindowMs t (hits F ip kind) := by
  rcases @hits_sweep L F now ip kind with heq | ⟨hnil, hidle⟩
  · rw [heq]
  · have hgone : fresh L.rateWindowMs t (fresh L.rateWindowMs now (hits F ip kind)) =
        fresh L.rateWindowMs t (hits F ip kind) := fresh_fresh ht
    rw [hnil, ← hgone, hidle]

theorem Fewer.sweep (h : Fewer L now F P) :
    Fewer L now (Relay.sweep L now F).1 (Relay.sweep L now P).1 := by
  intro ip kind t ht
  rw [fresh_sweep ip kind ht, fresh_sweep ip kind ht]
  exact h ip kind t ht

theorem fewer_hello (token : String) (socket : Socket) (hello : Hello) :
    Fewer L now (onHello L now token socket hello F).1 F := by
  have hverdict := onHello_verdict L now token socket hello F
  generalize onHello L now token socket hello F = res at hverdict
  have hsame : Fewer L now F F := fun _ _ _ _ => Nat.le_refl _
  cases hverdict with
  | declined => exact hsame
  | limited kind => exact fewer_allow socket.ip kind
  | «exists» => exact fewer_allow socket.ip .creates
  | claimed => exact fewer_of_rate hsame rfl rfl
  | created => exact fewer_of_rate (fewer_allow socket.ip .creates) rfl rfl
  | joined => exact fewer_of_rate (fewer_allow socket.ip .joins) rfl rfl

/-- What `F` does on its own leaves no fewer hits in it. -/
theorem Fewer.elsewhere (h : Fewer L clock F P) {e : Event} (hle : clock ≤ e.time.getD clock) (hsweep : ∀ now, e ≠ .sweep now) :
    Fewer L (e.time.getD clock) (react L F e).1 P := by
  cases e with
  | hello socket hello now token => exact (h.later hle).trans (fewer_hello token socket hello)
  | message socket data now => exact fewer_of_rate (h.later hle) (onMessage_rate ..) rfl
  | close socket => exact fewer_of_rate h (onClose_rate ..) rfl
  | sweep now => exact absurd rfl (hsweep now)

/-- A refusal that other rooms have a part in. -/
def Effect.overLimit : Effect → Bool
  | .send _ (.reject .serverFull) | .send _ (.reject .rateLimited) => true
  | _ => false

/-- The event is not refused because of a limit. -/
def WithinLimit (L : RelayLimits) (R : State) (e : Event) : Prop :=
  ∀ effect ∈ (react L R e).2, effect.overLimit = false

instance (L : RelayLimits) (R : State) (e : Event) : Decidable (WithinLimit L R e) :=
  inferInstanceAs (Decidable (∀ effect ∈ (react L R e).2, effect.overLimit = false))

theorem Purged.size_le (h : Purged home r F P) : P.rooms.size ≤ F.rooms.size := by
  refine InsertionMap.size_le_of_has fun r' room hroom => ?_
  by_cases hr : r' = r
  · subst hr
    exact ⟨room, by rw [← h.room, hroom]⟩
  · rw [h.otherRoom r' hr] at hroom
    cases hroom

/-- The reaction to one HELLO, with its windows. -/
structure AgreeHello (L : RelayLimits) (home : Socket → String) (r : String) (now : ℕ)
    (res res' : State × List Effect) : Prop extends Agree home r res res' where
  fewer : Fewer L now res.1 res'.1

theorem agree_createRoom (h : Purged home r F P) (hfewer : Fewer L now F P) (hs : home socket = r)
    {hello : Hello} (hhome : hello.roomId = r) (token : String)
    (hlimit : ∀ effect ∈ (createRoom L now token socket hello F).2, effect.overLimit = false) :
    AgreeHello L home r now (createRoom L now token socket hello F)
      (createRoom L now token socket hello P) := by
  unfold createRoom at hlimit ⊢
  by_cases hfull : F.rooms.size ≥ L.maxRooms
  · rw [if_pos hfull] at hlimit
    cases hlimit _ List.mem_cons_self
  · have hfullP : ¬ P.rooms.size ≥ L.maxRooms := fun hge => hfull (Nat.le_trans hge h.size_le)
    rw [if_neg hfull] at hlimit ⊢
    rw [if_neg hfullP]
    dsimp only at hlimit ⊢
    cases hallowed : (allow L now socket.ip .creates F).2 with
    | false =>
      rw [hallowed] at hlimit
      cases hlimit _ List.mem_cons_self
    | true =>
      have hallowedP := hfewer.allowed (Nat.le_refl now) hallowed
      have hboth := hfewer.attempt hallowed
      rw [hallowedP, Bool.not_true, if_neg Bool.false_ne_true, if_neg Bool.false_ne_true,
        allow_rooms, allow_rooms, allow_attached, allow_attached, hhome]
      have hhas : P.rooms.has r = F.rooms.has r := by
        unfold InsertionMap.has
        rw [h.room]
      rw [hhas]
      by_cases hthere : F.rooms.has r = true
      · rw [if_pos hthere, if_pos hthere]
        exact ⟨⟨rfl, h.same (allow_rooms ..) (allow_attached ..) (allow_rooms ..)
          (allow_attached ..)⟩, hboth⟩
      · rw [if_neg hthere, if_neg hthere]
        obtain ⟨hatt₁, hatt₂⟩ := h.attached_set hs ⟨.host, r, none⟩
        exact ⟨⟨rfl, h.setRoom _ rfl rfl hatt₁ hatt₂⟩, fewer_of_rate hboth rfl rfl⟩

theorem agree_peerHello (h : Purged home r F P) (hfewer : Fewer L now F P) (hs : home socket = r)
    {hello : Hello} (hhome : hello.roomId = r)
    (hlimit : ∀ effect ∈ (peerHello L now socket hello F).2, effect.overLimit = false) :
    AgreeHello L home r now (peerHello L now socket hello F) (peerHello L now socket hello P) := by
  unfold peerHello at hlimit ⊢
  rw [hhome] at hlimit ⊢
  rw [h.room]
  cases hroom : F.rooms.get r with
  | none => exact ⟨⟨rfl, h⟩, hfewer⟩
  | some room =>
    rw [hroom] at hlimit
    dsimp only at hlimit ⊢
    by_cases hfull : room.peers.size ≥ L.maxPeersPerRoom
    · rw [if_pos hfull, if_pos hfull]
      exact ⟨⟨rfl, h⟩, hfewer⟩
    · rw [if_neg hfull] at hlimit ⊢
      rw [if_neg hfull]
      cases hallowed : (allow L now socket.ip .joins F).2 with
      | false =>
        rw [hallowed] at hlimit
        cases hlimit _ List.mem_cons_self
      | true =>
        have hallowedP := hfewer.allowed (Nat.le_refl now) hallowed
        rw [hallowedP, Bool.not_true, if_neg Bool.false_ne_true, if_neg Bool.false_ne_true,
          allow_rooms, allow_rooms, allow_attached, allow_attached]
        obtain ⟨hatt₁, hatt₂⟩ := h.attached_set hs ⟨.peer, r, some room.nextConnId⟩
        exact ⟨⟨rfl, h.setRoom _ rfl rfl hatt₁ hatt₂⟩,
          fewer_of_rate (hfewer.attempt hallowed) rfl rfl⟩

/-- **A HELLO at home is answered alike.** -/
theorem agree_hello (h : Purged home r F P) (hF : Homed home F) (hfewer : Fewer L now F P)
    (hs : home socket = r) {hello : Hello} (hhome : hello.roomId = r) (token : String)
    (hlimit : ∀ effect ∈ (onHello L now token socket hello F).2, effect.overLimit = false) :
    AgreeHello L home r now (onHello L now token socket hello F)
      (onHello L now token socket hello P) := by
  have hkick : ∀ reason, AgreeHello L home r now (F, kick socket reason) (P, kick socket reason) :=
    fun _ => ⟨⟨rfl, h⟩, hfewer⟩
  have hhas : P.attached.has socket = F.attached.has socket := by
    unfold InsertionMap.has
    rw [h.attached socket hs]
  unfold onHello at hlimit ⊢
  rw [hhas]
  by_cases hatt : F.attached.has socket = true
  · rw [if_pos hatt, if_pos hatt]
    exact hkick _
  · rw [if_neg hatt] at hlimit ⊢
    rw [if_neg hatt]
    by_cases hproto : hello.proto ≠ relayProtocolVersion
    · rw [if_pos hproto, if_pos hproto]
      exact hkick _
    · rw [if_neg hproto] at hlimit ⊢
      rw [if_neg hproto]
      cases hrole : hello.role with
      | peer =>
        rw [hrole] at hlimit
        exact agree_peerHello h hfewer hs hhome hlimit
      | host =>
        rw [hrole] at hlimit
        dsimp only at hlimit ⊢
        unfold hostHello at hlimit ⊢
        rw [hhome] at hlimit ⊢
        rw [h.room]
        cases hroom : F.rooms.get r with
        | none =>
          rw [hroom] at hlimit
          exact agree_createRoom h hfewer hs hhome token hlimit
        | some room =>
          rw [hroom] at hlimit
          dsimp only at hlimit ⊢
          by_cases hclaim : claimable now room = true
          · rw [if_pos hclaim, if_pos hclaim]
            unfold claimHandoff
            have hroomId : room.roomId = r := hF.roomId r room hroom
            rw [hroomId]
            obtain ⟨hatt₁, hatt₂⟩ := h.attached_set hs ⟨.host, r, none⟩
            exact ⟨⟨rfl, h.setRoom _ rfl rfl hatt₁ hatt₂⟩, fewer_of_rate hfewer rfl rfl⟩
          · rw [if_neg hclaim] at hlimit ⊢
            rw [if_neg hclaim]
            exact agree_createRoom h hfewer hs hhome token hlimit

/-! ### Sweeps -/

/-- What the end of a room comes to, if its handoff window has elapsed. -/
def expiryEffects (now : ℕ) (room : Room) : List Effect :=
  if expired now room then (teardownRoom room new).2 else []

theorem sweepRooms_out (now : ℕ) (rooms : List Room) : ∀ R : State,
    (sweepRooms now rooms R).2 = rooms.flatMap (expiryEffects now) := by
  induction rooms with
  | nil => exact fun _ => rfl
  | cons room rooms ih =>
    intro R
    rw [sweepRooms, List.flatMap_cons]
    unfold expiryEffects
    by_cases hexp : expired now room = true
    · rw [if_pos hexp, if_pos hexp]
      exact congrArg ((teardownRoom room new).2 ++ ·) (ih _)
    · rw [if_neg hexp, if_neg hexp]
      exact ih R

/-- Of all the rooms that a sweep ends, room `r` hears of its own. -/
theorem sweep_concerns (h : Homed home F) (r : String) (now : ℕ) :
    (sweep L now F).2.filter (Effect.concerns home r) =
      ((F.rooms.get r).map (expiryEffects now)).getD [] := by
  have hkeyed : F.rooms.Keyed Room.roomId := h.roomId
  rw [← InsertionMap.flatMap_values_key hkeyed r (expiryEffects now)]
  show (sweepRooms now F.rooms.values F).2.filter _ = _
  rw [sweepRooms_out, List.filter_flatMap]
  refine List.flatMap_congr fun room hmem => ?_
  obtain ⟨r', hroom⟩ := (InsertionMap.mem_values _ _).mp hmem
  have hhomes : ∀ effect ∈ expiryEffects now room, home effect.target = r' := by
    unfold expiryEffects
    intro effect heffect
    split at heffect
    · exact concerned_of_teardown h hroom effect heffect
    · cases heffect
  rw [h.roomId r' room hroom]
  by_cases hr : r' = r
  · rw [if_pos hr, List.filter_eq_self]
    exact fun effect heffect => decide_eq_true ((hhomes effect heffect).trans hr)
  · rw [if_neg hr, List.filter_eq_nil_iff]
    intro effect heffect hconcerns
    exact hr ((hhomes effect heffect).symm.trans (of_decide_eq_true hconcerns))

/-- The purged relay has only sockets of room `r`. -/
theorem Purged.homed (h : Purged home r F P) (hF : Homed home F) : Homed home P := by
  have hroom : ∀ {r' room}, P.rooms.get r' = some room → F.rooms.get r' = some room := by
    intro r' room hget
    by_cases hr : r' = r
    · subst hr
      rw [← h.room, hget]
    · rw [h.otherRoom r' hr] at hget
      cases hget
  refine ⟨fun r' room hget => hF.roomId r' room (hroom hget), fun r' room hget =>
    hF.host r' room (hroom hget), fun r' room hget => hF.peer r' room (hroom hget),
    fun s att hatt => ?_⟩
  by_cases hs : home s = r
  · rw [h.attached s hs] at hatt
    exact hF.attached s att hatt
  · rw [h.otherAttached s hs] at hatt
    cases hatt

theorem agree_sweep (h : Purged home r F P) (hF : Homed home F) (now : ℕ) :
    (sweep L now F).2.filter (Effect.concerns home r) = (sweep L now P).2 ∧
      Purged home r (sweep L now F).1 (sweep L now P).1 := by
  have hP := h.homed hF
  refine ⟨?_, ?_, fun r' hr' => ?_, ?_, ?_⟩
  · have hall : (sweep L now P).2.filter (Effect.concerns home r) = (sweep L now P).2 := by
      rw [List.filter_eq_self]
      intro effect hmem
      change effect ∈ (sweepRooms now P.rooms.values P).2 at hmem
      rw [sweepRooms_out] at hmem
      obtain ⟨room, hroom, heffect⟩ := List.mem_flatMap.mp hmem
      obtain ⟨r', hget⟩ := (InsertionMap.mem_values _ _).mp hroom
      have hr : r' = r := by
        by_contra hne
        rw [h.otherRoom r' hne] at hget
        cases hget
      unfold expiryEffects at heffect
      split at heffect
      · exact decide_eq_true ((concerned_of_teardown hP hget effect heffect).trans hr)
      · cases heffect
    rw [sweep_concerns hF, ← hall, sweep_concerns hP, h.room]
  · rw [sweep_rooms_get L now P hP.roomId, sweep_rooms_get L now F hF.roomId, h.room]
  · rw [sweep_rooms_get L now P hP.roomId, h.otherRoom r' hr']
  · rw [sweep_attached, sweep_attached]
    exact h.attached
  · rw [sweep_attached]
    exact h.otherAttached

/-! ### Runs -/

/-- The relay `SF` of a run, and the relay `SP` of what is left of it without the other rooms. -/
structure Isolated (home : Socket → String) (r : String) (SF SP : ServerState) : Prop where
  homed : Homed home SF.relay
  purged : Purged home r SF.relay SP.relay
  greeted : ∀ socket, home socket = r → (socket ∈ SP.greeted ↔ socket ∈ SF.greeted)
  gone : ∀ socket, home socket = r → (socket ∈ SP.gone ↔ socket ∈ SF.gone)

theorem isolated_init : Isolated home r init init :=
  ⟨homed_new, purged_new, fun _ _ => Iff.rfl, fun _ _ => Iff.rfl⟩

/-- An event of one socket, local to its home. -/
theorem local_react {R : State} (h : Homed home R) {e : Event} (hhome : e.AtHome home)
    (hsweep : ∀ now, e ≠ .sweep now) : ∃ socket, Local home socket R (react L R e) ∧
      ∀ r, e.concerns home r = decide (home socket = r) := by
  cases e with
  | hello socket hello now token => exact ⟨socket, local_hello h socket token hhome, fun _ => rfl⟩
  | message socket data now => exact ⟨socket, local_message h socket data, fun _ => rfl⟩
  | close socket => exact ⟨socket, local_close h socket, fun _ => rfl⟩
  | sweep now => exact absurd rfl (hsweep now)

theorem homed_react {R : State} (h : Homed home R) {e : Event} (hhome : e.AtHome home) :
    Homed home (react L R e).1 := by
  by_cases hsweep : ∃ now, e = .sweep now
  · obtain ⟨now, rfl⟩ := hsweep
    exact homed_sweep h now
  · obtain ⟨socket, hlocal, -⟩ := local_react (L := L) h hhome fun now heq => hsweep ⟨now, heq⟩
    exact hlocal.homed

/-- **An event of another room** is not noticed in room `r`. -/
theorem isolated_elsewhere {SF SP : ServerState} (h : Isolated home r SF SP) {e : Event}
    (hhome : e.AtHome home) (hconcerns : e.concerns home r = false) :
    Isolated home r ((server L).next SF e) SP ∧
      ((server L).out SF e).filter (Effect.concerns home r) = [] := by
  have hsweep : ∀ now, e ≠ .sweep now := by
    rintro now rfl
    cases hconcerns
  obtain ⟨socket, hlocal, heq⟩ := local_react (L := L) h.homed hhome hsweep
  rw [heq] at hconcerns
  have hother : home socket ≠ r := of_decide_eq_false hconcerns
  refine ⟨⟨?_, ?_, fun s hs => ?_, fun s hs => ?_⟩, ?_⟩
  · rw [next_relay]
    exact hlocal.homed
  · rw [next_relay]
    exact h.purged.elsewhere hlocal hother
  · cases e with
    | hello socket' hello now token =>
      have hne : s ≠ socket' := by
        rintro rfl
        have hsame : decide (home s = r) = decide (home socket = r) := heq r
        exact hother (of_decide_eq_true (hsame.symm.trans (decide_eq_true hs)))
      refine (h.greeted s hs).trans ?_
      show s ∈ SF.greeted ↔ s ∈ socket' :: SF.greeted
      rw [List.mem_cons, or_iff_right hne]
    | _ => exact h.greeted s hs
  · cases e with
    | close socket' =>
      have hne : s ≠ socket' := by
        rintro rfl
        have hsame : decide (home s = r) = decide (home socket = r) := heq r
        exact hother (of_decide_eq_true (hsame.symm.trans (decide_eq_true hs)))
      refine (h.gone s hs).trans ?_
      show s ∈ SF.gone ↔ s ∈ socket' :: SF.gone
      rw [List.mem_cons, or_iff_right hne]
    | _ => exact h.gone s hs
  · rw [out_eq, List.filter_eq_nil_iff]
    intro effect hmem hc
    exact hother ((hlocal.effects effect hmem).symm.trans (of_decide_eq_true hc))

/-- **An event of room `r`** has the same effect in both. -/
theorem isolated_here {SF SP : ServerState} (h : Isolated home r SF SP)
    (hfewer : Fewer L clock SF.relay SP.relay) {e : Event} (hle : clock ≤ e.time.getD clock)
    (hhome : e.AtHome home) (hconcerns : e.concerns home r = true) (henabled : Enabled SF e)
    (hlimit : WithinLimit L SF.relay e) :
    Enabled SP e ∧ Isolated home r ((server L).next SF e) ((server L).next SP e) ∧
      Fewer L (e.time.getD clock) ((server L).next SF e).relay ((server L).next SP e).relay ∧
      ((server L).out SF e).filter (Effect.concerns home r) = (server L).out SP e := by
  have hhomed : Homed home ((server L).next SF e).relay := by
    rw [next_relay]
    exact homed_react h.homed hhome
  have hfewer := hfewer.later hle
  -- all that an event of the room puts out concerns the room
  have hall : (∀ now, e ≠ .sweep now) →
      (react L SF.relay e).2.filter (Effect.concerns home r) = (react L SF.relay e).2 := by
    intro hsweep
    obtain ⟨socket, hlocal, heq⟩ := local_react (L := L) h.homed hhome hsweep
    rw [heq] at hconcerns
    rw [List.filter_eq_self]
    exact fun effect hmem =>
      decide_eq_true ((hlocal.effects effect hmem).trans (of_decide_eq_true hconcerns))
  have hgreet : ∀ {socket}, home socket = r → ∀ s, home s = r →
      (s ∈ socket :: SP.greeted ↔ s ∈ socket :: SF.greeted) := by
    intro socket _ s hs
    rw [List.mem_cons, List.mem_cons, h.greeted s hs]
  have hleave : ∀ {socket}, home socket = r → ∀ s, home s = r →
      (s ∈ socket :: SP.gone ↔ s ∈ socket :: SF.gone) := by
    intro socket _ s hs
    rw [List.mem_cons, List.mem_cons, h.gone s hs]
  cases e with
  | hello socket hello now token =>
    have hs : home socket = r := of_decide_eq_true hconcerns
    obtain ⟨⟨hout, hpurged⟩, hnext⟩ := agree_hello (L := L) h.purged h.homed hfewer hs
      (hhome.trans hs) token hlimit
    refine ⟨⟨fun hmem => henabled.1 ((h.greeted socket hs).mp hmem), fun hmem =>
      henabled.2 ((h.gone socket hs).mp hmem)⟩, ⟨hhomed, hpurged, hgreet hs, h.gone⟩, hnext, ?_⟩
    exact (hall fun _ heq => by cases heq).trans hout.symm
  | message socket data now =>
    have hs : home socket = r := of_decide_eq_true hconcerns
    obtain ⟨hout, hpurged⟩ := agree_message h.purged h.homed hs now data
    refine ⟨⟨(h.greeted socket hs).mpr henabled.1, fun hmem =>
      henabled.2 ((h.gone socket hs).mp hmem)⟩, ⟨hhomed, hpurged, h.greeted, h.gone⟩, ?_, ?_⟩
    · exact fewer_of_rate hfewer (onMessage_rate ..) (onMessage_rate ..)
    · exact (hall fun _ heq => by cases heq).trans hout.symm
  | close socket =>
    have hs : home socket = r := of_decide_eq_true hconcerns
    obtain ⟨hout, hpurged⟩ := agree_close h.purged h.homed hs
    refine ⟨fun hmem => henabled ((h.gone socket hs).mp hmem),
      ⟨hhomed, hpurged, h.greeted, hleave hs⟩, ?_, ?_⟩
    · exact fewer_of_rate hfewer (onClose_rate ..) (onClose_rate ..)
    · exact (hall fun _ heq => by cases heq).trans hout.symm
  | sweep now =>
    obtain ⟨hout, hpurged⟩ := agree_sweep (L := L) h.purged h.homed now
    exact ⟨trivial, ⟨hhomed, hpurged, h.greeted, h.gone⟩, hfewer.sweep, hout⟩

/-- A run, and what is left of it without the other rooms. -/
theorem isolated_exec (es : List Event) : ∀ {SF SP : ServerState} {clock : ℕ},
    Isolated home r SF SP → Fewer L clock SF.relay SP.relay → (server L).Valid SF es →
    Forward Event.time clock es → (∀ e ∈ es, e.AtHome home) →
    (server L).Along (fun S e => WithinLimit L S.relay e) SF es →
    (server L).Valid SP (es.filter (Event.concerns home r)) ∧
      ((server L).trace SF es).filter (Effect.concerns home r) =
        (server L).trace SP (es.filter (Event.concerns home r)) := by
  induction es with
  | nil => exact fun _ _ _ _ _ _ => ⟨trivial, rfl⟩
  | cons e es ih =>
    intro SF SP clock h hfewer hvalid hforward hhome hlimit
    have he := hhome e List.mem_cons_self
    have hrest : ∀ e ∈ es, e.AtHome home := fun e' he' => hhome e' (List.mem_cons_of_mem _ he')
    have htrace : ((server L).trace SF (e :: es)).filter (Effect.concerns home r) =
        ((server L).out SF e).filter (Effect.concerns home r) ++
          ((server L).trace ((server L).next SF e) es).filter (Effect.concerns home r) :=
      List.filter_append _ _
    rw [htrace]
    by_cases hconcerns : e.concerns home r = true
    · obtain ⟨henabled, hnext, hfewer', hout⟩ := isolated_here h hfewer hforward.1 he hconcerns
        hvalid.1 hlimit.1
      obtain ⟨hvalid', htrace'⟩ := ih hnext hfewer' hvalid.2 hforward.2 hrest hlimit.2
      rw [List.filter_cons_of_pos hconcerns, hout, htrace']
      exact ⟨⟨henabled, hvalid'⟩, rfl⟩
    · have hfalse : e.concerns home r = false := by simpa using hconcerns
      obtain ⟨hnext, hout⟩ := isolated_elsewhere (L := L) h he hfalse
      have hfewer' : Fewer L (e.time.getD clock) ((server L).next SF e).relay SP.relay := by
        rw [next_relay]
        refine hfewer.elsewhere hforward.1 ?_
        rintro now rfl
        exact hconcerns rfl
      rw [List.filter_cons_of_neg hconcerns, hout, List.nil_append]
      exact ih hnext hfewer' hvalid.2 hforward.2 hrest hlimit.2

/-- **Rooms do not interfere.**  As long as no limit refuses anybody, what the relay sends to the sockets
of a room, and which of them it closes, is what it would be if the sockets of all other rooms had never
come. -/
theorem rooms_isolated (L : RelayLimits) (home : Socket → String) (r : String) (es : List Event)
    (hvalid : (server L).Valid init es) (hforward : Forward Event.time 0 es)
    (hhome : ∀ e ∈ es, e.AtHome home)
    (hlimit : (server L).Along (fun S e => WithinLimit L S.relay e) init es) :
    (server L).Valid init (es.filter (Event.concerns home r)) ∧
      ((server L).trace init es).filter (Effect.concerns home r) =
        (server L).trace init (es.filter (Event.concerns home r)) :=
  isolated_exec es isolated_init fewer_new hvalid hforward hhome hlimit

instance (home : Socket → String) : ∀ e : Event, Decidable (e.AtHome home)
  | .hello socket greeting _ _ => inferInstanceAs (Decidable (greeting.roomId = home socket))
  | .message _ _ _ | .close _ | .sweep _ => isTrue trivial

/-- Two rooms: the second one comes and goes while the first one is handed off. -/
def twoRooms : List Event :=
  [.hello ⟨1, "10.0.0.1"⟩ (helloAs .host) 0 "a", .hello ⟨2, "10.0.0.1"⟩ ⟨.host, "0a0a0a0a", "", 1, none⟩ 1 "b",
    .hello ⟨3, "10.0.0.3"⟩ (helloAs .peer) 2 "", .hello ⟨4, "10.0.0.1"⟩ ⟨.peer, "0a0a0a0a", "", 1, none⟩ 3 "",
    .message ⟨1, "10.0.0.1"⟩ [T.handoff] 4, .close ⟨2, "10.0.0.1"⟩, .sweep 9000]

/-- The home of each of the four. -/
def twoHomes (socket : Socket) : String :=
  if socket.id = 2 ∨ socket.id = 4 then "0a0a0a0a" else "65727231"

theorem rooms_isolated_twoRooms :
    ((server defaultLimits).trace init twoRooms).filter (Effect.concerns twoHomes "65727231") =
      (server defaultLimits).trace init (twoRooms.filter (Event.concerns twoHomes "65727231")) :=
  (rooms_isolated defaultLimits twoHomes "65727231" twoRooms (by decide +kernel) (by decide +kernel)
    (by decide +kernel) (by decide +kernel)).2

end ScreenSharing.Relay
