import ScreenSharing.Relay.Ledger

/-!
# The two tables of the relay agree

The registry keeps a table of rooms and a table of attachments, and no entry point looks at one of
them to check the other.  `Represented` is what relates them in every state that the relay can
reach: the connIds of a room are counted from 1 and lie below its counter, whoever sits in a room is
attached as exactly that peer, nobody sits in two places or hosts a room while sitting in one, and
the host of a room is attached as its host unless the room is being handed off.

Most of it is known from `Seated`, `HostsAttached` and `Absent`; what is added here is the count
from 1 (`Counted`).  A room that is being handed off may outlive its host, and in between nobody is
attached as the host of it; `Absent` says that this is the only such time.
-/

namespace ScreenSharing.Relay

open Lib

variable {L : RelayLimits} {S : ServerState} {R R' : State}

/-! ### ConnIds are counted from 1 -/

/-- The connIds that the room has handed out, and the one it hands out next, are at least 1. -/
structure Room.Counted (room : Room) : Prop where
  next : 1 ≤ room.nextConnId
  connId : ∀ connId socket, room.peers.get connId = some socket → 1 ≤ connId

/-- Another host, another deadline: the peers and the counter are what they were. -/
theorem Room.Counted.keep {room room' : Room} (h : room.Counted) (hpeers : room'.peers = room.peers)
    (hnext : room'.nextConnId = room.nextConnId) : room'.Counted := by
  constructor
  · rw [hnext]
    exact h.next
  · rw [hpeers]
    exact h.connId

/-- A peer less, the rest as it was. -/
theorem Room.Counted.drop {room : Room} (h : room.Counted) (c₀ : ℕ) :
    ({ room with peers := room.peers.delete c₀ } : Room).Counted where
  next := h.next
  connId := InsertionMap.forall_get_delete h.connId

/-- The next connId is handed out. -/
theorem Room.Counted.join {room : Room} (h : room.Counted) (socket : Socket) :
    ({ room with
        peers := room.peers.set room.nextConnId socket
        nextConnId := room.nextConnId + 1 } : Room).Counted where
  next := Nat.le_add_left 1 _
  connId := InsertionMap.forall_get_set h.connId h.next

/-- Every room counts from 1. -/
def Counted (R : State) : Prop := ∀ r room, R.rooms.get r = some room → room.Counted

theorem counted_init : Counted init.relay := by
  intro r room hroom
  cases hroom

theorem counted_set (h : Counted R) {r₀ : String} {room₀ : Room}
    (hrooms : R'.rooms = R.rooms.set r₀ room₀) (hroom₀ : room₀.Counted) : Counted R' := by
  unfold Counted
  rw [hrooms]
  exact InsertionMap.forall_get_set h hroom₀

theorem counted_hello (h : Counted R) (now : ℕ) (token : String) (socket : Socket)
    (hello : Hello) : Counted (onHello L now token socket hello R).1 := by
  have hout := onHello_outcome L now token socket hello R
  generalize onHello L now token socket hello R = res at hout
  cases hout with
  | refused reason hrooms hatt =>
    intro r room hroom
    rw [hrooms] at hroom
    exact h r room hroom
  | claimed hfresh hrole hroom hclaim hproto =>
    -- the peers of the room and its counter pass to the new host
    exact counted_set h rfl ((h _ _ hroom).keep rfl rfl)
  | created hfresh hrole hroom hrooms hatt =>
    exact counted_set h hrooms ⟨Nat.le_refl 1, fun connId peer hpeer => by cases hpeer⟩
  | joined hfresh hrole hroom hrooms hatt =>
    exact counted_set h hrooms ((h _ _ hroom).join socket)

theorem counted_message (h : Counted R) (now : ℕ) (socket : Socket) (data : Bytes) :
    Counted (onMessage now socket data R).1 := by
  have hout := onMessage_outcome now socket data R
  generalize onMessage now socket data R = res at hout
  cases hout with
  | ignored | ponged | toPeer | toHost => exact h
  | kicked hatt hrole hroom hkick hpeer => exact counted_set h rfl ((h _ _ hroom).drop _)
  | handedOff hatt hrole hroom hhost htype =>
    exact counted_set h rfl ((h _ _ hroom).keep rfl rfl)

theorem counted_close (h : Counted R) (socket : Socket) : Counted (onClose socket R).1 := by
  have hout := onClose_outcome socket R
  generalize onClose socket R = res at hout
  cases hout with
  | unattached | detached => exact h
  | toredown hatt hrole hroom hhost hopen => exact InsertionMap.forall_get_delete h
  | left hatt hrole hconn hroom => exact counted_set h rfl ((h _ _ hroom).drop _)

/-- **One event keeps the count.** -/
theorem counted_next (hw : Wf S) (h : Counted S.relay) (e : Event) :
    Counted ((server L).next S e).relay := by
  rw [next_relay]
  cases e with
  | hello socket hello now token => exact counted_hello h now token socket hello
  | message socket data now => exact counted_message h now socket data
  | close socket => exact counted_close h socket
  | sweep now =>
    intro r room hroom
    exact h r room (get_of_get_sweep hw hroom)

/-! ### The representation invariant -/

/-- How the table of rooms and the table of attachments agree. -/
structure Represented (R : State) : Prop where
  /-- a room's connIds are counted from 1 and lie below its counter -/
  connIds : ∀ r room connId socket, R.rooms.get r = some room →
    room.peers.get connId = some socket → 1 ≤ connId ∧ connId < room.nextConnId
  /-- whoever sits in a room is attached as exactly that peer -/
  peers : ∀ r connId socket, Registered R r connId socket →
    R.attached.get socket = some ⟨.peer, r, some connId⟩
  /-- nobody sits in two places -/
  onePlace : ∀ r r' connId connId' socket, Registered R r connId socket →
    Registered R r' connId' socket → r = r' ∧ connId = connId'
  /-- nobody hosts a room and sits in one -/
  oneRole : ∀ r connId socket, Registered R r connId socket →
    ∀ r' room, R.rooms.get r' = some room → room.host ≠ socket
  /-- the host of a room is attached as its host, unless the room is being handed off -/
  host : ∀ r room, R.rooms.get r = some room → room.handoffDeadline = none →
    R.attached.get room.host = some ⟨.host, r, none⟩

/-- What every reachable state satisfies, and every event keeps. -/
structure Kept (S : ServerState) : Prop extends Reached S where
  counted : Counted S.relay
  absent : Absent S

theorem kept_init : Kept init := ⟨reached_init, counted_init, absent_init⟩

/-- **One event keeps it all.** -/
theorem kept_next (h : Kept S) {e : Event} (henabled : Enabled S e) : Kept ((server L).next S e) :=
  ⟨reached_next h.toReached henabled, counted_next h.toWf h.counted e,
    absent_next h.toReached h.absent henabled⟩

/-- A host is no peer: it is attached as a host, or it has gone and is attached no longer. -/
theorem Kept.host_unseated (h : Kept S) {r r' : String} {room : Room} {connId : ℕ}
    {socket : Socket} (hreg : Registered S.relay r connId socket)
    (hroom : S.relay.rooms.get r' = some room) : room.host ≠ socket := by
  rintro rfl
  have hseat := h.seat r connId _ hreg
  by_cases hgone : room.host ∈ S.gone
  · rw [h.absent.attached _ hgone] at hseat
    cases hseat
  · rw [h.hosts r' room hroom hgone] at hseat
    cases hseat

/-- **The two tables agree in every state that the invariants describe.** -/
theorem Kept.represented (h : Kept S) : Represented S.relay where
  connIds r room connId socket hroom hpeer :=
    ⟨(h.counted r room hroom).connId connId socket hpeer, h.below r room connId socket hroom hpeer⟩
  peers := h.seat
  onePlace _ _ _ _ _ hreg hreg' := h.unique hreg hreg'
  oneRole _ _ _ hreg _ _ hroom := h.host_unseated hreg hroom
  host r room hroom hopen := h.hosts r room hroom (h.absent.hosts r room hroom hopen)

/-- **The representation invariant of the registry.**  In every state that the relay can reach, the
table of rooms and the table of attachments agree. -/
theorem registry_represented (L : RelayLimits) (es : List Event)
    (hvalid : (server L).Valid init es) : Represented ((server L).exec init es).relay := by
  have hkept : Kept ((server L).exec init es) :=
    Machine.exec_invariant (G := Enabled) (I := Kept)
      (fun _ _ h henabled => kept_next h henabled) hvalid kept_init
  exact hkept.represented

/-- A host that starts a handoff and leaves, while a peer of it stays. -/
def leavingRun : List Event :=
  [.hello ⟨1, "10.0.0.1"⟩ (helloAs .host) 0 "a", .hello ⟨2, "10.0.0.2"⟩ (helloAs .peer) 1 "",
    .message ⟨1, "10.0.0.1"⟩ [T.handoff] 2, .close ⟨1, "10.0.0.1"⟩]

theorem registry_represented_leavingRun :
    Represented ((server defaultLimits).exec init leavingRun).relay :=
  registry_represented defaultLimits leavingRun (by decide +kernel)

end ScreenSharing.Relay
