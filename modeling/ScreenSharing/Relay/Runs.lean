import ScreenSharing.Lib.Machine
import ScreenSharing.Relay.Outcomes

/-!
# Runs of the relay

`server L` is the relay as its WebSocket server drives it: a machine whose events are the calls of
`onHello`, `onMessage`, `onClose` and `sweep`.  The connection handler keeps a discipline for each
socket, one HELLO, then messages, then one close, which may come arbitrarily late and also after
the relay has told the socket to close; `greeted` and `gone` record how far each socket is, and
`Enabled` is the discipline.  Nothing else is assumed about the order of events.

`Wf` is the part of the representation invariant that the proofs about runs share: the rooms are
filed under their own id, a room's connIds lie below its counter, and whatever is registered or
attached belongs to a socket that has said HELLO.  `wf_next` keeps it over one event.
-/

namespace ScreenSharing.Relay

open Lib

inductive Event
  | hello (socket : Socket) (hello : Hello) (now : ℕ) (token : String)
  | message (socket : Socket) (data : Bytes) (now : ℕ)
  | close (socket : Socket)
  | sweep (now : ℕ)

/-- The relay together with how far each of its sockets is. -/
structure ServerState where
  relay : State
  greeted : List Socket
  gone : List Socket

def init : ServerState := ⟨new, [], []⟩

/-- The discipline of the connection handler. -/
def Enabled (S : ServerState) : Event → Prop
  | .hello socket _ _ _ => socket ∉ S.greeted ∧ socket ∉ S.gone
  | .message socket _ _ => socket ∈ S.greeted ∧ socket ∉ S.gone
  | .close socket => socket ∉ S.gone
  | .sweep _ => True

instance (S : ServerState) (e : Event) : Decidable (Enabled S e) := by
  cases e <;> unfold Enabled <;> infer_instance

/-- One call of the relay. -/
def react (L : RelayLimits) (R : State) : Event → State × List Effect
  | .hello socket hello now token => onHello L now token socket hello R
  | .message socket data now => onMessage now socket data R
  | .close socket => onClose socket R
  | .sweep now => sweep L now R

def handle (L : RelayLimits) (S : ServerState) (e : Event) : ServerState × List Effect :=
  let (R, effects) := react L S.relay e
  match e with
  | .hello socket _ _ _ => ({ S with relay := R, greeted := socket :: S.greeted }, effects)
  | .close socket => ({ S with relay := R, gone := socket :: S.gone }, effects)
  | _ => ({ S with relay := R }, effects)

def server (L : RelayLimits) : Machine ServerState Event Effect := ⟨Enabled, handle L⟩

instance (L : RelayLimits) (S : ServerState) (e : Event) : Decidable ((server L).enabled S e) :=
  inferInstanceAs (Decidable (Enabled S e))

variable {L : RelayLimits} {S : ServerState}

@[simp] theorem next_relay (e : Event) :
    ((server L).next S e).relay = (react L S.relay e).1 := by
  cases e <;> rfl

@[simp] theorem out_eq (e : Event) : (server L).out S e = (react L S.relay e).2 := by
  cases e <;> rfl

/-! ### The table of rooms after one event -/

/-- Peer `socket` is registered in room `r` under `connId`. -/
def Registered (R : State) (r : String) (connId : ℕ) (socket : Socket) : Prop :=
  ∃ room, R.rooms.get r = some room ∧ room.peers.get connId = some socket

/-- The representation invariant of the registry. -/
structure Wf (S : ServerState) : Prop where
  roomId : ∀ r room, S.relay.rooms.get r = some room → room.roomId = r
  below : ∀ r room connId socket, S.relay.rooms.get r = some room →
    room.peers.get connId = some socket → connId < room.nextConnId
  greeted : ∀ socket att, S.relay.attached.get socket = some att → socket ∈ S.greeted

theorem wf_init : Wf init where
  roomId := by intro r room h; simp [init, new] at h
  below := by intro r room connId socket h; simp [init, new] at h
  greeted := by intro socket att h; simp [init, new] at h

/-- A room table that differs from a good one in a single entry, itself good, is good. -/
theorem wf_set {R : State} {rooms : InsertionMap String Room} (r₀ : String) (room₀ : Room)
    (hrooms : rooms = R.rooms.set r₀ room₀)
    (hid : ∀ r room, R.rooms.get r = some room → room.roomId = r)
    (hbelow : ∀ r room connId socket, R.rooms.get r = some room →
      room.peers.get connId = some socket → connId < room.nextConnId)
    (hid₀ : room₀.roomId = r₀)
    (hbelow₀ : ∀ connId socket, room₀.peers.get connId = some socket →
      connId < room₀.nextConnId) :
    (∀ r room, rooms.get r = some room → room.roomId = r) ∧
      ∀ r room connId socket, rooms.get r = some room →
        room.peers.get connId = some socket → connId < room.nextConnId := by
  subst hrooms
  have hbelow' : ∀ r room, (R.rooms.set r₀ room₀).get r = some room →
      ∀ connId socket, room.peers.get connId = some socket → connId < room.nextConnId :=
    InsertionMap.forall_get_set (fun r room hroom connId socket => hbelow r room connId socket hroom)
      hbelow₀
  exact ⟨InsertionMap.forall_get_set hid hid₀,
    fun r room connId socket hroom => hbelow' r room hroom connId socket⟩

theorem greeted_set {R R' : State} {s₀ : Socket} {a₀ : Attached} {G : List Socket}
    (hatt : R'.attached = R.attached.set s₀ a₀)
    (hG : ∀ socket att, R.attached.get socket = some att → socket ∈ G) :
    ∀ socket att, R'.attached.get socket = some att → socket ∈ s₀ :: G := by
  rw [hatt]
  exact InsertionMap.forall_get_set (fun socket att h => List.mem_cons_of_mem _ (hG socket att h))
    List.mem_cons_self

theorem wf_hello (h : Wf S) (socket : Socket) (hello : Hello) (now : ℕ) (token : String) :
    Wf ((server L).next S (.hello socket hello now token)) := by
  have hout := onHello_outcome L now token socket hello S.relay
  show Wf ⟨(onHello L now token socket hello S.relay).1, socket :: S.greeted, S.gone⟩
  generalize onHello L now token socket hello S.relay = res at hout
  cases hout with
  | refused reason hrooms hatt =>
    exact ⟨by simpa only [hrooms] using h.roomId, by simpa only [hrooms] using h.below,
      fun s a hs => List.mem_cons_of_mem _ (h.greeted s a (by simpa only [hatt] using hs))⟩
  | claimed hfresh hrole hroom hclaim hproto =>
    rename_i room
    have hroomId : room.roomId = hello.roomId := h.roomId _ room hroom
    obtain ⟨h1, h2⟩ := wf_set (R := S.relay) room.roomId
      { room with host := socket, handoffDeadline := none, hostToken := token } rfl
      h.roomId h.below rfl fun c s hc => h.below _ room c s hroom hc
    exact ⟨h1, h2, greeted_set rfl h.greeted⟩
  | created hfresh hrole hroom hrooms hatt =>
    obtain ⟨h1, h2⟩ := wf_set _ _ hrooms h.roomId h.below rfl
      fun c s hc => by simp at hc
    exact ⟨h1, h2, greeted_set hatt h.greeted⟩
  | joined hfresh hrole hroom hrooms hatt =>
    rename_i R' room
    have hnew : ∀ c s, (room.peers.set room.nextConnId socket).get c = some s →
        c < room.nextConnId + 1 := by
      intro c s hc
      rw [InsertionMap.get_set] at hc
      split at hc
      · omega
      · have := h.below _ room c s hroom hc
        omega
    obtain ⟨h1, h2⟩ := wf_set _ _ hrooms h.roomId h.below (h.roomId _ room hroom) hnew
    exact ⟨h1, h2, greeted_set hatt h.greeted⟩

theorem wf_message (h : Wf S) (socket : Socket) (data : Bytes) (now : ℕ) :
    Wf ((server L).next S (.message socket data now)) := by
  have hout := onMessage_outcome now socket data S.relay
  show Wf ⟨(onMessage now socket data S.relay).1, S.greeted, S.gone⟩
  generalize onMessage now socket data S.relay = res at hout
  cases hout with
  | ignored => exact h
  | ponged => exact h
  | kicked hatt hrole hroom hkick hpeer =>
    rename_i att room connId peer
    obtain ⟨h1, h2⟩ := wf_set (R := S.relay) att.roomId
      { room with peers := room.peers.delete connId } rfl
      h.roomId h.below (h.roomId _ room hroom)
      fun c s hc => h.below _ room c s hroom (InsertionMap.get_of_get_delete hc).1
    exact ⟨h1, h2, h.greeted⟩
  | handedOff hatt hrole hroom hhost htype =>
    rename_i att room
    obtain ⟨h1, h2⟩ := wf_set (R := S.relay) att.roomId
      { room with handoffDeadline := some (now + handoffGraceMs) } rfl
      h.roomId h.below (h.roomId _ room hroom) fun c s hc => h.below _ room c s hroom hc
    exact ⟨h1, h2, h.greeted⟩
  | toPeer => exact h
  | toHost => exact h

theorem wf_close (h : Wf S) (socket : Socket) : Wf ((server L).next S (.close socket)) := by
  have hout := onClose_outcome socket S.relay
  have hgreeted : ∀ s a, (S.relay.attached.delete socket).get s = some a → s ∈ S.greeted :=
    fun s a hs => h.greeted s a (InsertionMap.get_of_get_delete hs).1
  show Wf ⟨(onClose socket S.relay).1, S.greeted, socket :: S.gone⟩
  generalize onClose socket S.relay = res at hout
  cases hout with
  | unattached => exact ⟨h.roomId, h.below, h.greeted⟩
  | detached => exact ⟨h.roomId, h.below, hgreeted⟩
  | toredown hatt hrole hroom hhost hopen =>
    refine ⟨fun r room hr => ?_, fun r room c s hr hc => ?_, hgreeted⟩
    · exact h.roomId r room (InsertionMap.get_of_get_delete hr).1
    · exact h.below r room c s (InsertionMap.get_of_get_delete hr).1 hc
  | left hatt hrole hconn hroom =>
    rename_i att room connId
    obtain ⟨h1, h2⟩ := wf_set (R := S.relay) att.roomId
      { room with peers := room.peers.delete connId } rfl
      h.roomId h.below (h.roomId _ room hroom)
      fun c s hc => h.below _ room c s hroom (InsertionMap.get_of_get_delete hc).1
    exact ⟨h1, h2, hgreeted⟩

theorem get_of_get_sweep (h : Wf S) {now : ℕ} {r : String} {room : Room}
    (hr : (sweep L now S.relay).1.rooms.get r = some room) : S.relay.rooms.get r = some room := by
  rw [sweep_rooms_get L now S.relay h.roomId] at hr
  split at hr
  · next room' hroom =>
    split at hr
    · cases hr
    · rw [hroom, hr]
  · cases hr

theorem wf_sweep (h : Wf S) (now : ℕ) : Wf ((server L).next S (.sweep now)) where
  roomId r room hr := h.roomId r room (get_of_get_sweep h hr)
  below r room c s hr hc := h.below r room c s (get_of_get_sweep h hr) hc
  greeted s a hs := h.greeted s a (by simpa [react] using hs)

/-- **One event keeps the representation invariant.** -/
theorem wf_next (h : Wf S) (e : Event) : Wf ((server L).next S e) := by
  cases e with
  | hello socket hello now token => exact wf_hello h socket hello now token
  | message socket data now => exact wf_message h socket data now
  | close socket => exact wf_close h socket
  | sweep now => exact wf_sweep h now

/-- The representation invariant holds after every run. -/
theorem wf_exec (es : List Event) (h : Wf S) : Wf ((server L).exec S es) := by
  induction es generalizing S with
  | nil => exact h
  | cons e es ih => exact ih (wf_next h e)

end ScreenSharing.Relay
