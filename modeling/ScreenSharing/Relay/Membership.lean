import ScreenSharing.Relay.Runs

/-!
# Who stays registered in a room, and who has authority over it

An attachment outlives the room it was made in.  The relay remembers for each socket the roomId
and the connId of its HELLO, and looks both up again in whatever room has that id later on.  A
room may be torn down and created again under the same id, with connIds starting at `1` once more,
and a room may change its host.  So two kinds of socket act on a room that is not theirs:

* a peer of an earlier room whose close arrives late (`onClose` compares the socket of a *host*
  with the room's, but not the socket of a peer);
* a host that was superseded, or left over from an earlier room (`onMessage` compares the sender
  with the room's host on HANDOFF, but not on KICK and DATA_H).

`Stable` and `LateCloseSilent` say that neither happens at a step, and
`stable_iff_clean` that they hold along a run exactly when every step of it is `CleanStep`.
`StaleHostInert` says that a superseded host has no effect, and `stale_host_inert_iff` that this
holds along a run exactly when no superseded host sends a KICK or a DATA_H naming a registered peer.
-/

namespace ScreenSharing.Relay

open Lib

variable {L : RelayLimits} {S : ServerState} {R R' : State}

/-! ### Registration after each kind of change -/

theorem registered_set {r₀ : String} {room₀ : Room} (hrooms : R'.rooms = R.rooms.set r₀ room₀)
    (r : String) (connId : ℕ) (socket : Socket) :
    Registered R' r connId socket ↔
      if r = r₀ then room₀.peers.get connId = some socket else Registered R r connId socket := by
  unfold Registered
  rw [hrooms]
  by_cases hr : r = r₀
  · subst hr
    simp
  · simp only [InsertionMap.get_set_ne _ _ hr, if_neg hr]

/-- Dropping one connId from one room leaves every other registration in place. -/
theorem registered_drop (R' : State) {r₀ r : String} {room₀ : Room} (c₀ : ℕ) {connId : ℕ}
    {socket : Socket} (hroom : R.rooms.get r₀ = some room₀)
    (hrooms : R'.rooms = R.rooms.set r₀ { room₀ with peers := room₀.peers.delete c₀ })
    (h : Registered R r connId socket) :
    Registered R' r connId socket ∨ (r = r₀ ∧ connId = c₀) := by
  obtain ⟨room, hget, hpeer⟩ := h
  by_cases hr : r = r₀
  · subst hr
    have heq : room = room₀ := Option.some.inj (hget.symm.trans hroom)
    subst heq
    by_cases hc : connId = c₀
    · exact .inr ⟨rfl, hc⟩
    · refine .inl ((registered_set hrooms r connId socket).mpr ?_)
      rw [if_pos rfl]
      exact (InsertionMap.get_delete_ne _ hc).trans hpeer
  · refine .inl ((registered_set hrooms r connId socket).mpr ?_)
    rw [if_neg hr]
    exact ⟨room, hget, hpeer⟩

/-- A change to a room that keeps its peers keeps every registration. -/
theorem registered_keep {r₀ r : String} {room₀ : Room} (room₁ : Room) {connId : ℕ} {socket : Socket}
    (hroom : R.rooms.get r₀ = some room₀) (hpeers : room₁.peers = room₀.peers)
    (hrooms : R'.rooms = R.rooms.set r₀ room₁) (h : Registered R r connId socket) :
    Registered R' r connId socket := by
  rw [registered_set hrooms]
  split
  · next hr =>
    subst hr
    obtain ⟨room, hget, hpeer⟩ := h
    have heq : room = room₀ := Option.some.inj (hget.symm.trans hroom)
    rw [hpeers, ← heq]
    exact hpeer
  · exact h

/-! ### Membership stability -/

/-- The event is a KICK of `connId` sent by the current host of room `r`. -/
def KickedByHost (S : ServerState) (e : Event) (r : String) (connId : ℕ) : Prop :=
  ∃ host data now room, e = .message host data now ∧ S.relay.rooms.get r = some room ∧
    room.host = host ∧ decodeKick data = some connId

/-- The event tears room `r` down: its handoff window has elapsed at a sweep, or its current host
closes with no handoff pending. -/
def TornDown (S : ServerState) (e : Event) (r : String) : Prop :=
  ∃ room, S.relay.rooms.get r = some room ∧
    ((∃ now, e = .sweep now ∧ expired now room = true) ∨
      (e = .close room.host ∧ room.handoffDeadline = none))

/-- **Membership stability of one step.**  Whoever is registered stays registered, unless the step
is its own close, a KICK by the room's current host, or the teardown of that room. -/
def Stable (L : RelayLimits) (S : ServerState) (e : Event) : Prop :=
  ∀ r connId socket, Registered S.relay r connId socket →
    Registered ((server L).next S e).relay r connId socket ∨ e = .close socket ∨
      KickedByHost S e r connId ∨ TornDown S e r

/-- The close of a socket that was attached as peer `connId` of room `r` does not announce the
departure of a different socket that is registered there now. -/
def LateCloseSilent (L : RelayLimits) (S : ServerState) (e : Event) : Prop :=
  ∀ socket r connId other room, e = .close socket →
    S.relay.attached.get socket = some ⟨.peer, r, some connId⟩ →
    S.relay.rooms.get r = some room → room.peers.get connId = some other → other ≠ socket →
    Effect.send room.host (.peerDown connId) ∉ (server L).out S e

/-- The condition on a step: a closing peer socket is the one registered under the connId of its
attachment, if any is, and a KICK that names a registered connId comes from the current host. -/
def CleanStep (S : ServerState) : Event → Prop
  | .close socket => ∀ r connId other,
      S.relay.attached.get socket = some ⟨.peer, r, some connId⟩ →
      Registered S.relay r connId other → other = socket
  | .message socket data _ => ∀ att room connId peer,
      S.relay.attached.get socket = some att → att.role = .host →
      S.relay.rooms.get att.roomId = some room → decodeKick data = some connId →
      room.peers.get connId = some peer → room.host = socket
  | _ => True

theorem stable_hello (h : Wf S) (socket : Socket) (hello : Hello) (now : ℕ) (token : String) :
    Stable L S (.hello socket hello now token) := by
  intro r connId peer hreg
  refine .inl ?_
  rw [next_relay]
  show Registered (onHello L now token socket hello S.relay).1 r connId peer
  have hout := onHello_outcome L now token socket hello S.relay
  generalize onHello L now token socket hello S.relay = res at hout
  cases hout with
  | refused reason hrooms hatt =>
    unfold Registered
    rw [hrooms]
    exact hreg
  | claimed hfresh hrole hroom hclaim hproto =>
    rename_i room
    have hroom' : S.relay.rooms.get room.roomId = some room := by
      rw [h.roomId _ room hroom]
      exact hroom
    exact registered_keep { room with host := socket, handoffDeadline := none, hostToken := token }
      hroom' rfl rfl hreg
  | created hfresh hrole hroom hrooms hatt =>
    rw [registered_set hrooms, if_neg]
    · exact hreg
    · rintro rfl
      obtain ⟨room, hget, -⟩ := hreg
      rw [hroom] at hget
      cases hget
  | joined hfresh hrole hroom hrooms hatt =>
    rename_i room
    rw [registered_set hrooms]
    split
    · next hr =>
      subst hr
      obtain ⟨room', hget, hpeer⟩ := hreg
      have heq : room' = room := Option.some.inj (hget.symm.trans hroom)
      subst heq
      have hlt : connId < room'.nextConnId := h.below _ room' connId peer hget hpeer
      show (room'.peers.set room'.nextConnId socket).get connId = some peer
      rw [InsertionMap.get_set_ne _ _ (Nat.ne_of_lt hlt)]
      exact hpeer
    · exact hreg

/-- **What a message does to a seat**: nothing, unless it is a KICK of that seat by a host. -/
theorem seat_message {socket : Socket} {data : Bytes} {now : ℕ} {r : String} {connId : ℕ}
    {peer : Socket} (hreg : Registered S.relay r connId peer) :
    Registered (onMessage now socket data S.relay).1 r connId peer ∨
      ∃ att, S.relay.attached.get socket = some att ∧ att.role = .host ∧ att.roomId = r ∧
        decodeKick data = some connId := by
  have hout := onMessage_outcome now socket data S.relay
  generalize onMessage now socket data S.relay = res at hout
  cases hout with
  | ignored => exact .inl hreg
  | ponged => exact .inl hreg
  | kicked hatt hrole hroom hkick hpeer =>
    rename_i att room c kicked
    rcases registered_drop { S.relay with rooms := _ } c hroom rfl hreg with hstay | ⟨rfl, rfl⟩
    · exact .inl hstay
    · exact .inr ⟨att, hatt, hrole, rfl, hkick⟩
  | handedOff hatt hrole hroom hhost htype =>
    rename_i room
    exact .inl (registered_keep { room with handoffDeadline := some (now + handoffGraceMs) }
      hroom rfl rfl hreg)
  | toPeer => exact .inl hreg
  | toHost => exact .inl hreg

/-- **What a close does to a seat**: nothing, unless it tears the room down, or the socket was attached
with the connId of that seat. -/
theorem seat_close (h : Wf S) {socket : Socket} {r : String} {connId : ℕ} {peer : Socket}
    (hreg : Registered S.relay r connId peer) :
    Registered (onClose socket S.relay).1 r connId peer ∨ TornDown S (.close socket) r ∨
      S.relay.attached.get socket = some ⟨.peer, r, some connId⟩ := by
  have hout := onClose_outcome socket S.relay
  generalize onClose socket S.relay = res at hout
  cases hout with
  | unattached => exact .inl hreg
  | detached => exact .inl hreg
  | toredown hatt hrole hroom hhost hopen =>
    rename_i att room
    have hid : room.roomId = att.roomId := h.roomId _ room hroom
    by_cases hr : r = room.roomId
    · refine .inr (.inl ⟨room, ?_, .inr ⟨by rw [hhost], hopen⟩⟩)
      rw [hr, hid]
      exact hroom
    · refine .inl ?_
      obtain ⟨room', hget, hpeer⟩ := hreg
      exact ⟨room', (InsertionMap.get_delete_ne _ hr).trans hget, hpeer⟩
  | left hatt hrole hconn hroom =>
    rename_i att room c
    rcases registered_drop ⟨_, S.relay.attached.delete socket, S.relay.rate⟩ c hroom rfl hreg
      with hstay | ⟨rfl, rfl⟩
    · exact .inl hstay
    · refine .inr (.inr ?_)
      rw [hatt, ← hrole, ← hconn]

theorem stable_message {socket : Socket} {data : Bytes} {now : ℕ}
    (hclean : CleanStep S (.message socket data now)) : Stable L S (.message socket data now) := by
  intro r connId peer hreg
  rw [next_relay]
  rcases seat_message hreg with hstay | ⟨att, hatt, hrole, rfl, hkick⟩
  · exact .inl hstay
  · obtain ⟨room, hroom, hpeer⟩ := hreg
    have hhost : room.host = socket := hclean att room connId peer hatt hrole hroom hkick hpeer
    exact .inr (.inr (.inl ⟨socket, data, now, room, rfl, hroom, hhost, hkick⟩))

theorem stable_close (h : Wf S) {socket : Socket} (hclean : CleanStep S (.close socket)) :
    Stable L S (.close socket) := by
  intro r connId peer hreg
  rw [next_relay]
  rcases seat_close h hreg with hstay | htorn | hatt
  · exact .inl hstay
  · exact .inr (.inr (.inr htorn))
  · exact .inr (.inl (by rw [hclean _ _ peer hatt hreg]))

theorem stable_sweep (h : Wf S) (now : ℕ) : Stable L S (.sweep now) := by
  intro r connId peer hreg
  obtain ⟨room, hget, hpeer⟩ := hreg
  by_cases hexp : expired now room = true
  · exact .inr (.inr (.inr ⟨room, hget, .inl ⟨now, rfl, hexp⟩⟩))
  · refine .inl ⟨room, ?_, hpeer⟩
    rw [next_relay]
    show (sweep L now S.relay).1.rooms.get r = some room
    rw [sweep_rooms_get L now S.relay h.roomId, hget]
    simp [hexp]

/-- **A clean step keeps every registration** that it is not entitled to end. -/
theorem stable_of_clean (h : Wf S) {e : Event} (hclean : CleanStep S e) : Stable L S e := by
  cases e with
  | hello socket hello now token => exact stable_hello h socket hello now token
  | message socket data now => exact stable_message hclean
  | close socket => exact stable_close h hclean
  | sweep now => exact stable_sweep h now

theorem late_close_silent_of_clean {e : Event} (hclean : CleanStep S e) :
    LateCloseSilent L S e := by
  rintro socket r connId other room rfl hatt hroom hpeer hne
  exact absurd (hclean r connId other hatt ⟨room, hroom, hpeer⟩) hne

/-- **A step that is not clean breaks one of the two laws.** -/
theorem clean_of_stable {e : Event} (hstable : Stable L S e) (hsilent : LateCloseSilent L S e) :
    CleanStep S e := by
  cases e with
  | hello socket hello now token => trivial
  | sweep now => trivial
  | close socket =>
    rintro r connId other hatt ⟨room, hroom, hpeer⟩
    by_contra hne
    have hquiet := hsilent socket r connId other room rfl hatt hroom hpeer hne
    rw [out_eq] at hquiet
    show False
    apply hquiet
    show Effect.send room.host (.peerDown connId) ∈ (onClose socket S.relay).2
    rw [onClose_peer hatt rfl rfl hroom]
    exact List.mem_singleton_self _
  | message socket data now =>
    intro att room connId peer hatt hrole hroom hkick hpeer
    rcases hstable att.roomId connId peer ⟨room, hroom, hpeer⟩ with hstay | heq | hkicked | htorn
    · rw [next_relay] at hstay
      change Registered (onMessage now socket data S.relay).1 att.roomId connId peer at hstay
      rw [onMessage_kick hatt hrole hroom hkick hpeer, registered_set rfl, if_pos rfl] at hstay
      rw [InsertionMap.get_delete_self] at hstay
      cases hstay
    · cases heq
    · obtain ⟨host, data', now', room', heq, hroom', hhost, -⟩ := hkicked
      cases heq
      have hsame : room' = room := Option.some.inj (hroom'.symm.trans hroom)
      rw [← hsame]
      exact hhost
    · obtain ⟨room', -, ⟨now', heq, -⟩ | ⟨heq, -⟩⟩ := htorn <;> cases heq

/-- **Membership stability, exactly.**  Along any run of the relay, registrations end only for the
reasons they should, and late closes stay silent, if and only if every step is clean. -/
theorem stable_iff_clean (L : RelayLimits) (es : List Event) (hvalid : (server L).Valid init es) :
    (server L).Along (fun S e => Stable L S e ∧ LateCloseSilent L S e) init es ↔
      (server L).Along CleanStep init es := by
  refine Machine.along_congr (I := Wf) (fun S e h _ => wf_next h e) (fun S e h _ => ?_) hvalid
    wf_init
  constructor
  · rintro ⟨hstable, hsilent⟩
    exact clean_of_stable hstable hsilent
  · intro hclean
    exact ⟨stable_of_clean h hclean, late_close_silent_of_clean hclean⟩

/-! ### A close that arrives after the room was created again -/

/-- The HELLO of a client: there is one room id for every install. -/
def helloAs (role : Role) : Hello := ⟨role, "65727231", "1.0.0", relayProtocolVersion, none⟩

/-- A host leaves and another one creates the room again.  Its first peer gets the connId of the
first peer of the old room, whose close is still on the way. -/
def lateCloseRun : List Event :=
  [.hello ⟨1, "10.0.0.1"⟩ (helloAs .host) 0 "a", .hello ⟨2, "10.0.0.2"⟩ (helloAs .peer) 1 "",
    .close ⟨1, "10.0.0.1"⟩, .hello ⟨3, "10.0.0.3"⟩ (helloAs .host) 2 "b",
    .hello ⟨4, "10.0.0.4"⟩ (helloAs .peer) 3 "", .close ⟨2, "10.0.0.2"⟩]

theorem late_close_run_unstable :
    (server defaultLimits).Valid init lateCloseRun ∧
      ¬ (server defaultLimits).Along
        (fun S e => Stable defaultLimits S e ∧ LateCloseSilent defaultLimits S e)
        init lateCloseRun := by
  refine ⟨by decide +kernel, fun halong => ?_⟩
  have hstep := Machine.along_iff_split.mp halong (lateCloseRun.take 5)
    (.close ⟨2, "10.0.0.2"⟩) [] rfl
  have hreg : Registered ((server defaultLimits).exec init (lateCloseRun.take 5)).relay
      "65727231" 1 ⟨4, "10.0.0.4"⟩ := ⟨_, rfl, rfl⟩
  rcases hstep.1 _ _ _ hreg with ⟨room, hroom, hpeer⟩ | heq | hkick | htorn
  · cases hroom
    cases hpeer
  · cases heq
  · obtain ⟨_, _, _, _, heq, -⟩ := hkick
    cases heq
  · obtain ⟨room, hroom, ⟨_, heq, -⟩ | ⟨heq, -⟩⟩ := htorn
    · cases heq
    · cases hroom
      cases heq

/-- A host, two peers and the departure of the first one. -/
def plainRun : List Event :=
  [.hello ⟨1, "10.0.0.1"⟩ (helloAs .host) 0 "a", .hello ⟨2, "10.0.0.2"⟩ (helloAs .peer) 1 "",
    .hello ⟨3, "10.0.0.3"⟩ (helloAs .peer) 2 "", .close ⟨2, "10.0.0.2"⟩]

theorem stable_iff_clean_plainRun :
    (server defaultLimits).Along
        (fun S e => Stable defaultLimits S e ∧ LateCloseSilent defaultLimits S e) init plainRun ↔
      (server defaultLimits).Along CleanStep init plainRun :=
  stable_iff_clean defaultLimits plainRun (by decide +kernel)

/-! ### Host authority -/

/-- `socket` is attached as a host of a room that has a different host now. -/
def StaleHost (R : State) (socket : Socket) : Prop :=
  ∃ att room, R.attached.get socket = some att ∧ att.role = .host ∧
    R.rooms.get att.roomId = some room ∧ room.host ≠ socket

/-- The message changes no room, closes no socket and sends nothing but a PONG to its sender. -/
def Inert (R : State) (socket : Socket) (data : Bytes) (now : ℕ) : Prop :=
  (onMessage now socket data R).1.rooms = R.rooms ∧
    ∀ effect ∈ (onMessage now socket data R).2, effect = .send socket .pong

/-- The message is a KICK or a DATA_H that names a registered connId of the sender's room. -/
def NamesPeer (R : State) (socket : Socket) (data : Bytes) : Prop :=
  ∃ att connId peer, R.attached.get socket = some att ∧
    Registered R att.roomId connId peer ∧
    (decodeKick data = some connId ∨
      ∃ frame, decodeDataFromHost data = some frame ∧ frame.connId = connId)

/-- **A superseded host is inert exactly when it names no registered peer.** -/
theorem inert_iff_not_names {socket : Socket} {data : Bytes} {now : ℕ}
    (hstale : StaleHost R socket) : Inert R socket data now ↔ ¬ NamesPeer R socket data := by
  obtain ⟨att₀, room₀, hatt₀, hrole₀, hroom₀, hhost₀⟩ := hstale
  constructor
  · rintro ⟨hrooms, heffects⟩ ⟨att, connId, peer, hatt, ⟨room, hroom, hpeer⟩, hname⟩
    have hatt_eq : att = att₀ := Option.some.inj (hatt.symm.trans hatt₀)
    subst hatt_eq
    rcases hname with hkick | ⟨frame, hframe, rfl⟩
    · rw [onMessage_kick hatt hrole₀ hroom hkick hpeer] at heffects
      have heq := heffects _ (List.mem_singleton_self _)
      cases heq
    · rw [onMessage_dataH hatt hrole₀ hroom hframe hpeer] at heffects
      have heq := heffects _ (List.mem_singleton_self _)
      cases heq
  · intro hname
    unfold Inert
    have hout := onMessage_outcome now socket data R
    generalize onMessage now socket data R = res at hout
    cases hout with
    | ignored => simp
    | ponged => simp
    | kicked hatt hrole hroom hkick hpeer =>
      exact absurd ⟨_, _, _, hatt, ⟨_, hroom, hpeer⟩, .inl hkick⟩ hname
    | handedOff hatt hrole hroom hhost htype =>
      have hatt_eq := Option.some.inj (hatt.symm.trans hatt₀)
      subst hatt_eq
      have hroom_eq := Option.some.inj (hroom.symm.trans hroom₀)
      subst hroom_eq
      exact absurd hhost hhost₀
    | toPeer hatt hrole hroom hframe hpeer =>
      exact absurd ⟨_, _, _, hatt, ⟨_, hroom, hpeer⟩, .inr ⟨_, hframe, rfl⟩⟩ hname
    | toHost hatt hrole hroom hopen hframe hconn =>
      have hatt_eq := Option.some.inj (hatt.symm.trans hatt₀)
      subst hatt_eq
      rw [hrole₀] at hrole
      cases hrole

/-- If the event is a message of a superseded host, it is inert. -/
def StaleHostInert (S : ServerState) (e : Event) : Prop :=
  ∀ socket data now, e = .message socket data now → StaleHost S.relay socket →
    Inert S.relay socket data now

/-- If the event is a message of a superseded host, it names no registered peer. -/
def StaleHostHarmless (S : ServerState) (e : Event) : Prop :=
  ∀ socket data now, e = .message socket data now → StaleHost S.relay socket →
    ¬ NamesPeer S.relay socket data

/-- **Host authority, exactly.**  Along any run of the relay, superseded hosts have no effect if and
only if none of them sends a KICK or a DATA_H that names a registered connId of its room. -/
theorem stale_host_inert_iff (L : RelayLimits) (es : List Event)
    (hvalid : (server L).Valid init es) :
    (server L).Along StaleHostInert init es ↔ (server L).Along StaleHostHarmless init es := by
  refine Machine.along_congr (I := fun _ => True) (fun _ _ _ _ => trivial) (fun S e _ _ => ?_)
    hvalid trivial
  constructor
  · intro hinert socket data now he hstale
    exact (inert_iff_not_names hstale).mp (hinert socket data now he hstale)
  · intro hharmless socket data now he hstale
    exact (inert_iff_not_names hstale).mpr (hharmless socket data now he hstale)

/-- The first host hands the room off, a successor claims it, and the first host then kicks the
successor's peer. -/
def staleKickRun : List Event :=
  [.hello ⟨1, "10.0.0.1"⟩ (helloAs .host) 0 "a", .hello ⟨2, "10.0.0.2"⟩ (helloAs .peer) 1 "",
    .message ⟨1, "10.0.0.1"⟩ [T.handoff] 2, .hello ⟨3, "10.0.0.3"⟩ (helloAs .host) 3 "b",
    .message ⟨1, "10.0.0.1"⟩ [T.kick, 0, 0, 0, 1] 4]

theorem stale_host_kicks :
    (server defaultLimits).Valid init staleKickRun ∧
      ¬ (server defaultLimits).Along StaleHostInert init staleKickRun := by
  refine ⟨by decide +kernel, fun halong => ?_⟩
  have hinert := Machine.along_iff_split.mp halong (staleKickRun.take 4)
    (.message ⟨1, "10.0.0.1"⟩ [T.kick, 0, 0, 0, 1] 4) [] rfl _ _ _ rfl
    ⟨_, _, rfl, rfl, rfl, by decide⟩
  have heq := hinert.2 (.close ⟨2, "10.0.0.2"⟩ 1000 "kicked") (List.mem_singleton_self _)
  cases heq

/-- The first host pings instead, and kicks a connId that nobody has. -/
def staleInertRun : List Event :=
  staleKickRun.take 4 ++
    [.message ⟨1, "10.0.0.1"⟩ [T.ping] 4, .message ⟨1, "10.0.0.1"⟩ [T.kick, 0, 0, 0, 9] 5]

theorem stale_host_inert_iff_inertRun :
    StaleHost ((server defaultLimits).exec init (staleInertRun.take 5)).relay ⟨1, "10.0.0.1"⟩ ∧
      (server defaultLimits).Along StaleHostInert init staleInertRun := by
  refine ⟨⟨_, _, rfl, rfl, rfl, by decide⟩,
    (stale_host_inert_iff defaultLimits staleInertRun (by decide +kernel)).mpr ?_⟩
  have hello : ∀ {S : ServerState} {s : Socket} {h : Hello} {now : ℕ} {token : String},
      StaleHostHarmless S (.hello s h now token) := fun _ _ _ he => by cases he
  have mute : ∀ {S : ServerState} {s : Socket} {data : Bytes} {now : ℕ}, decodeKick data = none →
      decodeDataFromHost data = none → StaleHostHarmless S (.message s data now) := by
    rintro S s data now hkick hdata _ _ _ he - ⟨_, _, _, _, _, hnamed⟩
    cases he
    simp [hkick, hdata] at hnamed
  refine ⟨hello, hello, mute rfl rfl, hello, mute rfl rfl, ?_, trivial⟩
  rintro _ _ _ he - ⟨att, connId, peer, hatt, ⟨room, hroom, hpeer⟩, hkick | ⟨frame, hframe, -⟩⟩
  · cases he
    cases hatt
    cases hroom
    have hconn : connId = 9 := (Option.some.inj hkick).symm
    subst hconn
    cases hpeer
  · cases he
    cases hframe

end ScreenSharing.Relay
