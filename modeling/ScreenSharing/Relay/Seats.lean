import ScreenSharing.Relay.Runs

/-!
# Seats

A seat is a connId of a room with the socket registered under it.  Two facts hold in every state the
relay can reach: whoever has a seat is attached as the peer of exactly that seat, so no socket has
two; and no socket is the host of two rooms.  `Seated` adds them to the representation invariant,
and `seated_next` keeps them over one event.

`seat_origin` is the other half: it tells where a seat after an event comes from.  The seat was
there before, and nobody told its socket of a new host; or the event is the claim of its room, and
the relay told it; or the socket has only just said HELLO.
-/

namespace ScreenSharing.Relay

open Lib

variable {L : RelayLimits} {S : ServerState} {R R' : State}

/-! ### The claim of a room -/

/-- The room that a HELLO claims, if it does. -/
def claimedRoom (R : State) (now : ℕ) (hello : Hello) : Option Room :=
  if hello.role = .host ∧ hello.proto = relayProtocolVersion then
    (R.rooms.get hello.roomId).filter (claimable now)
  else none

theorem claimedRoom_of_claim {now : ℕ} {hello : Hello} {room : Room} (hrole : hello.role = .host)
    (hproto : hello.proto = relayProtocolVersion)
    (hroom : R.rooms.get hello.roomId = some room) (hclaim : claimable now room = true) :
    claimedRoom R now hello = some room := by
  unfold claimedRoom
  rw [if_pos ⟨hrole, hproto⟩, hroom]
  exact Option.filter_some_pos hclaim

theorem get_of_claimedRoom {now : ℕ} {hello : Hello} {room : Room}
    (h : claimedRoom R now hello = some room) : R.rooms.get hello.roomId = some room := by
  unfold claimedRoom at h
  split at h
  · exact (Option.filter_eq_some_iff.mp h).1
  · cases h

/-- The claim tells every peer of the room. -/
theorem told_of_claim (token : String) (socket : Socket) {room : Room} (R : State) {connId : ℕ}
    {peer : Socket} (hpeer : room.peers.get connId = some peer) :
    Effect.send peer .hostClaimed ∈ (claimHandoff token socket room R).2 := by
  refine List.mem_cons_of_mem _ (List.mem_flatMap.mpr ⟨(connId, peer), ?_, ?_⟩)
  · exact (InsertionMap.mem_entries _ _ _).mpr hpeer
  · exact List.mem_cons_of_mem _ (List.mem_singleton_self _)

/-- The claim tells nobody else. -/
theorem seat_of_told {token : String} {socket : Socket} {room : Room} (R : State) {peer : Socket}
    (htold : Effect.send peer .hostClaimed ∈ (claimHandoff token socket room R).2) :
    ∃ connId, room.peers.get connId = some peer := by
  rcases List.mem_cons.mp htold with heq | hmem
  · cases heq
  · obtain ⟨⟨connId, other⟩, hentry, hsend⟩ := List.mem_flatMap.mp hmem
    rcases List.mem_cons.mp hsend with heq | hlast
    · cases heq
    · cases List.mem_singleton.mp hlast
      exact ⟨connId, (InsertionMap.mem_entries _ _ _).mp hentry⟩

/-! ### Everything but a HELLO -/

/-- Rooms and seats may go, deadlines may be set; nothing is added and no host changes. -/
def Shrinks (R R' : State) : Prop :=
  ∀ r room', R'.rooms.get r = some room' → ∃ room, R.rooms.get r = some room ∧
    room'.host = room.host ∧
    (∀ connId socket, room'.peers.get connId = some socket →
      room.peers.get connId = some socket) ∧
    (room'.handoffDeadline = none → room.handoffDeadline = none)

theorem Shrinks.rfl (hrooms : R'.rooms = R.rooms) : Shrinks R R' := by
  intro r room hroom
  rw [hrooms] at hroom
  exact ⟨room, hroom, Eq.refl _, fun _ _ h => h, fun h => h⟩

/-- One room is replaced by a smaller one. -/
theorem Shrinks.set {r₀ : String} {room₀ room₁ : Room} (hroom : R.rooms.get r₀ = some room₀)
    (hrooms : R'.rooms = R.rooms.set r₀ room₁) (hhost : room₁.host = room₀.host)
    (hpeers : ∀ connId socket, room₁.peers.get connId = some socket →
      room₀.peers.get connId = some socket)
    (hopen : room₁.handoffDeadline = none → room₀.handoffDeadline = none) : Shrinks R R' := by
  intro r room' hroom'
  rw [hrooms, InsertionMap.get_set] at hroom'
  split at hroom'
  · next hr =>
    cases hroom'
    rw [hr]
    exact ⟨room₀, hroom, hhost, hpeers, hopen⟩
  · exact ⟨room', hroom', Eq.refl _, fun _ _ h => h, fun h => h⟩

theorem Shrinks.dropPeer {r₀ : String} {room₀ : Room} (c₀ : ℕ) (hroom : R.rooms.get r₀ = some room₀)
    (hrooms : R'.rooms = R.rooms.set r₀ { room₀ with peers := room₀.peers.delete c₀ }) :
    Shrinks R R' :=
  .set hroom hrooms (Eq.refl _) (fun _ _ h => (InsertionMap.get_of_get_delete h).1) fun h => h

theorem Shrinks.registered (h : Shrinks R R') {r : String} {connId : ℕ} {socket : Socket}
    (hreg : Registered R' r connId socket) : Registered R r connId socket := by
  obtain ⟨room', hroom', hpeer'⟩ := hreg
  obtain ⟨room, hroom, -, hpeers, -⟩ := h r room' hroom'
  exact ⟨room, hroom, hpeers connId socket hpeer'⟩

theorem shrinks_message (now : ℕ) (socket : Socket) (data : Bytes) (R : State) :
    Shrinks R (onMessage now socket data R).1 := by
  have hout := onMessage_outcome now socket data R
  generalize onMessage now socket data R = res at hout
  cases hout with
  | ignored => exact .rfl rfl
  | ponged => exact .rfl rfl
  | kicked hatt hrole hroom hkick hpeer => exact .dropPeer _ hroom rfl
  | handedOff hatt hrole hroom hhost htype =>
    exact .set hroom rfl rfl (fun _ _ h => h) fun h => by cases h
  | toPeer => exact .rfl rfl
  | toHost => exact .rfl rfl

theorem shrinks_close (socket : Socket) (R : State) : Shrinks R (onClose socket R).1 := by
  have hout := onClose_outcome socket R
  generalize onClose socket R = res at hout
  cases hout with
  | unattached => exact .rfl rfl
  | detached => exact .rfl rfl
  | toredown hatt hrole hroom hhost hopen =>
    intro r room' hroom'
    exact ⟨room', (InsertionMap.get_of_get_delete hroom').1, rfl, fun _ _ h => h, fun h => h⟩
  | left hatt hrole hconn hroom => exact .dropPeer _ hroom rfl

theorem shrinks_sweep (h : Wf S) (now : ℕ) : Shrinks S.relay (sweep L now S.relay).1 :=
  fun _ room' hroom' => ⟨room', get_of_get_sweep h hroom', rfl, fun _ _ h => h, fun h => h⟩

/-- The room loop of `sweep` sends HOST_GONE to peers and closes them, no more. -/
theorem sweepRooms_effects (now : ℕ) (rooms : List Room) : ∀ (R : State) (effect : Effect),
    effect ∈ (sweepRooms now rooms R).2 → ∃ peer, effect = .send peer .hostGone ∨
      effect = .close peer 1001 "host gone" := by
  induction rooms with
  | nil =>
    intro R effect hmem
    cases hmem
  | cons room rooms ih =>
    intro R effect hmem
    rw [sweepRooms] at hmem
    split at hmem
    · rcases List.mem_append.mp hmem with htorn | hrest
      · obtain ⟨peer, -, hpeer⟩ := List.mem_flatMap.mp htorn
        refine ⟨peer, ?_⟩
        simpa using hpeer
      · exact ih _ effect hrest
    · exact ih R effect hmem

/-- **Only a claim tells anyone of a new host.** -/
theorem claim_of_told {e : Event} {peer : Socket}
    (htold : Effect.send peer .hostClaimed ∈ (react L S.relay e).2) :
    ∃ host hello now token room connId, e = .hello host hello now token ∧
      claimedRoom S.relay now hello = some room ∧ room.peers.get connId = some peer := by
  cases e with
  | hello host hello now token =>
    change _ ∈ (onHello L now token host hello S.relay).2 at htold
    have hout := onHello_outcome L now token host hello S.relay
    generalize onHello L now token host hello S.relay = res at hout htold
    cases hout with
    | refused => simp [kick] at htold
    | claimed hfresh hrole hroom hclaim hproto =>
      obtain ⟨connId, hpeer⟩ := seat_of_told S.relay htold
      exact ⟨host, hello, now, token, _, connId, rfl,
        claimedRoom_of_claim hrole hproto hroom hclaim, hpeer⟩
    | created => simp at htold
    | joined => simp at htold
  | message socket data now =>
    change _ ∈ (onMessage now socket data S.relay).2 at htold
    have hout := onMessage_outcome now socket data S.relay
    generalize onMessage now socket data S.relay = res at hout htold
    cases hout <;> simp at htold
  | close socket =>
    change _ ∈ (onClose socket S.relay).2 at htold
    have hout := onClose_outcome socket S.relay
    generalize onClose socket S.relay = res at hout htold
    cases hout with
    | toredown => simp [teardownRoom] at htold
    | unattached => simp at htold
    | detached => simp at htold
    | left => simp at htold
  | sweep now =>
    obtain ⟨_, heq | heq⟩ := sweepRooms_effects now _ S.relay _ htold <;> cases heq

/-- **Only a frame of a peer reaches a host**, and only while no handoff is pending in its room. -/
theorem peer_of_toHost {R : State} {e : Event} {dest : Socket} {connId : ℕ} {isBinary : Bool}
    {payload : Bytes}
    (hsent : Effect.send dest (.dataToHost connId isBinary payload) ∈ (react L R e).2) :
    ∃ socket data now att room, e = .message socket data now ∧
      R.attached.get socket = some att ∧ att.role = .peer ∧ att.connId = some connId ∧
      R.rooms.get att.roomId = some room ∧ room.host = dest ∧ room.handoffDeadline = none ∧
      (decodeDataFromPeer data).isSome = true := by
  cases e with
  | hello host hello now token =>
    change _ ∈ (onHello L now token host hello R).2 at hsent
    have hout := onHello_outcome L now token host hello R
    generalize onHello L now token host hello R = res at hout hsent
    cases hout <;> simp [kick, claimHandoff] at hsent
  | message socket data now =>
    change _ ∈ (onMessage now socket data R).2 at hsent
    have hout := onMessage_outcome now socket data R
    generalize onMessage now socket data R = res at hout hsent
    cases hout with
    | toHost hatt hrole hroom hopen hframe hconn =>
      cases List.mem_singleton.mp hsent
      exact ⟨socket, data, now, _, _, rfl, hatt, hrole, hconn, hroom, rfl, hopen,
        Option.isSome_iff_exists.mpr ⟨_, hframe⟩⟩
    | ignored => simp at hsent
    | ponged => simp at hsent
    | kicked => simp at hsent
    | handedOff => simp at hsent
    | toPeer => simp at hsent
  | close socket =>
    change _ ∈ (onClose socket R).2 at hsent
    have hout := onClose_outcome socket R
    generalize onClose socket R = res at hout hsent
    cases hout <;> simp [teardownRoom] at hsent
  | sweep now =>
    obtain ⟨_, heq | heq⟩ := sweepRooms_effects now _ R _ hsent <;> cases heq

/-- **Only a frame of a socket attached as a host reaches a peer**, as its payload at that. -/
theorem host_of_toPeer {R : State} {e : Event} {dest : Socket} {isBinary : Bool} {payload : Bytes}
    (hsent : Effect.send dest (.dataToPeer isBinary payload) ∈ (react L R e).2) :
    ∃ socket data now att room frame, e = .message socket data now ∧
      R.attached.get socket = some att ∧ att.role = .host ∧ R.rooms.get att.roomId = some room ∧
      decodeDataFromHost data = some frame ∧ room.peers.get frame.connId = some dest := by
  cases e with
  | hello host hello now token =>
    change _ ∈ (onHello L now token host hello R).2 at hsent
    have hout := onHello_outcome L now token host hello R
    generalize onHello L now token host hello R = res at hout hsent
    cases hout <;> simp [kick, claimHandoff] at hsent
  | message socket data now =>
    change _ ∈ (onMessage now socket data R).2 at hsent
    have hout := onMessage_outcome now socket data R
    generalize onMessage now socket data R = res at hout hsent
    cases hout with
    | toPeer hatt hrole hroom hframe hpeer =>
      cases List.mem_singleton.mp hsent
      exact ⟨socket, data, now, _, _, _, rfl, hatt, hrole, hroom, hframe, hpeer⟩
    | ignored => simp at hsent
    | ponged => simp at hsent
    | kicked => simp at hsent
    | handedOff => simp at hsent
    | toHost => simp at hsent
  | close socket =>
    change _ ∈ (onClose socket R).2 at hsent
    have hout := onClose_outcome socket R
    generalize onClose socket R = res at hout hsent
    cases hout <;> simp [teardownRoom] at hsent
  | sweep now =>
    obtain ⟨_, heq | heq⟩ := sweepRooms_effects now _ R _ hsent <;> cases heq

/-! ### Seats over one event -/

/-- Where the seat of `socket` at `connId` of room `r` comes from. -/
inductive SeatOrigin (L : RelayLimits) (S : ServerState) (e : Event) (r : String) (connId : ℕ)
    (socket : Socket) (room' : Room) : Prop
  | kept {room : Room} (hroom : S.relay.rooms.get r = some room)
      (hpeer : room.peers.get connId = some socket)
      (hopen : room'.handoffDeadline = none → room.handoffDeadline = none)
      (huntold : Effect.send socket .hostClaimed ∉ (react L S.relay e).2)
  | claimed {host : Socket} {hello : Hello} {now : ℕ} {token : String} {room : Room}
      (hevent : e = .hello host hello now token)
      (hclaimed : claimedRoom S.relay now hello = some room)
      (hroom : S.relay.rooms.get r = some room) (hpeer : room.peers.get connId = some socket)
      (htold : Effect.send socket .hostClaimed ∈ (react L S.relay e).2)
  | joined (hnew : socket ∉ S.greeted)
      (huntold : Effect.send socket .hostClaimed ∉ (react L S.relay e).2)

/-- Seats and hosts, over the representation invariant. -/
structure Seated (S : ServerState) : Prop extends Wf S where
  seat : ∀ r connId socket, Registered S.relay r connId socket →
    S.relay.attached.get socket = some ⟨.peer, r, some connId⟩
  hostGreeted : ∀ r room, S.relay.rooms.get r = some room → room.host ∈ S.greeted
  ownRoom : ∀ r r' room room', S.relay.rooms.get r = some room →
    S.relay.rooms.get r' = some room' → room.host = room'.host → r = r'

theorem seated_init : Seated init where
  toWf := wf_init
  seat r connId socket h := by
    obtain ⟨room, hroom, -⟩ := h
    cases hroom
  hostGreeted r room h := by cases h
  ownRoom r r' room room' h := by cases h

/-- Whoever has a seat has only this one. -/
theorem Seated.unique (h : Seated S) {r r' : String} {connId connId' : ℕ} {socket : Socket}
    (hreg : Registered S.relay r connId socket) (hreg' : Registered S.relay r' connId' socket) :
    r = r' ∧ connId = connId' := by
  have heq := (h.seat r connId socket hreg).symm.trans (h.seat r' connId' socket hreg')
  simpa using heq

theorem Seated.seat_greeted (h : Seated S) {r : String} {connId : ℕ} {socket : Socket}
    (hreg : Registered S.relay r connId socket) : socket ∈ S.greeted :=
  h.greeted socket _ (h.seat r connId socket hreg)

/-- After an event that only shrinks the rooms, a seat is one that was there before. -/
theorem origin_of_shrinks {e : Event} (hshrinks : Shrinks S.relay (react L S.relay e).1)
    (hno : ∀ host hello now token, e ≠ .hello host hello now token) {r : String} {connId : ℕ}
    {socket : Socket} {room' : Room} (hroom' : (react L S.relay e).1.rooms.get r = some room')
    (hpeer' : room'.peers.get connId = some socket) :
    SeatOrigin L S e r connId socket room' := by
  obtain ⟨room, hroom, -, hpeers, hopen⟩ := hshrinks r room' hroom'
  refine .kept hroom (hpeers connId socket hpeer') hopen fun htold => ?_
  obtain ⟨host, hello, now, token, -, -, heq, -⟩ := claim_of_told htold
  exact hno host hello now token heq

theorem origin_hello (h : Seated S) {host : Socket} {hello : Hello} {now : ℕ} {token : String}
    (henabled : Enabled S (.hello host hello now token)) {r : String} {connId : ℕ}
    {socket : Socket} {room' : Room}
    (hroom' : (onHello L now token host hello S.relay).1.rooms.get r = some room')
    (hpeer' : room'.peers.get connId = some socket) :
    SeatOrigin L S (.hello host hello now token) r connId socket room' := by
  have huntold : ∀ {R' : State} {out : List Effect},
      onHello L now token host hello S.relay = (R', out) → Effect.send socket .hostClaimed ∉ out →
        Effect.send socket .hostClaimed ∉ (react L S.relay (.hello host hello now token)).2 := by
    intro R' out heq hmem
    change _ ∉ (onHello L now token host hello S.relay).2
    rw [heq]
    exact hmem
  have hout := onHello_outcome L now token host hello S.relay
  generalize hres : onHello L now token host hello S.relay = res at hout hroom'
  cases hout with
  | refused reason hrooms hatt =>
    rw [hrooms] at hroom'
    exact .kept hroom' hpeer' (fun h => h) (huntold hres (by simp [kick]))
  | claimed hfresh hrole hroom hclaim hproto =>
    rename_i room
    have hid : room.roomId = hello.roomId := h.roomId _ room hroom
    change (S.relay.rooms.set room.roomId _).get r = some room' at hroom'
    rw [hid, InsertionMap.get_set] at hroom'
    split at hroom'
    · next hr =>
      cases hroom'
      rw [hr]
      refine .claimed rfl (claimedRoom_of_claim hrole hproto hroom hclaim) hroom hpeer' ?_
      change _ ∈ (onHello L now token host hello S.relay).2
      rw [hres]
      exact told_of_claim token host S.relay hpeer'
    · next hr =>
      refine .kept hroom' hpeer' (fun h => h) (huntold hres fun htold => hr ?_)
      -- a peer that is told has its seat in the claimed room
      obtain ⟨connId', hpeer⟩ := seat_of_told S.relay htold
      exact (h.unique ⟨room', hroom', hpeer'⟩ ⟨room, hroom, hpeer⟩).1
  | created hfresh hrole hroom hrooms hatt =>
    rw [hrooms, InsertionMap.get_set] at hroom'
    split at hroom'
    · cases hroom'
      cases hpeer'
    · exact .kept hroom' hpeer' (fun h => h) (huntold hres (by simp))
  | joined hfresh hrole hroom hrooms hatt =>
    rename_i room
    rw [hrooms, InsertionMap.get_set] at hroom'
    split at hroom'
    · next hr =>
      cases hroom'
      change (room.peers.set room.nextConnId host).get connId = some socket at hpeer'
      rw [InsertionMap.get_set] at hpeer'
      split at hpeer'
      · cases hpeer'
        exact .joined henabled.1 (huntold hres (by simp))
      · rw [hr]
        exact .kept hroom hpeer' (fun h => h) (huntold hres (by simp))
    · exact .kept hroom' hpeer' (fun h => h) (huntold hres (by simp))

/-- **Every seat after an event has its origin.** -/
theorem seat_origin (h : Seated S) {e : Event} (henabled : Enabled S e) {r : String} {connId : ℕ}
    {socket : Socket} {room' : Room} (hroom' : (react L S.relay e).1.rooms.get r = some room')
    (hpeer' : room'.peers.get connId = some socket) :
    SeatOrigin L S e r connId socket room' := by
  cases e with
  | hello host hello now token => exact origin_hello h henabled hroom' hpeer'
  | message socket' data now =>
    exact origin_of_shrinks (shrinks_message now socket' data S.relay) (by simp) hroom' hpeer'
  | close socket' =>
    exact origin_of_shrinks (shrinks_close socket' S.relay) (by simp) hroom' hpeer'
  | sweep now => exact origin_of_shrinks (shrinks_sweep h.toWf now) (by simp) hroom' hpeer'

/-! ### One event keeps the seats -/

/-- Shrinking the rooms keeps seats and hosts, as long as whoever still has a seat stays attached.
-/
theorem seated_of_shrinks (h : Seated S) {S' : ServerState} (hwf : Wf S')
    (hshrinks : Shrinks S.relay S'.relay) (hgreeted : ∀ s ∈ S.greeted, s ∈ S'.greeted)
    (hatt : ∀ r connId socket, Registered S'.relay r connId socket →
      S'.relay.attached.get socket = S.relay.attached.get socket) : Seated S' where
  toWf := hwf
  seat r connId socket hreg :=
    (hatt r connId socket hreg).trans (h.seat r connId socket (hshrinks.registered hreg))
  hostGreeted r room' hroom' := by
    obtain ⟨room, hroom, hhost, -⟩ := hshrinks r room' hroom'
    rw [hhost]
    exact hgreeted _ (h.hostGreeted r room hroom)
  ownRoom r₁ r₂ room₁' room₂' hroom₁' hroom₂' heq := by
    obtain ⟨room₁, hroom₁, hhost₁, -⟩ := hshrinks r₁ room₁' hroom₁'
    obtain ⟨room₂, hroom₂, hhost₂, -⟩ := hshrinks r₂ room₂' hroom₂'
    exact h.ownRoom r₁ r₂ room₁ room₂ hroom₁ hroom₂ (by rw [← hhost₁, ← hhost₂, heq])

/-- A room is made or replaced for a socket that has not said HELLO before: it becomes the host, or
it takes a seat. -/
theorem seated_set (h : Seated S) {S' : ServerState} (hwf : Wf S') {socket : Socket}
    (hgreeted : S'.greeted = socket :: S.greeted) (hnew : socket ∉ S.greeted) {r₀ : String}
    {room₁ : Room} {att : Attached} (hrooms : S'.relay.rooms = S.relay.rooms.set r₀ room₁)
    (hatt : S'.relay.attached = S.relay.attached.set socket att)
    (hhost : room₁.host = socket ∨
      ∃ room₀, S.relay.rooms.get r₀ = some room₀ ∧ room₁.host = room₀.host)
    (hpeers : ∀ connId peer, room₁.peers.get connId = some peer →
      Registered S.relay r₀ connId peer ∨ (peer = socket ∧ att = ⟨.peer, r₀, some connId⟩)) :
    Seated S' := by
  have hkept : ∀ r connId peer, Registered S.relay r connId peer →
      S'.relay.attached.get peer = some ⟨.peer, r, some connId⟩ := by
    intro r connId peer hreg
    have hne : peer ≠ socket := fun heq => hnew (heq ▸ h.seat_greeted hreg)
    rw [hatt, InsertionMap.get_set_ne _ _ hne]
    exact h.seat r connId peer hreg
  have horigin : ∀ r room', S'.relay.rooms.get r = some room' →
      (r = r₀ ∧ room'.host = socket) ∨
        ∃ room, S.relay.rooms.get r = some room ∧ room'.host = room.host := by
    intro r room' hroom'
    rw [hrooms, InsertionMap.get_set] at hroom'
    split at hroom'
    · next hr =>
      cases hroom'
      rw [hr]
      exact hhost.imp (fun heq => ⟨rfl, heq⟩) id
    · exact .inr ⟨room', hroom', rfl⟩
  refine ⟨hwf, ?_, ?_, ?_⟩
  · rintro r connId peer ⟨room', hroom', hpeer'⟩
    rw [hrooms, InsertionMap.get_set] at hroom'
    split at hroom'
    · next hr =>
      cases hroom'
      rw [hr]
      rcases hpeers connId peer hpeer' with hreg | ⟨rfl, heq⟩
      · exact hkept r₀ connId peer hreg
      · rw [hatt, InsertionMap.get_set_self, heq]
    · exact hkept r connId peer ⟨room', hroom', hpeer'⟩
  · intro r room' hroom'
    rw [hgreeted]
    rcases horigin r room' hroom' with ⟨-, heq⟩ | ⟨room, hroom, heq⟩
    · rw [heq]
      exact List.mem_cons_self
    · rw [heq]
      exact List.mem_cons_of_mem _ (h.hostGreeted r room hroom)
  · intro r₁ r₂ room₁' room₂' hroom₁' hroom₂' heq
    rcases horigin r₁ room₁' hroom₁' with ⟨hr₁, hsocket⟩ | ⟨room₁, hroom₁, hhost₁⟩
    · rcases horigin r₂ room₂' hroom₂' with ⟨hr₂, -⟩ | ⟨room₂, hroom₂, hhost₂⟩
      · rw [hr₁, hr₂]
      · refine absurd (h.hostGreeted r₂ room₂ hroom₂) ?_
        rw [← hhost₂, ← heq, hsocket]
        exact hnew
    · rcases horigin r₂ room₂' hroom₂' with ⟨-, hsocket⟩ | ⟨room₂, hroom₂, hhost₂⟩
      · refine absurd (h.hostGreeted r₁ room₁ hroom₁) ?_
        rw [← hhost₁, heq, hsocket]
        exact hnew
      · exact h.ownRoom r₁ r₂ room₁ room₂ hroom₁ hroom₂ (by rw [← hhost₁, ← hhost₂, heq])

theorem seated_hello (h : Seated S) {socket : Socket} {hello : Hello} {now : ℕ} {token : String}
    (henabled : Enabled S (.hello socket hello now token)) :
    Seated ((server L).next S (.hello socket hello now token)) := by
  have hwf : Wf ((server L).next S (.hello socket hello now token)) :=
    wf_hello h.toWf socket hello now token
  have hout := onHello_outcome L now token socket hello S.relay
  change Wf ⟨(onHello L now token socket hello S.relay).1, socket :: S.greeted, S.gone⟩ at hwf
  show Seated ⟨(onHello L now token socket hello S.relay).1, socket :: S.greeted, S.gone⟩
  generalize onHello L now token socket hello S.relay = res at hout hwf
  cases hout with
  | refused reason hrooms hatt =>
    exact seated_of_shrinks h hwf (.rfl hrooms) (fun s hs => List.mem_cons_of_mem _ hs)
      fun r connId peer _ => congrArg (InsertionMap.get · peer) hatt
  | claimed hfresh hrole hroom hclaim hproto =>
    rename_i room
    have hroom' : S.relay.rooms.get room.roomId = some room := by
      rw [h.roomId _ room hroom]
      exact hroom
    exact seated_set h hwf rfl henabled.1 rfl rfl (.inl rfl)
      fun connId peer hpeer => .inl ⟨room, hroom', hpeer⟩
  | created hfresh hrole hroom hrooms hatt =>
    exact seated_set h hwf rfl henabled.1 hrooms hatt (.inl rfl)
      fun connId peer hpeer => by cases hpeer
  | joined hfresh hrole hroom hrooms hatt =>
    rename_i R' room
    refine seated_set h hwf rfl henabled.1 hrooms hatt (.inr ⟨room, hroom, rfl⟩)
      fun connId peer hpeer => ?_
    change (room.peers.set room.nextConnId socket).get connId = some peer at hpeer
    rw [InsertionMap.get_set] at hpeer
    split at hpeer
    · next hc =>
      cases hpeer
      exact .inr ⟨rfl, by rw [hc]⟩
    · exact .inl ⟨room, hroom, hpeer⟩

theorem seated_message (h : Seated S) (socket : Socket) (data : Bytes) (now : ℕ) :
    Seated ((server L).next S (.message socket data now)) := by
  have hatt : (onMessage now socket data S.relay).1.attached = S.relay.attached := by
    have hout := onMessage_outcome now socket data S.relay
    generalize onMessage now socket data S.relay = res at hout
    cases hout <;> rfl
  exact seated_of_shrinks h (wf_message h.toWf socket data now)
    (shrinks_message now socket data S.relay) (fun s hs => hs)
    fun r connId peer _ => congrArg (InsertionMap.get · peer) hatt

/-- A socket that closes loses its seat and its attachment together. -/
theorem seated_close (h : Seated S) (socket : Socket) :
    Seated ((server L).next S (.close socket)) := by
  refine seated_of_shrinks h (wf_close h.toWf socket) (shrinks_close socket S.relay)
    (fun s hs => hs) fun r connId peer hreg => ?_
  change Registered (onClose socket S.relay).1 r connId peer at hreg
  change (onClose socket S.relay).1.attached.get peer = S.relay.attached.get peer
  have hbefore : Registered S.relay r connId peer := (shrinks_close socket S.relay).registered hreg
  have hne : peer ≠ socket := by
    rintro rfl
    obtain ⟨room, hroom, hpeer⟩ := hbefore
    rw [onClose_peer (h.seat r connId peer ⟨room, hroom, hpeer⟩) rfl rfl hroom] at hreg
    obtain ⟨room', hroom', hpeer'⟩ := hreg
    rw [InsertionMap.get_set_self] at hroom'
    cases hroom'
    rw [InsertionMap.get_delete_self] at hpeer'
    cases hpeer'
  have hout := onClose_outcome socket S.relay
  generalize onClose socket S.relay = res at hout
  cases hout with
  | unattached => rfl
  | detached => exact InsertionMap.get_delete_ne _ hne
  | toredown => exact InsertionMap.get_delete_ne _ hne
  | left => exact InsertionMap.get_delete_ne _ hne

theorem seated_sweep (h : Seated S) (now : ℕ) : Seated ((server L).next S (.sweep now)) :=
  seated_of_shrinks h (wf_sweep h.toWf now) (shrinks_sweep h.toWf now) (fun _ hs => hs)
    fun _ _ peer _ => congrArg (InsertionMap.get · peer) (sweep_attached L now S.relay)

/-- **One event keeps seats and hosts.** -/
theorem seated_next (h : Seated S) {e : Event} (henabled : Enabled S e) :
    Seated ((server L).next S e) := by
  cases e with
  | hello socket hello now token => exact seated_hello h henabled
  | message socket data now => exact seated_message h socket data now
  | close socket => exact seated_close h socket
  | sweep now => exact seated_sweep h now

/-! ### Hosts and their attachments -/

/-- A host that has not closed yet is attached as the host of its room. -/
def HostsAttached (S : ServerState) : Prop :=
  ∀ r room, S.relay.rooms.get r = some room → room.host ∉ S.gone →
    S.relay.attached.get room.host = some ⟨.host, r, none⟩

theorem hostsAttached_init : HostsAttached init := by
  intro r room hroom
  cases hroom

/-- Shrinking the rooms keeps it, as long as whoever has not closed stays attached. -/
theorem hostsAttached_of_shrinks (h : HostsAttached S) {S' : ServerState}
    (hshrinks : Shrinks S.relay S'.relay) (hgone : ∀ s ∈ S.gone, s ∈ S'.gone)
    (hatt : ∀ s, s ∉ S'.gone → S'.relay.attached.get s = S.relay.attached.get s) :
    HostsAttached S' := by
  intro r room' hroom' hopen
  obtain ⟨room, hroom, hhost, -⟩ := hshrinks r room' hroom'
  rw [hatt _ hopen, hhost]
  rw [hhost] at hopen
  exact h r room hroom fun hmem => hopen (hgone _ hmem)

/-- A room is made or replaced for a socket that has not said HELLO before. -/
theorem hostsAttached_set (hs : Seated S) (h : HostsAttached S) {S' : ServerState} {socket : Socket}
    (hgone : S'.gone = S.gone) (hnew : socket ∉ S.greeted) {r₀ : String} {room₁ : Room}
    {att : Attached} (hrooms : S'.relay.rooms = S.relay.rooms.set r₀ room₁)
    (hatt : S'.relay.attached = S.relay.attached.set socket att)
    (hhost : (room₁.host = socket ∧ att = ⟨.host, r₀, none⟩) ∨
      ∃ room₀, S.relay.rooms.get r₀ = some room₀ ∧ room₁.host = room₀.host) :
    HostsAttached S' := by
  have hold : ∀ r room, S.relay.rooms.get r = some room → room.host ∉ S.gone →
      S'.relay.attached.get room.host = some ⟨.host, r, none⟩ := by
    intro r room hroom hopen
    have hne : room.host ≠ socket := fun heq => hnew (heq ▸ hs.hostGreeted r room hroom)
    rw [hatt, InsertionMap.get_set_ne _ _ hne]
    exact h r room hroom hopen
  intro r room' hroom' hopen
  rw [hgone] at hopen
  rw [hrooms, InsertionMap.get_set] at hroom'
  split at hroom'
  · next hr =>
    cases hroom'
    rw [hr]
    rcases hhost with ⟨hsocket, rfl⟩ | ⟨room₀, hroom₀, hsame⟩
    · rw [hsocket, hatt, InsertionMap.get_set_self]
    · rw [hsame] at hopen ⊢
      exact hold r₀ room₀ hroom₀ hopen
  · exact hold r room' hroom' hopen

theorem hostsAttached_hello (hs : Seated S) (h : HostsAttached S) {socket : Socket} {hello : Hello}
    {now : ℕ} {token : String} (henabled : Enabled S (.hello socket hello now token)) :
    HostsAttached ((server L).next S (.hello socket hello now token)) := by
  have hout := onHello_outcome L now token socket hello S.relay
  show HostsAttached ⟨(onHello L now token socket hello S.relay).1, socket :: S.greeted, S.gone⟩
  generalize onHello L now token socket hello S.relay = res at hout
  cases hout with
  | refused reason hrooms hatt =>
    exact hostsAttached_of_shrinks h (.rfl hrooms) (fun s hmem => hmem)
      fun s _ => congrArg (InsertionMap.get · s) hatt
  | claimed hfresh hrole hroom hclaim hproto =>
    exact hostsAttached_set hs h rfl henabled.1 rfl rfl (.inl ⟨rfl, rfl⟩)
  | created hfresh hrole hroom hrooms hatt =>
    exact hostsAttached_set hs h rfl henabled.1 hrooms hatt (.inl ⟨rfl, rfl⟩)
  | joined hfresh hrole hroom hrooms hatt =>
    exact hostsAttached_set hs h rfl henabled.1 hrooms hatt (.inr ⟨_, hroom, rfl⟩)

theorem hostsAttached_close (h : HostsAttached S) (socket : Socket) :
    HostsAttached ((server L).next S (.close socket)) := by
  refine hostsAttached_of_shrinks h (shrinks_close socket S.relay)
    (fun s hmem => List.mem_cons_of_mem _ hmem) fun s hopen => ?_
  have hne : s ≠ socket := fun heq => hopen (heq ▸ List.mem_cons_self)
  change (onClose socket S.relay).1.attached.get s = S.relay.attached.get s
  have hout := onClose_outcome socket S.relay
  generalize onClose socket S.relay = res at hout
  cases hout with
  | unattached => rfl
  | detached => exact InsertionMap.get_delete_ne _ hne
  | toredown => exact InsertionMap.get_delete_ne _ hne
  | left => exact InsertionMap.get_delete_ne _ hne

/-- **One event keeps the hosts attached.** -/
theorem hostsAttached_next (hs : Seated S) (h : HostsAttached S) {e : Event}
    (henabled : Enabled S e) : HostsAttached ((server L).next S e) := by
  cases e with
  | hello socket hello now token => exact hostsAttached_hello hs h henabled
  | message socket data now =>
    have hatt : (onMessage now socket data S.relay).1.attached = S.relay.attached := by
      have hout := onMessage_outcome now socket data S.relay
      generalize onMessage now socket data S.relay = res at hout
      cases hout <;> rfl
    exact hostsAttached_of_shrinks h (shrinks_message now socket data S.relay)
      (fun s hmem => hmem) fun s _ => congrArg (InsertionMap.get · s) hatt
  | close socket => exact hostsAttached_close h socket
  | sweep now =>
    exact hostsAttached_of_shrinks h (shrinks_sweep hs.toWf now) (fun s hmem => hmem)
      fun s _ => congrArg (InsertionMap.get · s) (sweep_attached L now S.relay)

/-- What the proofs about runs use of a reachable state: seats, hosts and their attachments. -/
structure Reached (S : ServerState) : Prop extends Seated S where
  hosts : HostsAttached S

theorem reached_init : Reached init := ⟨seated_init, hostsAttached_init⟩

theorem reached_next (h : Reached S) {e : Event} (henabled : Enabled S e) :
    Reached ((server L).next S e) :=
  ⟨seated_next h.toSeated henabled, hostsAttached_next h.toSeated h.hosts henabled⟩

theorem reached_exec {es : List Event} (hvalid : (server L).Valid S es) (h : Reached S) :
    Reached ((server L).exec S es) :=
  Machine.exec_invariant (G := Enabled) (I := Reached)
    (fun _ _ h henabled => reached_next h henabled) hvalid h

end ScreenSharing.Relay
