import Mathlib.Data.List.Induction
import ScreenSharing.Relay.Membership
import ScreenSharing.Relay.Seats

/-!
# Whose frames a host reads under a connId

The relay tags each frame of a peer with the connId of the sender's attachment.  The attachment is
cleared by the sender's own close only, while the seat it names can be taken away before: by a KICK,
by the teardown of the room, or by the late close of another socket with the same connId.  On the way
from the host to a peer the relay looks the connId up in the peer table; on the way from a peer to
the host it does not.

`Unseats` lists the three ways to lose a seat.  `seated_or_unseated` says that a socket attached as a
peer still has its seat unless one of them happened, and `attributed_iff_unseated_silent` that every
host-bound frame belongs to the socket registered under its connId exactly when no socket that lost
its seat is still heard before its close.
-/

namespace ScreenSharing.Relay

open Lib

variable {L : RelayLimits} {S : ServerState} {R R' : State}

/-- If the event is a message of which the host of the sender's room gets a DATA_H frame, the connId
of the frame is registered for the sender. -/
def Attributed (L : RelayLimits) (S : ServerState) (e : Event) : Prop :=
  ∀ socket data now att room connId isBinary payload, e = .message socket data now →
    S.relay.attached.get socket = some att → S.relay.rooms.get att.roomId = some room →
    Effect.send room.host (.dataToHost connId isBinary payload) ∈ (server L).out S e →
    room.peers.get connId = some socket

/-- The event takes the seat of a socket away: a KICK names it, its room goes, or another socket with
an attachment for the same connId closes late. -/
inductive Unseats (S : ServerState) : Event → Socket → Prop
  | kicked {host : Socket} {data : Bytes} {now : ℕ} {att : Attached} {connId : ℕ} {socket : Socket}
      (hatt : S.relay.attached.get host = some att) (hrole : att.role = .host)
      (hkick : decodeKick data = some connId)
      (hseat : Registered S.relay att.roomId connId socket) :
      Unseats S (.message host data now) socket
  | tornDown {e : Event} {r : String} {connId : ℕ} {socket : Socket} (htorn : TornDown S e r)
      (hseat : Registered S.relay r connId socket) : Unseats S e socket
  | lateClose {other : Socket} {r : String} {connId : ℕ} {socket : Socket}
      (hatt : S.relay.attached.get other = some ⟨.peer, r, some connId⟩) (hne : other ≠ socket)
      (hseat : Registered S.relay r connId socket) : Unseats S (.close other) socket

/-- One of the events of the run takes the seat of the socket away. -/
def UnseatedIn (L : RelayLimits) (S : ServerState) (es : List Event) (socket : Socket) : Prop :=
  ∃ pre e post, es = pre ++ e :: post ∧ Unseats ((server L).exec S pre) e socket

/-- The relay takes the message for a frame of a peer to the host of its room. -/
def SpeaksToHost (R : State) (socket : Socket) (data : Bytes) : Prop :=
  ∃ att room, R.attached.get socket = some att ∧ att.role = .peer ∧
    R.rooms.get att.roomId = some room ∧ room.handoffDeadline = none ∧
    (decodeDataFromPeer data).isSome = true

/-! ### How a seat is lost -/

theorem Unseats.seat {e : Event} {socket : Socket} (h : Unseats S e socket) :
    ∃ r connId, Registered S.relay r connId socket := by
  cases h with
  | kicked _ _ _ hseat => exact ⟨_, _, hseat⟩
  | tornDown _ hseat => exact ⟨_, _, hseat⟩
  | lateClose _ _ hseat => exact ⟨_, _, hseat⟩

theorem lost_message {socket : Socket} {data : Bytes} {now : ℕ} {r : String} {connId : ℕ}
    {peer : Socket} (hseat : Registered S.relay r connId peer) :
    Registered (onMessage now socket data S.relay).1 r connId peer ∨
      Unseats S (.message socket data now) peer := by
  rcases seat_message hseat with hstay | ⟨att, hatt, hrole, rfl, hkick⟩
  · exact .inl hstay
  · exact .inr (.kicked hatt hrole hkick hseat)

theorem lost_close (h : Wf S) {socket : Socket} {r : String} {connId : ℕ} {peer : Socket}
    (hseat : Registered S.relay r connId peer) (hne : socket ≠ peer) :
    Registered (onClose socket S.relay).1 r connId peer ∨ Unseats S (.close socket) peer := by
  rcases seat_close h hseat with hstay | htorn | hatt
  · exact .inl hstay
  · exact .inr (.tornDown htorn hseat)
  · exact .inr (.lateClose hatt hne hseat)

/-- **A seat lasts until its socket closes or one of the three ways to lose it happens.** -/
theorem kept_or_unseated (h : Wf S) {e : Event} {r : String} {connId : ℕ} {socket : Socket}
    (hseat : Registered S.relay r connId socket) (hstay : e ≠ .close socket) :
    Registered ((server L).next S e).relay r connId socket ∨ Unseats S e socket := by
  rw [next_relay]
  cases e with
  | hello caller hello now token =>
    rcases stable_hello (L := L) h caller hello now token r connId socket hseat with
      hkept | heq | hkick | htorn
    · rw [next_relay] at hkept
      exact .inl hkept
    · cases heq
    · obtain ⟨_, _, _, _, heq, -⟩ := hkick
      cases heq
    · obtain ⟨_, -, ⟨_, heq, -⟩ | ⟨heq, -⟩⟩ := htorn <;> cases heq
  | message sender data now => exact lost_message hseat
  | close closing =>
    exact lost_close h hseat fun heq => hstay (by rw [heq])
  | sweep now =>
    rcases stable_sweep (L := L) h now r connId socket hseat with hkept | heq | hkick | htorn
    · rw [next_relay] at hkept
      exact .inl hkept
    · cases heq
    · obtain ⟨_, _, _, _, heq, -⟩ := hkick
      cases heq
    · exact .inr (.tornDown htorn hseat)

/-- A room that is torn down is gone. -/
theorem gone_of_tornDown (h : Reached S) {e : Event} (henabled : Enabled S e) {r : String}
    (htorn : TornDown S e r) :
    (react L S.relay e).1.rooms.get r = none := by
  obtain ⟨room, hroom, ⟨now, rfl, hexp⟩ | ⟨rfl, hpending⟩⟩ := htorn
  · show (sweep L now S.relay).1.rooms.get r = none
    rw [sweep_rooms_get L now S.relay h.roomId, hroom]
    exact if_pos hexp
  · have hatt := h.hosts r room hroom henabled
    show (onClose room.host S.relay).1.rooms.get r = none
    have hres : onClose room.host S.relay =
        teardownRoom room { S.relay with attached := S.relay.attached.delete room.host } := by
      simp [onClose, hatt, hroom, hpending]
    rw [hres]
    show (S.relay.rooms.delete room.roomId).get r = none
    rw [h.roomId r room hroom, InsertionMap.get_delete_self]

/-- **Who loses a seat has none afterwards.** -/
theorem no_seat_of_unseats (h : Reached S) {e : Event} (henabled : Enabled S e) {socket : Socket}
    (hlost : Unseats S e socket) {r : String} {connId : ℕ} :
    ¬ Registered ((server L).next S e).relay r connId socket := by
  intro hafter
  rw [next_relay] at hafter
  -- a seat after the event is the one from before
  have hbefore : Registered S.relay r connId socket := by
    obtain ⟨room', hroom', hpeer'⟩ := hafter
    cases seat_origin (L := L) h.toSeated henabled hroom' hpeer' with
    | kept hroom hpeer hopen huntold => exact ⟨_, hroom, hpeer⟩
    | claimed hevent hclaimed hroom hpeer htold => exact ⟨_, hroom, hpeer⟩
    | joined hnew huntold =>
      obtain ⟨r', connId', hseat⟩ := hlost.seat
      exact absurd (h.seat_greeted hseat) hnew
  cases hlost with
  | kicked hatt hrole hkick hseat =>
    obtain ⟨rfl, rfl⟩ := h.unique hseat hbefore
    obtain ⟨room, hroom, hpeer⟩ := hseat
    change Registered (onMessage _ _ _ S.relay).1 _ _ _ at hafter
    rw [onMessage_kick hatt hrole hroom hkick hpeer, registered_set rfl, if_pos rfl,
      InsertionMap.get_delete_self] at hafter
    cases hafter
  | tornDown htorn hseat =>
    obtain ⟨rfl, rfl⟩ := h.unique hseat hbefore
    obtain ⟨room', hroom', -⟩ := hafter
    rw [gone_of_tornDown h henabled htorn] at hroom'
    cases hroom'
  | lateClose hatt hne hseat =>
    obtain ⟨rfl, rfl⟩ := h.unique hseat hbefore
    obtain ⟨room, hroom, hpeer⟩ := hseat
    change Registered (onClose _ S.relay).1 _ _ _ at hafter
    rw [onClose_peer hatt rfl rfl hroom, registered_set rfl, if_pos rfl,
      InsertionMap.get_delete_self] at hafter
    cases hafter

/-! ### Where attachments come from -/

/-- An attachment after an event was there before, and its socket did not close, or it was made by
the event, for a host or together with a seat. -/
theorem attached_origin {e : Event} {socket : Socket} {att : Attached}
    (hatt : ((server L).next S e).relay.attached.get socket = some att) :
    (S.relay.attached.get socket = some att ∧ e ≠ .close socket) ∨ att.role = .host ∨
      ∃ r connId, att = ⟨.peer, r, some connId⟩ ∧
        Registered ((server L).next S e).relay r connId socket := by
  rw [next_relay] at hatt ⊢
  cases e with
  | hello caller hello now token =>
    change (onHello L now token caller hello S.relay).1.attached.get socket = some att at hatt
    show _ ∨ _ ∨ ∃ r connId, _ ∧
      Registered (onHello L now token caller hello S.relay).1 r connId socket
    have hout := onHello_outcome L now token caller hello S.relay
    generalize onHello L now token caller hello S.relay = res at hout hatt
    cases hout with
    | refused reason hrooms hatt' =>
      rw [hatt'] at hatt
      exact .inl ⟨hatt, by simp⟩
    | claimed =>
      change (S.relay.attached.set caller _).get socket = some att at hatt
      rw [InsertionMap.get_set] at hatt
      split at hatt
      · cases hatt
        exact .inr (.inl rfl)
      · exact .inl ⟨hatt, by simp⟩
    | created hfresh hrole hroom hrooms hatt' =>
      rw [hatt', InsertionMap.get_set] at hatt
      split at hatt
      · cases hatt
        exact .inr (.inl rfl)
      · exact .inl ⟨hatt, by simp⟩
    | joined hfresh hrole hroom hrooms hatt' =>
      rw [hatt', InsertionMap.get_set] at hatt
      split at hatt
      · next heq =>
        cases hatt
        refine .inr (.inr ⟨_, _, rfl, ?_⟩)
        rw [heq, registered_set hrooms, if_pos rfl]
        exact InsertionMap.get_set_self ..
      · exact .inl ⟨hatt, by simp⟩
  | message sender data now =>
    change (onMessage now sender data S.relay).1.attached.get socket = some att at hatt
    have hout := onMessage_outcome now sender data S.relay
    generalize onMessage now sender data S.relay = res at hout hatt
    cases hout <;> exact .inl ⟨hatt, by simp⟩
  | close closing =>
    change (onClose closing S.relay).1.attached.get socket = some att at hatt
    have hout := onClose_outcome closing S.relay
    have hdelete : (S.relay.attached.delete closing).get socket = some att →
        S.relay.attached.get socket = some att ∧ Event.close closing ≠ .close socket := by
      intro hget
      obtain ⟨hold, hne⟩ := InsertionMap.get_of_get_delete hget
      exact ⟨hold, fun heq => hne (Event.close.inj heq).symm⟩
    generalize onClose closing S.relay = res at hout hatt
    cases hout with
    | unattached hnone =>
      refine .inl ⟨hatt, fun heq => ?_⟩
      rw [Event.close.inj heq] at hnone
      rw [hnone] at hatt
      cases hatt
    | detached => exact .inl (hdelete hatt)
    | toredown => exact .inl (hdelete hatt)
    | left => exact .inl (hdelete hatt)
  | sweep now =>
    change (sweep L now S.relay).1.attached.get socket = some att at hatt
    rw [sweep_attached] at hatt
    exact .inl ⟨hatt, by simp⟩

/-! ### Seats and the history of a run -/

/-- What holds of a state when `unseated` are the sockets whose seat was taken away so far. -/
structure SeatHistory (S : ServerState) (unseated : Socket → Prop) : Prop where
  reached : Reached S
  connId : ∀ socket att, S.relay.attached.get socket = some att → att.role = .peer →
    ∃ connId, att.connId = some connId
  seated : ∀ socket r connId, S.relay.attached.get socket = some ⟨.peer, r, some connId⟩ →
    Registered S.relay r connId socket ∨ unseated socket
  noSeat : ∀ socket, unseated socket → socket ∈ S.greeted ∧
    ∀ r connId, ¬ Registered S.relay r connId socket

theorem seatHistory_init : SeatHistory init fun _ => False where
  reached := reached_init
  connId socket att h := by cases h
  seated socket r connId h := by cases h
  noSeat socket h := h.elim

theorem seatHistory_next {unseated : Socket → Prop} (h : SeatHistory S unseated) {e : Event}
    (henabled : Enabled S e) :
    SeatHistory ((server L).next S e) fun socket => unseated socket ∨ Unseats S e socket where
  reached := reached_next h.reached henabled
  connId socket att hatt hrole := by
    rcases attached_origin hatt with ⟨hold, -⟩ | hhost | ⟨r, connId, rfl, -⟩
    · exact h.connId socket att hold hrole
    · rw [hhost] at hrole
      cases hrole
    · exact ⟨connId, rfl⟩
  seated socket r connId hatt := by
    rcases attached_origin hatt with ⟨hold, hstay⟩ | hhost | ⟨r', connId', heq, hseat⟩
    · rcases h.seated socket r connId hold with hseat | hlost
      · rcases kept_or_unseated (L := L) h.reached.toWf hseat hstay with hkept | hlost
        · exact .inl hkept
        · exact .inr (.inr hlost)
      · exact .inr (.inl hlost)
    · cases hhost
    · cases heq
      exact .inl hseat
  noSeat socket hlost := by
    have hgrow : socket ∈ S.greeted → socket ∈ ((server L).next S e).greeted := by
      intro hmem
      cases e with
      | hello => exact List.mem_cons_of_mem _ hmem
      | message => exact hmem
      | close => exact hmem
      | sweep => exact hmem
    rcases hlost with hbefore | hnow
    · obtain ⟨hgreeted, hnone⟩ := h.noSeat socket hbefore
      refine ⟨hgrow hgreeted, ?_⟩
      -- a socket that said HELLO before is given no new seat
      rintro r connId ⟨room', hroom', hpeer'⟩
      rw [next_relay] at hroom'
      cases seat_origin (L := L) h.reached.toSeated henabled hroom' hpeer' with
      | kept hroom hpeer hopen huntold => exact hnone r connId ⟨_, hroom, hpeer⟩
      | claimed hevent hclaimed hroom hpeer htold => exact hnone r connId ⟨_, hroom, hpeer⟩
      | joined hnew huntold => exact hnew hgreeted
    · obtain ⟨r, connId, hseat⟩ := hnow.seat
      exact ⟨hgrow (h.reached.seat_greeted hseat),
        fun r connId => no_seat_of_unseats h.reached henabled hnow⟩

theorem unseatedIn_snoc {es : List Event} {e : Event} {socket : Socket} :
    UnseatedIn L S (es ++ [e]) socket ↔
      UnseatedIn L S es socket ∨ Unseats ((server L).exec S es) e socket := by
  constructor
  · rintro ⟨pre, e', post, heq, hlost⟩
    rcases List.eq_nil_or_concat post with rfl | ⟨post', last, rfl⟩
    · obtain ⟨rfl, hlast⟩ := List.append_inj' heq rfl
      cases hlast
      exact .inr hlost
    · rw [List.concat_eq_append, ← List.cons_append, ← List.append_assoc] at heq
      obtain ⟨rfl, -⟩ := List.append_inj' heq rfl
      exact .inl ⟨pre, e', post', rfl, hlost⟩
  · rintro (⟨pre, e', post, rfl, hlost⟩ | hlost)
    · exact ⟨pre, e', post ++ [e], by simp, hlost⟩
    · exact ⟨es, e, [], rfl, hlost⟩

theorem SeatHistory.congr {unseated unseated' : Socket → Prop} (h : SeatHistory S unseated)
    (heq : ∀ socket, unseated' socket ↔ unseated socket) : SeatHistory S unseated' := by
  rwa [show unseated' = unseated from funext fun socket => propext (heq socket)]

/-- **A peer has its seat unless it was taken away in the run.** -/
theorem seated_or_unseated {es : List Event} (hvalid : (server L).Valid init es) :
    SeatHistory ((server L).exec init es) (UnseatedIn L init es) := by
  induction es using List.reverseRecOn with
  | nil =>
    refine seatHistory_init.congr fun socket => ⟨?_, False.elim⟩
    rintro ⟨pre, e, post, heq, -⟩
    cases pre <;> cases heq
  | append_singleton es e ih =>
    obtain ⟨hvalid, henabled⟩ := ((server L).along_append _ _ _ _).mp hvalid
    rw [Machine.exec_append]
    exact (seatHistory_next (ih hvalid) henabled.1).congr fun socket => unseatedIn_snoc

/-! ### Attribution -/

theorem attributed_of_silent {unseated : Socket → Prop} (h : SeatHistory S unseated) {e : Event}
    (hsilent : ∀ socket data now, e = .message socket data now → unseated socket →
      ¬ SpeaksToHost S.relay socket data) : Attributed L S e := by
  rintro socket data now att room connId isBinary payload rfl hatt hroom hsent
  rw [out_eq] at hsent
  obtain ⟨sender, _, _, att', room', heq, hatt', hrole, hconn, hroom', -, hopen, hframe⟩ :=
    peer_of_toHost hsent
  cases heq
  have hsame : att' = att := Option.some.inj (hatt'.symm.trans hatt)
  subst hsame
  have hatt₀ : S.relay.attached.get socket = some ⟨.peer, att'.roomId, some connId⟩ := by
    rw [hatt, ← hrole, ← hconn]
  rcases h.seated socket _ connId hatt₀ with ⟨room₀, hroom₀, hpeer⟩ | hlost
  · have hsame : room₀ = room := Option.some.inj (hroom₀.symm.trans hroom)
    rw [← hsame]
    exact hpeer
  · exact absurd ⟨att', room', hatt, hrole, hroom', hopen, hframe⟩
      (hsilent socket data now rfl hlost)

theorem silent_of_attributed {unseated : Socket → Prop} (h : SeatHistory S unseated)
    {socket : Socket} {data : Bytes} {now : ℕ}
    (hattributed : Attributed L S (.message socket data now)) (hlost : unseated socket) :
    ¬ SpeaksToHost S.relay socket data := by
  rintro ⟨att, room, hatt, hrole, hroom, hopen, hframe⟩
  obtain ⟨frame, hframe⟩ := Option.isSome_iff_exists.mp hframe
  obtain ⟨connId, hconn⟩ := h.connId socket att hatt hrole
  have hpeer := hattributed socket data now att room connId frame.isBinary frame.payload rfl hatt
    hroom (by
      rw [out_eq]
      show _ ∈ (onMessage now socket data S.relay).2
      rw [onMessage_dataP hatt hrole hroom hopen hframe hconn]
      exact List.mem_singleton_self _)
  exact (h.noSeat socket hlost).2 att.roomId connId ⟨room, hroom, hpeer⟩

/-- **Attribution of host-bound traffic, exactly.**  Along any run of the relay, every frame for a
host carries the connId its sender is registered under, if and only if no socket that lost its seat
to a KICK, a teardown or a late close speaks, before its own close, to a room open under its id. -/
theorem attributed_iff_unseated_silent (L : RelayLimits) (es : List Event)
    (hvalid : (server L).Valid init es) :
    (server L).Along (Attributed L) init es ↔
      ∀ pre socket data now post, es = pre ++ .message socket data now :: post →
        UnseatedIn L init pre socket →
        ¬ SpeaksToHost ((server L).exec init pre).relay socket data := by
  have hhistory : ∀ pre post, es = pre ++ post →
      SeatHistory ((server L).exec init pre) (UnseatedIn L init pre) := by
    rintro pre post rfl
    exact seated_or_unseated (((server L).along_append _ _ _ _).mp hvalid).1
  rw [Machine.along_iff_split]
  constructor
  · intro hattributed pre socket data now post heq hlost
    exact silent_of_attributed (hhistory pre _ heq) (hattributed pre _ post heq) hlost
  · intro hsilent pre e post heq
    refine attributed_of_silent (hhistory pre _ heq) fun socket data now he hlost => ?_
    rw [he] at heq
    exact hsilent pre socket data now post heq hlost

/-- A host kicks its peer, and a frame of the peer is read before the peer's close. -/
def kickedPeerSpeaksRun : List Event :=
  [.hello ⟨1, "10.0.0.1"⟩ (helloAs .host) 0 "a", .hello ⟨2, "10.0.0.2"⟩ (helloAs .peer) 1 "",
    .message ⟨1, "10.0.0.1"⟩ [T.kick, 0, 0, 0, 1] 2, .message ⟨2, "10.0.0.2"⟩ [T.dataP, 1, 42] 3]

theorem kicked_peer_speaks :
    (server defaultLimits).Valid init kickedPeerSpeaksRun ∧
      ¬ (server defaultLimits).Along (Attributed defaultLimits) init kickedPeerSpeaksRun := by
  refine ⟨by decide +kernel, fun halong => ?_⟩
  have hpeer := Machine.along_iff_split.mp halong (kickedPeerSpeaksRun.take 3)
    (.message ⟨2, "10.0.0.2"⟩ [T.dataP, 1, 42] 3) [] rfl _ _ _ _ _ 1 true [42] rfl rfl rfl
    (List.mem_singleton_self _)
  cases hpeer

/-- The kicked peer stays silent, and another one, which has its seat, speaks. -/
def seatedPeerSpeaksRun : List Event :=
  [.hello ⟨1, "10.0.0.1"⟩ (helloAs .host) 0 "a", .hello ⟨2, "10.0.0.2"⟩ (helloAs .peer) 1 "",
    .hello ⟨3, "10.0.0.3"⟩ (helloAs .peer) 2 "", .message ⟨1, "10.0.0.1"⟩ [T.kick, 0, 0, 0, 1] 3,
    .message ⟨3, "10.0.0.3"⟩ [T.dataP, 1, 42] 4]

theorem attributed_iff_unseated_silent_seatedPeer :
    UnseatedIn defaultLimits init (seatedPeerSpeaksRun.take 4) ⟨2, "10.0.0.2"⟩ ∧
      (server defaultLimits).Along (Attributed defaultLimits) init seatedPeerSpeaksRun := by
  have hvalid : (server defaultLimits).Valid init seatedPeerSpeaksRun := by decide +kernel
  have hprefix : (server defaultLimits).Valid init (seatedPeerSpeaksRun.take 4) := by decide +kernel
  have hkick : decodeKick [T.kick, 0, 0, 0, 1] = some 1 := by decide
  refine ⟨⟨seatedPeerSpeaksRun.take 3, _, [], rfl, .kicked rfl rfl hkick ⟨_, rfl, rfl⟩⟩,
    (attributed_iff_unseated_silent defaultLimits _ hvalid).mpr ?_⟩
  rintro pre socket data now post heq hlost ⟨att, room, hatt, hrole, -⟩
  rcases pre with _ | ⟨_, _ | ⟨_, _ | ⟨_, _ | ⟨_, _ | ⟨_, _⟩⟩⟩⟩⟩
  · cases heq
  · cases heq
  · cases heq
  · -- the kick of the host
    cases heq
    cases hatt
    cases hrole
  · -- the frame of the seated peer
    cases heq
    exact ((seated_or_unseated hprefix).noSeat _ hlost).2 "65727231" 2 ⟨_, rfl, rfl⟩
  · simp [seatedPeerSpeaksRun] at heq

end ScreenSharing.Relay
