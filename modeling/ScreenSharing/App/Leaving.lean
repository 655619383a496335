import ScreenSharing.App.Standing
import ScreenSharing.Relay.Wire

/-!
# The links of a session that leaves

`Linked` is a session together with the link of each kind that it has obtained.  It never obtains a second one
(`obtains_once`).  A link is closed by an effect of the session, by the relay, or by its own `Connection`.

`leave` closes what `#client`, `#server` and `#hostLink` refer to, and what is still being dialed is closed
when it arrives.  `#peerLink` is closed through the client only.  `#rehome` drops the client and keeps the
link, and when it finds that the session has left, or when it fails, it drops the link as well:
`leaving_closes_iff`.
-/

namespace ScreenSharing.App

open Lib RoomSession

variable {s s' : RoomSession} {e : SessionEvent}

/-! ### Client, link and coroutines -/

/-- A client is one over `#peerLink`, which is kept without one only while `#rehome` waits. -/
def TransferTied (s : RoomSession) : Option TransferFlow → Prop
  | none => True
  | some (.opening ..) | some .closingLink | some (.listening _) | some .closingServer =>
    s.client = none ∧ s.peerLink = false
  | some (.waiting _) => s.client = none ∧ s.peerLink = true
  | some (.connecting _) | some (.connected ..) => s.client ≠ none ∧ s.peerLink = true

def EntryTied (s : RoomSession) : EntryFlow → Prop
  | .idle | .opening .. | .closingLink | .listening .. | .closingServer =>
    s.client = none ∧ s.peerLink = false
  | .connecting .. => s.client ≠ none ∧ s.peerLink = true
  | .connected .. | .done => True

structure Tied (s : RoomSession) : Prop where
  arriving : Arriving s
  idle : s.transferring = false → s.transfer = none
  transfer : TransferTied s s.transfer
  entry : EntryTied s s.entry

theorem tied_begin : Tied RoomSession.begin := ⟨arriving_begin, fun _ => rfl, trivial, rfl, rfl⟩

theorem TransferTied.congr {flow : Option TransferFlow} (h : TransferTied s flow)
    (hclient : s'.client = s.client) (hlink : s'.peerLink = s.peerLink) : TransferTied s' flow := by
  unfold TransferTied at h ⊢
  rw [hclient, hlink]
  exact h

theorem EntryTied.congr {flow : EntryFlow} (h : EntryTied s flow) (hclient : s'.client = s.client)
    (hlink : s'.peerLink = s.peerLink) : EntryTied s' flow := by
  unfold EntryTied at h ⊢
  rw [hclient, hlink]
  exact h

theorem tied_still (h : Tied s) (hstill : Still s s') : Tied s' where
  arriving := hstill.arriving h.arriving
  idle hidle := hstill.transfer.trans (h.idle (hstill.transferring.symm.trans hidle))
  transfer := by
    rw [hstill.transfer]
    exact h.transfer.congr hstill.client hstill.peerLink
  entry := by
    rw [hstill.entry]
    exact h.entry.congr hstill.client hstill.peerLink

/-- The call that enters the room goes on. -/
theorem entryTied_failed (h : EntryTied s s.entry) (reason : Option String) (message : String) :
    EntryTied (s.entryFailed reason message).1 (s.entryFailed reason message).1.entry := by
  unfold entryFailed
  split
  · next hentry =>
    rw [hentry] at h
    unfold failed
    split
    · split
      · unfold attempt
        split <;> exact h
      · trivial
    · trivial
  · trivial
  · trivial
  · exact h

theorem entryTied_ofEntry (h : EntryTied s s.entry) (he : e.ofEntry = true) (henabled : s.enabled e) :
    EntryTied (s.step e).1 (s.step e).1.entry := by
  have hidle : ∀ {flow : EntryFlow}, flow.isIdle = true → EntryTied s flow →
      s.client = none ∧ s.peerLink = false := by
    intro flow hflow htied
    cases flow <;> first | exact htied | cases hflow
  cases e with
  | enter opts => exact hidle henabled.2 h
  | host opts => exact hidle henabled.2 h
  | join opts => exact hidle henabled.2 h
  | entryOpened hostPeerId =>
    simp only [step, entryOpened]
    split
    · next hentry =>
      rw [hentry] at h
      split <;> exact h
    · next hentry =>
      rw [hentry] at h
      split
      · trivial
      · exact ⟨by simp [startClient], rfl⟩
    · exact h
  | entryListening =>
    simp only [step, entryListening]
    split
    · next hentry =>
      rw [hentry] at h
      split
      · exact h
      · trivial
    · exact h
  | entryJoined welcome =>
    simp only [step, entryJoined]
    split
    · split
      · exact entryTied_failed h _ _
      · trivial
    · exact h
  | entryConnected =>
    simp only [step, entryConnected]
    split
    · split <;> trivial
    · exact h
  | entryFailed reason message => exact entryTied_failed h reason message
  | entryClosed =>
    simp only [step, entryClosed]
    split
    · trivial
    · trivial
    · exact h
  | _ => cases he

/-- The call that enters the room has no part in a change of host. -/
theorem ofEntry_transfer (he : e.ofEntry = true) :
    (s.step e).1.transfer = s.transfer ∧ (s.step e).1.transferring = s.transferring := by
  have hattempt : ∀ n opts asHost, (s.attempt n opts asHost).1.transfer = s.transfer ∧
      (s.attempt n opts asHost).1.transferring = s.transferring := by
    intro n opts asHost
    unfold attempt
    split <;> exact ⟨rfl, rfl⟩
  have hfailed : ∀ reason message, (s.entryFailed reason message).1.transfer = s.transfer ∧
      (s.entryFailed reason message).1.transferring = s.transferring := by
    intro reason message
    unfold entryFailed
    split
    · unfold failed
      split
      · split
        · exact hattempt _ _ _
        · exact ⟨rfl, rfl⟩
      · exact ⟨rfl, rfl⟩
    · exact ⟨rfl, rfl⟩
    · exact ⟨rfl, rfl⟩
    · exact ⟨rfl, rfl⟩
  cases e with
  | enter opts => exact hattempt _ _ _
  | host opts => exact ⟨rfl, rfl⟩
  | join opts => exact ⟨rfl, rfl⟩
  | entryOpened hostPeerId =>
    simp only [step, entryOpened]
    split
    · split <;> exact ⟨rfl, rfl⟩
    · split <;> exact ⟨rfl, rfl⟩
    · exact ⟨rfl, rfl⟩
  | entryListening =>
    simp only [step, entryListening]
    split
    · split <;> exact ⟨rfl, rfl⟩
    · exact ⟨rfl, rfl⟩
  | entryJoined welcome =>
    simp only [step, entryJoined]
    split
    · split
      · exact hfailed _ _
      · exact ⟨rfl, rfl⟩
    · exact ⟨rfl, rfl⟩
  | entryConnected =>
    simp only [step, entryConnected]
    split
    · split <;> exact ⟨rfl, rfl⟩
    · exact ⟨rfl, rfl⟩
  | entryFailed reason message => exact hfailed reason message
  | entryClosed =>
    simp only [step, entryClosed]
    split <;> exact ⟨rfl, rfl⟩
  | _ => cases he

/-- In the turn in which the `connect` of `join` returns, nothing of the call but `join` goes on. -/
theorem entryConnected_of_connected {client : ℕ} {roomParams : RoomParams}
    (hentry : s.entry = .connected client roomParams) (henabled : s.enabled e) (he : e.ofEntry = true) :
    e = .entryConnected := by
  have hturn := henabled.1
  simp only [returned, hentry, Option.all_some] at hturn
  cases e with
  | entryConnected => rfl
  | enter _ | host _ | join _ | entryOpened _ | entryListening | entryJoined _ | entryFailed _ _
  | entryClosed => simp [sameTurn] at hturn
  | _ => cases he

theorem tied_ofEntry (h : Tied s) (he : e.ofEntry = true) (henabled : s.enabled e) : Tied (s.step e).1 := by
  obtain ⟨htransfer, htransferring⟩ := ofEntry_transfer (s := s) he
  refine ⟨arriving_next h.arriving henabled, fun hidle => ?_, ?_, entryTied_ofEntry h.entry he henabled⟩
  · exact htransfer.trans (h.idle (htransferring.symm.trans hidle))
  · cases h.arriving with
    | waiting absent transfer clients =>
      rw [htransfer, transfer]
      trivial
    | returned entry absent transfer =>
      obtain rfl := entryConnected_of_connected entry henabled he
      simp only [step, entryConnected, entry]
      split <;> exact h.transfer
    | done entry =>
      rw [step_ofEntry entry henabled he]
      exact h.transfer

/-- A change of host goes on. -/
theorem transferTied_ofTransfer (h : Tied s) (he : e.ofTransfer = true) :
    ((s.step e).1.transferring = false → (s.step e).1.transfer = none) ∧
      TransferTied (s.step e).1 (s.step e).1.transfer := by
  have hkept : (s.transferring = false → s.transfer = none) ∧ TransferTied s s.transfer :=
    ⟨h.idle, h.transfer⟩
  have htied := h.transfer
  -- while a change of host goes on the flag is set
  have hbusy : ∀ {flow}, s.transfer = some flow → s.transferring = true := by
    intro flow hflow
    by_contra hnot
    rw [h.idle (by simpa using hnot)] at hflow
    cases hflow
  have hfailed : ∀ message, ((s.transferFailed message).1.transferring = false →
      (s.transferFailed message).1.transfer = none) ∧
      TransferTied (s.transferFailed message).1 (s.transferFailed message).1.transfer := by
    intro message
    unfold transferFailed
    split
    · exact ⟨fun _ => rfl, trivial⟩
    · exact ⟨fun _ => rfl, trivial⟩
    · split <;> exact ⟨fun _ => rfl, trivial⟩
    · exact hkept
  cases e with
  | transferOpened =>
    simp only [step, transferOpened]
    split
    · next hflow =>
      rw [hflow] at htied
      have htransferring := hbusy hflow
      split
      · exact ⟨fun hidle => by simp [htransferring] at hidle, htied⟩
      · exact ⟨fun hidle => by simp [startServer, htransferring] at hidle, htied⟩
    · exact hkept
  | transferListening =>
    simp only [step, transferListening]
    split
    · next hflow =>
      rw [hflow] at htied
      have htransferring := hbusy hflow
      split
      · exact ⟨fun hidle => by simp [htransferring] at hidle, htied⟩
      · exact ⟨fun _ => rfl, trivial⟩
    · exact hkept
  | transferClaimed claimed =>
    simp only [step, transferClaimed]
    split
    · next hflow =>
      rw [hflow] at htied
      have htransferring := hbusy hflow
      split
      · exact ⟨fun _ => rfl, trivial⟩
      · split
        · exact ⟨fun hidle => by simp [startClient, htransferring] at hidle,
            by simp [startClient], htied.2⟩
        · exact ⟨fun _ => rfl, trivial⟩
    · exact hkept
  | transferJoined welcome =>
    simp only [step, transferJoined]
    split
    · next hflow =>
      rw [hflow] at htied
      have htransferring := hbusy hflow
      split
      · exact hfailed _
      · exact ⟨fun hidle => by simp [fill, htransferring] at hidle, htied⟩
    · exact hkept
  | transferConnected =>
    simp only [step, transferConnected]
    split
    · split <;> exact ⟨fun _ => rfl, trivial⟩
    · exact hkept
  | transferFailed message => exact hfailed message
  | transferClosed =>
    simp only [step, transferClosed]
    split
    · exact ⟨fun _ => rfl, trivial⟩
    · exact ⟨fun _ => rfl, trivial⟩
    · exact hkept
  | _ => cases he

theorem tied_ofTransfer (h : Tied s) (he : e.ofTransfer = true) (henabled : s.enabled e) :
    Tied (s.step e).1 := by
  obtain ⟨hidle, htransfer⟩ := transferTied_ofTransfer h he
  refine ⟨arriving_next h.arriving henabled, hidle, htransfer, ?_⟩
  cases h.arriving with
  | waiting absent transfer clients =>
    rw [step_ofTransfer transfer he]
    exact h.entry
  | returned entry absent transfer =>
    rw [step_ofTransfer_connected entry transfer henabled he]
    exact h.entry
  | done entry =>
    rw [ofTransfer_entry he, entry]
    trivial

/-- No client speaks before the `connect` of `join` has returned. -/
theorem speaks_behind (h : Arriving s) {client : ℕ} {event : ClientEvent}
    (henabled : s.enabled (.client client event)) :
    (∃ client roomParams, s.entry = .connected client roomParams) ∨ s.entry = .done := by
  cases h with
  | waiting absent transfer clients =>
    obtain ⟨view, hview, hconnected⟩ := Option.map_eq_some_iff.mp henabled.2
    rw [clients view (List.mem_of_getElem? hview)] at hconnected
    cases hconnected
  | returned entry absent transfer => exact .inl ⟨_, _, entry⟩
  | done entry => exact .inr entry

theorem tied_onHostTransfer (h : Tied s) {client epoch : ℕ} {successorPeerId : String}
    (henabled : s.enabled (.client client (.hostTransfer successorPeerId epoch))) :
    Tied (s.onHostTransfer successorPeerId epoch).1 := by
  have hentry : EntryTied (s.onHostTransfer successorPeerId epoch).1
      (s.onHostTransfer successorPeerId epoch).1.entry := by
    rw [onHostTransfer_entry]
    obtain ⟨_, _, hconnected⟩ | hdone := speaks_behind h.arriving henabled
    · rw [hconnected]
      trivial
    · rw [hdone]
      trivial
  refine ⟨arriving_next h.arriving henabled, ?_, ?_, hentry⟩
  · unfold onHostTransfer
    split
    · exact h.idle
    · split
      · intro hidle
        cases hidle
      · unfold rehome
        dsimp only
        split
        · intro hidle
          cases hidle
        · exact fun _ => rfl
  · unfold onHostTransfer
    split
    · exact h.transfer
    · split
      · exact ⟨rfl, rfl⟩
      · unfold rehome
        dsimp only
        split
        · next hlink => exact ⟨rfl, hlink⟩
        · trivial

theorem tied_next (h : Tied s) (henabled : session.enabled s e) : Tied (session.next s e) := by
  show Tied (s.step e).1
  obtain hentry | htransfer | ⟨client, successorPeerId, epoch, rfl⟩ | hstill := step_cases s e
  · exact tied_ofEntry h hentry henabled
  · exact tied_ofTransfer h htransfer henabled
  · exact tied_onHostTransfer h henabled
  · exact tied_still h hstill

/-! ### Leaving -/

/-- What a step does to the calls of `leave`, if it is not part of one. -/
structure Abides (s s' : RoomSession) : Prop where
  leaving : s'.leaving = s.leaving
  leaves : s'.leaves = s.leaves
  hostLink : s.hostLink = true → s'.hostLink = true

theorem Abides.refl : Abides s s := ⟨rfl, rfl, id⟩

theorem abides_attempt (n : ℕ) (opts : EnterOptions) (asHost : Bool) :
    Abides s (s.attempt n opts asHost).1 := by
  unfold attempt
  split <;> exact ⟨rfl, rfl, id⟩

theorem abides_entryFailed (reason : Option String) (message : String) :
    Abides s (s.entryFailed reason message).1 := by
  unfold entryFailed
  split
  · unfold failed
    split
    · split
      · exact abides_attempt _ _ _
      · exact ⟨rfl, rfl, id⟩
    · exact ⟨rfl, rfl, id⟩
  · exact ⟨rfl, rfl, id⟩
  · exact ⟨rfl, rfl, id⟩
  · exact Abides.refl

theorem abides_ofEntry (he : e.ofEntry = true) : Abides s (s.step e).1 := by
  cases e with
  | enter opts => exact abides_attempt _ _ _
  | host opts | join opts => exact ⟨rfl, rfl, id⟩
  | entryOpened hostPeerId =>
    simp only [step, entryOpened]
    split
    · split
      · exact ⟨rfl, rfl, id⟩
      · exact ⟨rfl, rfl, fun _ => rfl⟩
    · split <;> exact ⟨rfl, rfl, id⟩
    · exact Abides.refl
  | entryListening =>
    simp only [step, entryListening]
    split
    · split <;> exact ⟨rfl, rfl, id⟩
    · exact Abides.refl
  | entryJoined welcome =>
    simp only [step, entryJoined]
    split
    · split
      · exact abides_entryFailed _ _
      · exact ⟨rfl, rfl, id⟩
    · exact Abides.refl
  | entryConnected =>
    simp only [step, entryConnected]
    split
    · split <;> exact ⟨rfl, rfl, id⟩
    · exact Abides.refl
  | entryFailed reason message => exact abides_entryFailed reason message
  | entryClosed =>
    simp only [step, entryClosed]
    split <;> exact ⟨rfl, rfl, id⟩
  | _ => cases he

theorem abides_transferFailed (message : String) : Abides s (s.transferFailed message).1 := by
  unfold transferFailed
  split
  · exact ⟨rfl, rfl, id⟩
  · exact ⟨rfl, rfl, id⟩
  · split <;> exact ⟨rfl, rfl, id⟩
  · exact Abides.refl

theorem abides_ofTransfer (he : e.ofTransfer = true) : Abides s (s.step e).1 := by
  cases e with
  | transferOpened =>
    simp only [step, transferOpened]
    split
    · split
      · exact ⟨rfl, rfl, id⟩
      · exact ⟨rfl, rfl, fun _ => rfl⟩
    · exact Abides.refl
  | transferListening =>
    simp only [step, transferListening]
    split
    · split <;> exact ⟨rfl, rfl, id⟩
    · exact Abides.refl
  | transferClaimed claimed =>
    simp only [step, transferClaimed]
    split
    · split
      · exact ⟨rfl, rfl, id⟩
      · split <;> exact ⟨rfl, rfl, id⟩
    · exact Abides.refl
  | transferJoined welcome =>
    simp only [step, transferJoined]
    split
    · split
      · exact abides_transferFailed _
      · exact ⟨rfl, rfl, id⟩
    · exact Abides.refl
  | transferConnected =>
    simp only [step, transferConnected]
    split
    · split <;> exact ⟨rfl, rfl, id⟩
    · exact Abides.refl
  | transferFailed message => exact abides_transferFailed message
  | transferClosed =>
    simp only [step, transferClosed]
    split <;> exact ⟨rfl, rfl, id⟩
  | _ => cases he

theorem abides_onHostTransfer (successorPeerId : String) (epoch : ℕ) :
    Abides s (s.onHostTransfer successorPeerId epoch).1 := by
  unfold onHostTransfer
  split
  · exact Abides.refl
  · split
    · exact ⟨rfl, rfl, id⟩
    · unfold rehome
      dsimp only
      split <;> exact ⟨rfl, rfl, id⟩

theorem abides_onClient (client : ℕ) (event : ClientEvent) : Abides s (s.onClient client event).1 := by
  cases event with
  | roster roster | streams streams => exact ⟨rfl, rfl, id⟩
  | media body => exact Abides.refl
  | hostLost | close reason =>
    simp only [onClient]
    split <;> exact ⟨rfl, rfl, id⟩
  | error => exact Abides.refl
  | hostTransfer successorPeerId epoch => exact abides_onHostTransfer successorPeerId epoch

theorem abides_onServer (server : ℕ) (event : ServerEvent) : Abides s (s.onServer server event).1 := by
  cases event with
  | changed roster => exact ⟨rfl, rfl, id⟩
  | sourceClosed reason => exact ⟨rfl, rfl, id⟩
  | broadcast body streams => exact ⟨rfl, rfl, id⟩
  | sendTo peerId body =>
    simp only [onServer]
    split <;> exact Abides.refl
  | reply body => exact Abides.refl

/-- **Who leaves**: `leave`, and what it awaits. -/
theorem leave_cases (s : RoomSession) (e : SessionEvent) :
    e = .leave ∨ (∃ call thrown, e = .left call thrown) ∨ Abides s (s.step e).1 := by
  cases e with
  | leave => exact .inl rfl
  | left call thrown => exact .inr (.inl ⟨call, thrown, rfl⟩)
  | waking =>
    refine .inr (.inr ?_)
    simp only [step, setWaking]
    split <;> exact ⟨rfl, rfl, id⟩
  | client client event => exact .inr (.inr (abides_onClient client event))
  | server server event => exact .inr (.inr (abides_onServer server event))
  | sendMedia body => exact .inr (.inr Abides.refl)
  | enter _ | host _ | join _ | entryOpened _ | entryListening | entryJoined _ | entryConnected
  | entryFailed _ _ | entryClosed => exact .inr (.inr (abides_ofEntry rfl))
  | _ => exact .inr (.inr (abides_ofTransfer rfl))

/-- A session leaves for good. -/
theorem leaving_step (h : s.leaving = true) : (s.step e).1.leaving = true := by
  obtain rfl | ⟨call, thrown, rfl⟩ | habides := leave_cases s e
  · simp only [step, leave]
    split
    · split <;> rfl
    · rfl
  · simp only [step, RoomSession.left]
    split <;> exact h
  · exact habides.leaving.trans h

theorem leaving_of_step (h : (s.step e).1.leaving = true) (he : e ≠ .leave) : s.leaving = true := by
  obtain rfl | ⟨call, thrown, rfl⟩ | habides := leave_cases s e
  · exact absurd rfl he
  · simp only [step, RoomSession.left] at h
    split at h <;> exact h
  · exact habides.leaving.symm.trans h

theorem leaving_leave : s.leave.1.leaving = true := by
  unfold leave
  dsimp only
  split
  · split <;> rfl
  · rfl

theorem leaves_leave : ∃ flow, s.leave.1.leaves = s.leaves ++ [flow] := by
  unfold leave
  dsimp only
  split
  · split <;> exact ⟨_, rfl⟩
  · exact ⟨_, rfl⟩

/-- `leave` closes what `#client` refers to. -/
theorem closeClient_leave {client : ℕ} (h : s.client = some client) :
    Effect.closeClient client "leaving" ∈ s.leave.2 := by
  unfold leave
  dsimp only
  rw [h]
  split
  · split <;> simp
  · simp

/-- It closes the host link, or hands the room off first. -/
theorem leave_hostLink (h : s.hostLink = true) :
    (∃ server, LeaveFlow.handingOff server ∈ s.leave.1.leaves) ∨ Effect.closeHostLink ∈ s.leave.2 ∨
      ∃ server, Effect.closeServer server ∈ s.leave.2 := by
  unfold leave
  dsimp only
  split
  · next server hserver =>
    split
    · exact .inl ⟨server, by simp⟩
    · exact .inr (.inr ⟨server, by simp⟩)
  · exact .inr (.inl (by simp [h]))

/-! ### Links -/

inductive LinkState
  | absent
  | held
  | closed
  deriving DecidableEq

def LinkState.close : LinkState → LinkState
  | .held => .closed
  | link => link

/-- A session and its links. -/
structure Linked where
  session : RoomSession
  host : LinkState
  peer : LinkState

inductive LinkedEvent
  | session (e : SessionEvent)
  /-- the relay closes a link, or the `Connection` over it does -/
  | closed (role : Relay.Role)

namespace Linked

def begin : Linked := ⟨.begin, .absent, .absent⟩

/-- The link that a step obtains. -/
def obtains (s : RoomSession) : SessionEvent → Option Relay.Role
  | .entryOpened _ =>
    match s.entry with
    | .opening _ _ asHost => some (if asHost then .host else .peer)
    | _ => none
  | .transferOpened =>
    match s.transfer with
    | some (.opening ..) => some .host
    | _ => none
  | _ => none

/-- The link that an effect closes.  A client closes the link below it, and a server its source. -/
def closes : Effect → Option Relay.Role
  | .closeHostLink | .closeServer _ => some .host
  | .closePeerLink .. | .closeClient .. | .closeConn .. => some .peer
  | _ => none

/-- `transferHost` closes the source of its server before it resolves. -/
def handedOff (s : RoomSession) : SessionEvent → Bool
  | .left call false =>
    match s.leaves[call]? with
    | some (.handingOff _) => true
    | _ => false
  | _ => false

/-- The links that a step closes. -/
def closed (s : RoomSession) (e : SessionEvent) : List Relay.Role :=
  (s.step e).2.filterMap closes ++ if handedOff s e then [.host] else []

/-- A link behind a step. -/
def linkAfter (s : RoomSession) (e : SessionEvent) (role : Relay.Role) (link : LinkState) : LinkState :=
  let link := if obtains s e = some role then .held else link
  if role ∈ closed s e then link.close else link

def step (W : Linked) : LinkedEvent → Linked × List Effect
  | .session e =>
    let (s, effects) := W.session.step e
    (⟨s, linkAfter W.session e .host W.host, linkAfter W.session e .peer W.peer⟩, effects)
  | .closed .host => ({ W with host := W.host.close }, [])
  | .closed .peer => ({ W with peer := W.peer.close }, [])

def enabled (W : Linked) : LinkedEvent → Prop
  | .session e => W.session.enabled e
  | .closed _ => True

instance (W : Linked) (e : LinkedEvent) : Decidable (W.enabled e) := by
  cases e <;> unfold enabled <;> infer_instance

/-- Every call of `leave` has resolved, and nothing else of the session goes on. -/
structure Settled (s : RoomSession) : Prop where
  entry : s.entry = .idle ∨ s.entry = .done
  transfer : s.transfer = none
  leaves : s.leaves = []

/-- Every link that the session obtained has been closed. -/
def AllClosed (W : Linked) : Prop := W.host ≠ .held ∧ W.peer ≠ .held

/-- Is `connect` of `join` about to go on? -/
def joins : EntryFlow → Bool
  | .connected .. => true
  | _ => false

/-- A session that holds the link of a peer without a client over it. -/
def Stranded (W : Linked) : Prop :=
  W.peer = .held ∧ W.session.client = none ∧ joins W.session.entry = false

instance (W : Linked) : Decidable W.Stranded := by
  unfold Stranded
  infer_instance

end Linked

/-- A session and its links, with everything around them. -/
def linked : Machine Linked LinkedEvent Effect := ⟨Linked.enabled, Linked.step⟩

instance (W : Linked) (e : LinkedEvent) : Decidable (linked.enabled W e) :=
  inferInstanceAs (Decidable (W.enabled e))

namespace Linked

def isLeave : LinkedEvent → Bool
  | .session .leave => true
  | _ => false

def closesPeer : LinkedEvent → Bool
  | .closed .peer => true
  | _ => false

/-- A session that leaves while it is stranded has its link closed for it. -/
def Freed : Linked → List LinkedEvent → Prop
  | _, [] => True
  | W, e :: es => (isLeave e = true → W.Stranded → es.any closesPeer = true) ∧
      Freed (linked.next W e) es

instance decidableFreed : ∀ W es, Decidable (Freed W es)
  | _, [] => isTrue trivial
  | W, e :: es =>
    have := decidableFreed (linked.next W e) es
    inferInstanceAs (Decidable ((_ → _ → _) ∧ Freed (linked.next W e) es))

variable {W : Linked} {role : Relay.Role} {link : LinkState}

theorem held_linkAfter : linkAfter s e role link = .held ↔
    (obtains s e = some role ∨ link = .held) ∧ role ∉ closed s e := by
  unfold linkAfter
  by_cases hcloses : role ∈ closed s e
  · have hne : ∀ link : LinkState, link.close ≠ .held := by
      intro link
      cases link <;> simp [LinkState.close]
    simp [hcloses, hne]
  · by_cases hobtains : obtains s e = some role <;> simp [hcloses, hobtains]

theorem absent_linkAfter : linkAfter s e role link = .absent ↔
    obtains s e ≠ some role ∧ link = .absent := by
  have habsent : ∀ link : LinkState, link.close = .absent ↔ link = .absent := by
    intro link
    cases link <;> simp [LinkState.close]
  unfold linkAfter
  by_cases hcloses : role ∈ closed s e <;> by_cases hobtains : obtains s e = some role <;>
    simp [hcloses, hobtains, habsent]

/-- What arrives for a session that has left is closed at once. -/
theorem closed_of_obtains (hleaving : s.leaving = true) (h : obtains s e = some role) :
    role ∈ closed s e := by
  refine List.mem_append_left _ ?_
  cases e with
  | entryOpened hostPeerId =>
    simp only [obtains] at h
    split at h
    · next asHost hentry =>
      cases asHost with
      | true =>
        cases h
        simp [RoomSession.step, entryOpened, hentry, hleaving, closes]
      | false =>
        cases h
        simp [RoomSession.step, entryOpened, hentry, hleaving, closes, settle]
    · cases h
  | transferOpened =>
    simp only [obtains] at h
    split at h
    · next hflow =>
      cases h
      simp [RoomSession.step, transferOpened, hflow, hleaving, closes]
    · cases h
  | _ => cases h

/-- A link of a host that is not closed at once is what `#hostLink` refers to. -/
theorem hostLink_of_obtains (hleaving : s.leaving = false) (h : obtains s e = some .host) :
    (s.step e).1.hostLink = true := by
  cases e with
  | entryOpened hostPeerId =>
    simp only [obtains] at h
    split at h
    · next asHost hentry =>
      cases asHost with
      | true => simp [RoomSession.step, entryOpened, hentry, hleaving, startServer]
      | false => cases h
    · cases h
  | transferOpened =>
    simp only [obtains] at h
    split at h
    · next hflow => simp [RoomSession.step, transferOpened, hflow, hleaving, startServer]
    · cases h
  | _ => cases h

theorem mem_closed {effect : Effect} (h : effect ∈ (s.step e).2) (hrole : closes effect = some role) :
    role ∈ closed s e :=
  List.mem_append_left _ (List.mem_filterMap.mpr ⟨effect, h, hrole⟩)

/-! ### The link of a host -/

/-- A host link is what `#hostLink` refers to, until a call of `leave` hands the room off over it. -/
structure HostKept (W : Linked) : Prop where
  staying : W.session.leaving = false → W.session.hostLink = true
  leaving : W.session.leaving = true → ∃ server, LeaveFlow.handingOff server ∈ W.session.leaves

/-- A call of `leave` that is handing the room off does so until it closes the link. -/
theorem handingOff_left {call server : ℕ} {thrown : Bool}
    (h : LeaveFlow.handingOff server ∈ s.leaves)
    (hopen : Relay.Role.host ∉ closed s (.left call thrown)) :
    LeaveFlow.handingOff server ∈ (s.step (.left call thrown)).1.leaves := by
  cases hcall : s.leaves[call]? with
  | none => simpa [RoomSession.step, RoomSession.left, hcall] using h
  | some flow =>
    cases flow with
    | handingOff server' =>
      refine absurd ?_ hopen
      cases thrown with
      | true =>
        have hmem : Effect.closeServer server' ∈ (s.step (.left call true)).2 := by
          simp [RoomSession.step, RoomSession.left, hcall]
        exact mem_closed hmem rfl
      | false => simp [closed, handedOff, hcall]
    | closing =>
      have hkept : LeaveFlow.handingOff server ∈ s.leaves.eraseIdx call := by
        obtain ⟨i, hi⟩ := List.mem_iff_getElem?.mp h
        refine List.mem_eraseIdx_iff_getElem?.mpr ⟨i, ?_, hi⟩
        rintro rfl
        rw [hi] at hcall
        cases hcall
      cases thrown <;> simpa [RoomSession.step, RoomSession.left, hcall] using hkept

theorem hostKept_step (h : W.host = .held → HostKept W)
    (hheld : linkAfter W.session e .host W.host = .held) :
    HostKept (linked.next W (.session e)) := by
  obtain ⟨hold, hopen⟩ := held_linkAfter.mp hheld
  show HostKept ⟨(W.session.step e).1, _, _⟩
  obtain rfl | ⟨call, thrown, rfl⟩ | habides := leave_cases W.session e
  · -- `leave` closes the link, or hands the room off first
    have hkept := h (hold.resolve_left (by simp [obtains]))
    refine ⟨fun hstaying => absurd (hstaying.symm.trans leaving_leave) (by simp), fun _ => ?_⟩
    cases hleaving : W.session.leaving with
    | true =>
      obtain ⟨server, hmem⟩ := hkept.leaving hleaving
      obtain ⟨flow, hflow⟩ := leaves_leave (s := W.session)
      refine ⟨server, ?_⟩
      show LeaveFlow.handingOff server ∈ W.session.leave.1.leaves
      rw [hflow]
      exact List.mem_append_left _ hmem
    | false =>
      obtain hoff | hclose | ⟨server, hclose⟩ := leave_hostLink (hkept.staying hleaving)
      · exact hoff
      · exact absurd (mem_closed hclose rfl) hopen
      · exact absurd (mem_closed hclose rfl) hopen
  · have hkept := h (hold.resolve_left (by simp [obtains]))
    have hsame : (W.session.step (.left call thrown)).1.leaving = W.session.leaving ∧
        (W.session.step (.left call thrown)).1.hostLink = W.session.hostLink := by
      simp only [RoomSession.step, RoomSession.left]
      split <;> exact ⟨rfl, rfl⟩
    refine ⟨fun hstaying => hsame.2.trans (hkept.staying (hsame.1.symm.trans hstaying)),
      fun hleaving => ?_⟩
    obtain ⟨server, hmem⟩ := hkept.leaving (hsame.1.symm.trans hleaving)
    exact ⟨server, handingOff_left hmem hopen⟩
  · refine ⟨fun hstaying => ?_, fun hleaving => ?_⟩
    · have hleaving := habides.leaving.symm.trans hstaying
      obtain hobtains | hhost := hold
      · exact hostLink_of_obtains hleaving hobtains
      · exact habides.hostLink ((h hhost).staying hleaving)
    · have hleaving' := habides.leaving.symm.trans hleaving
      have hhost := hold.resolve_left fun hobtains =>
        hopen (closed_of_obtains hleaving' hobtains)
      show ∃ server, LeaveFlow.handingOff server ∈ (W.session.step e).1.leaves
      rw [habides.leaves]
      exact (h hhost).leaving hleaving'

theorem hostKept_next {e : LinkedEvent} (h : W.host = .held → HostKept W)
    (hheld : (linked.next W e).host = .held) : HostKept (linked.next W e) := by
  cases e with
  | session e => exact hostKept_step h hheld
  | closed role =>
    have hkept : W.host = .held → HostKept (linked.next W (.closed role)) := by
      intro hhost
      cases role <;> exact ⟨(h hhost).staying, (h hhost).leaving⟩
    cases role with
    | peer => exact hkept hheld
    | host =>
      have hclose : W.host.close = .held := hheld
      cases hhost : W.host with
      | held =>
        rw [hhost] at hclose
        cases hclose
      | absent | closed =>
        rw [hhost] at hclose
        cases hclose

/-- **Leaving closes the link of a host**, or hands the room off first and closes it then. -/
theorem host_closed (es : List LinkedEvent)
    (hleaving : (linked.exec begin es).session.leaving = true)
    (hsettled : Settled (linked.exec begin es).session) : (linked.exec begin es).host ≠ .held := by
  intro hheld
  have hkept : (linked.exec begin es).host = .held → HostKept (linked.exec begin es) :=
    Machine.exec_invariant (I := fun W => W.host = .held → HostKept W)
      (fun _ _ h _ => hostKept_next h) (Machine.along_true begin es) (by intro h; cases h)
  obtain ⟨server, hmem⟩ := (hkept hheld).leaving hleaving
  simp [hsettled.leaves] at hmem

/-! ### The link of a peer -/

/-- In the turn in which its `connect` returns, `join` closes the client of a session that has left. -/
theorem closed_entryConnected (hleaving : s.leaving = true) (hjoins : joins s.entry = true) :
    Relay.Role.peer ∈ closed s .entryConnected := by
  cases hentry : s.entry with
  | connected client roomParams =>
    have hmem : Effect.closeClient client "left before joining" ∈ (s.step .entryConnected).2 := by
      simp [RoomSession.step, entryConnected, hentry, hleaving, settle]
    exact mem_closed hmem rfl
  | _ =>
    rw [hentry] at hjoins
    cases hjoins

/-- Until then nothing else of the call goes on. -/
theorem joins_step (hjoins : joins s.entry = true) (henabled : s.enabled e) (he : e ≠ .entryConnected) :
    joins (s.step e).1.entry = true := by
  cases hentry : s.entry with
  | connected client roomParams =>
    have hkept : (s.step e).1.entry = s.entry := by
      obtain hofEntry | htransfer | ⟨client, successorPeerId, epoch, rfl⟩ | hstill := step_cases s e
      · exact absurd (entryConnected_of_connected hentry henabled hofEntry) he
      · exact ofTransfer_entry htransfer
      · exact onHostTransfer_entry successorPeerId epoch
      · exact hstill.entry
    rw [hkept]
    exact hjoins
  | _ =>
    rw [hentry] at hjoins
    cases hjoins

/-- The link of a peer that has left is closed by `join`, or for it. -/
def Freeing (W : Linked) (es : List LinkedEvent) : Prop :=
  W.session.leaving = true → W.peer = .held → joins W.session.entry = true ∨ es.any closesPeer = true

theorem freeing_session {es : List LinkedEvent} (h : Freeing W (.session e :: es))
    (hfreed : e = .leave → W.Stranded → es.any closesPeer = true) (henabled : W.session.enabled e) :
    Freeing (linked.next W (.session e)) es := by
  intro hleaving hheld
  obtain ⟨hold, hopen⟩ := held_linkAfter.mp hheld
  show joins (W.session.step e).1.entry = true ∨ _
  have hjoined : W.session.leaving = true ∨ e = .leave → joins W.session.entry = true →
      joins (W.session.step e).1.entry = true := by
    intro hleft hjoins
    refine joins_step hjoins henabled ?_
    rintro rfl
    obtain hleft | hleave := hleft
    · exact hopen (closed_entryConnected hleft hjoins)
    · cases hleave
  by_cases he : e = .leave
  · have hpeer : W.peer = .held := hold.resolve_left (by simp [he, obtains])
    cases hjoins : joins W.session.entry with
    | true => exact .inl (hjoined (.inr he) hjoins)
    | false =>
      cases hclient : W.session.client with
      | none => exact .inr (hfreed he ⟨hpeer, hclient, hjoins⟩)
      | some client =>
        rw [he] at hopen
        exact absurd (mem_closed (closeClient_leave hclient) rfl) hopen
  · have hleft := leaving_of_step hleaving he
    have hpeer : W.peer = .held :=
      hold.resolve_left fun hobtains => hopen (closed_of_obtains hleft hobtains)
    obtain hjoins | hcloses := h hleft hpeer
    · exact .inl (hjoined (.inl hleft) hjoins)
    · exact .inr (by simpa [closesPeer] using hcloses)

theorem freeing_next {e : LinkedEvent} {es : List LinkedEvent} (h : Freeing W (e :: es))
    (hfreed : Freed W (e :: es)) (henabled : linked.enabled W e) : Freeing (linked.next W e) es := by
  cases e with
  | session e => exact freeing_session h (fun he => hfreed.1 (by rw [he]; rfl)) henabled
  | closed role =>
    cases role with
    | host =>
      intro hleaving hpeer
      obtain hjoins | hcloses := h hleaving hpeer
      · exact .inl hjoins
      · exact .inr (by simpa [closesPeer] using hcloses)
    | peer =>
      intro _ hheld
      have hclose : W.peer.close = .held := hheld
      cases hpeer : W.peer <;> simp [hpeer, LinkState.close] at hclose

theorem freeing_exec {es : List LinkedEvent} : ∀ {W : Linked}, Freeing W es → Freed W es →
    linked.Valid W es → Freeing (linked.exec W es) [] := by
  induction es with
  | nil => exact fun h _ _ => h
  | cons e es ih => exact fun h hfreed hvalid => ih (freeing_next h hfreed hvalid.1) hfreed.2 hvalid.2

theorem peer_closed {es : List LinkedEvent} (hvalid : linked.Valid begin es)
    (hleaving : (linked.exec begin es).session.leaving = true)
    (hsettled : Settled (linked.exec begin es).session) (hfreed : Freed begin es) :
    (linked.exec begin es).peer ≠ .held := by
  intro hheld
  have hfreeing : Freeing begin es := by
    intro h
    cases h
  obtain hjoins | hnone := freeing_exec hfreeing hfreed hvalid hleaving hheld
  · obtain hentry | hentry := hsettled.entry <;> simp [hentry, joins] at hjoins
  · cases hnone

/-! ### One link of each kind -/

def linkOf (W : Linked) : Relay.Role → LinkState
  | .host => W.host
  | .peer => W.peer

/-- A link that the session obtains at the event is the first one of its kind. -/
def ObtainsNew (W : Linked) (e : LinkedEvent) : Prop :=
  ∀ event role, e = .session event → obtains W.session event = some role → W.linkOf role = .absent

/-- The link of a peer has been dialed. -/
def dialed : EntryFlow → Bool
  | .connecting .. | .connected .. | .done => true
  | _ => false

theorem dialed_ofEntry (h : dialed s.entry = true) (henabled : s.enabled e) (he : e.ofEntry = true) :
    dialed (s.step e).1.entry = true := by
  have hfailed : ∀ reason message, dialed (s.entryFailed reason message).1.entry = true := by
    intro reason message
    unfold entryFailed
    split
    · next hentry =>
      rw [hentry] at h
      cases h
    · rfl
    · rfl
    · exact h
  cases e with
  | enter opts | host opts | join opts =>
    have hidle : s.entry.isIdle = true := henabled.2
    cases hentry : s.entry <;> simp [hentry, EntryFlow.isIdle, dialed] at h hidle
  | entryOpened hostPeerId =>
    simp only [RoomSession.step, entryOpened]
    split
    · next hentry =>
      rw [hentry] at h
      cases h
    · split <;> rfl
    · exact h
  | entryListening =>
    simp only [RoomSession.step, entryListening]
    split
    · next hentry =>
      rw [hentry] at h
      cases h
    · exact h
  | entryJoined welcome =>
    simp only [RoomSession.step, entryJoined]
    split
    · split
      · exact hfailed _ _
      · rfl
    · exact h
  | entryConnected =>
    simp only [RoomSession.step, entryConnected]
    split
    · split <;> rfl
    · exact h
  | entryFailed reason message => exact hfailed reason message
  | entryClosed =>
    simp only [RoomSession.step, entryClosed]
    split
    · rfl
    · rfl
    · exact h
  | _ => cases he

theorem dialed_step (h : dialed s.entry = true) (henabled : s.enabled e) :
    dialed (s.step e).1.entry = true := by
  obtain hofEntry | htransfer | ⟨client, successorPeerId, epoch, rfl⟩ | hstill := step_cases s e
  · exact dialed_ofEntry h henabled hofEntry
  · rw [ofTransfer_entry htransfer]
    exact h
  · show dialed (s.onHostTransfer successorPeerId epoch).1.entry = true
    rw [onHostTransfer_entry]
    exact h
  · rw [hstill.entry]
    exact h

/-- A session behind the link of a host never gets to another one. -/
structure Hosts (s : RoomSession) : Prop where
  client : s.client = none
  peerLink : s.peerLink = false
  entry : s.entry.isIdle = false ∧ s.entry.isOpening = false ∧ joins s.entry = false ∧
    ∀ caller client, s.entry ≠ .connecting caller client
  transfer : ∀ flow ∈ s.transfer, flow = .closingLink ∨ flow = .closingServer ∨
    ∃ server, flow = .listening server

theorem hosts_ofEntry (h : Hosts s) (henabled : s.enabled e) (he : e.ofEntry = true) :
    Hosts (s.step e).1 := by
  obtain ⟨hidle, hopening, hjoins, hconnecting⟩ := h.entry
  have hdone : ∀ {s' : RoomSession}, s'.client = s.client → s'.peerLink = s.peerLink →
      s'.transfer = s.transfer → s'.entry = .done → Hosts s' := by
    intro s' hclient hlink htransfer hentry
    refine ⟨hclient.trans h.client, hlink.trans h.peerLink, ?_, ?_⟩
    · simp [hentry, EntryFlow.isIdle, EntryFlow.isOpening, joins]
    · rw [htransfer]
      exact h.transfer
  have hfailed : ∀ reason message, Hosts (s.entryFailed reason message).1 := by
    intro reason message
    unfold entryFailed
    split
    · next hentry => simp [hentry, EntryFlow.isOpening] at hopening
    · exact hdone rfl rfl rfl rfl
    · exact hdone rfl rfl rfl rfl
    · exact h
  cases e with
  | enter opts | host opts | join opts =>
    have hidle' : s.entry.isIdle = true := henabled.2
    simp [hidle] at hidle'
  | entryOpened hostPeerId =>
    simp only [RoomSession.step, entryOpened]
    split
    · next hentry => simp [hentry, EntryFlow.isOpening] at hopening
    · next hentry => simp [hentry, EntryFlow.isOpening] at hopening
    · exact h
  | entryListening =>
    simp only [RoomSession.step, entryListening]
    split
    · split
      · exact ⟨h.client, h.peerLink, by simp [EntryFlow.isIdle, EntryFlow.isOpening, joins], h.transfer⟩
      · exact hdone rfl rfl rfl rfl
    · exact h
  | entryJoined welcome =>
    show Hosts (s.entryJoined welcome).1
    unfold entryJoined
    split
    · next hentry => exact absurd hentry (hconnecting _ _)
    · exact h
  | entryConnected =>
    simp only [RoomSession.step, entryConnected]
    split
    · next hentry => simp [hentry, joins] at hjoins
    · exact h
  | entryFailed reason message => exact hfailed reason message
  | entryClosed =>
    simp only [RoomSession.step, entryClosed]
    split
    · exact hdone rfl rfl rfl rfl
    · exact hdone rfl rfl rfl rfl
    · exact h
  | _ => cases he

theorem hosts_ofTransfer (h : Hosts s) (he : e.ofTransfer = true) : Hosts (s.step e).1 := by
  have hnone : ∀ {s' : RoomSession}, s'.client = s.client → s'.peerLink = s.peerLink →
      s'.entry = s.entry → s'.transfer = none → Hosts s' := by
    intro s' hclient hlink hentry htransfer
    refine ⟨hclient.trans h.client, hlink.trans h.peerLink, ?_, by simp [htransfer]⟩
    rw [hentry]
    exact h.entry
  have hout : ∀ {flow}, s.transfer = some flow → (flow ≠ .closingLink ∧ flow ≠ .closingServer ∧
      ∀ server, flow ≠ .listening server) → False := by
    intro flow hflow hne
    obtain hlink | hserver | ⟨server, hlistening⟩ := h.transfer flow hflow
    · exact hne.1 hlink
    · exact hne.2.1 hserver
    · exact hne.2.2 server hlistening
  have hfailed : ∀ message, Hosts (s.transferFailed message).1 := by
    intro message
    unfold transferFailed
    split
    · exact hnone rfl rfl rfl rfl
    · exact hnone rfl rfl rfl rfl
    · next hflow => exact (hout hflow (by simp)).elim
    · exact h
  cases e with
  | transferOpened =>
    simp only [RoomSession.step, transferOpened]
    split
    · next hflow => exact (hout hflow (by simp)).elim
    · exact h
  | transferListening =>
    simp only [RoomSession.step, transferListening]
    split
    · split
      · exact ⟨h.client, h.peerLink, h.entry, by simp⟩
      · exact hnone rfl rfl rfl rfl
    · exact h
  | transferClaimed claimed =>
    simp only [RoomSession.step, transferClaimed]
    split
    · next hflow => exact (hout hflow (by simp)).elim
    · exact h
  | transferJoined welcome =>
    simp only [RoomSession.step, transferJoined]
    split
    · next hflow => exact (hout hflow (by simp)).elim
    · exact h
  | transferConnected =>
    simp only [RoomSession.step, transferConnected]
    split
    · next hflow => exact (hout hflow (by simp)).elim
    · exact h
  | transferFailed message => exact hfailed message
  | transferClosed =>
    simp only [RoomSession.step, transferClosed]
    split
    · exact hnone rfl rfl rfl rfl
    · exact hnone rfl rfl rfl rfl
    · exact h
  | _ => cases he

theorem hosts_onHostTransfer (h : Hosts s) (successorPeerId : String) (epoch : ℕ) :
    Hosts (s.onHostTransfer successorPeerId epoch).1 := by
  unfold onHostTransfer
  split
  · exact h
  · split
    · next hself => simp [clientView, h.client] at hself
    · simp only [rehome, h.peerLink, roomEnded, Bool.false_eq_true, if_false]
      exact ⟨rfl, rfl, h.entry, by simp⟩

theorem hosts_step (h : Hosts s) (henabled : s.enabled e) : Hosts (s.step e).1 := by
  obtain hofEntry | htransfer | ⟨client, successorPeerId, epoch, rfl⟩ | hstill := step_cases s e
  · exact hosts_ofEntry h henabled hofEntry
  · exact hosts_ofTransfer h htransfer
  · exact hosts_onHostTransfer h successorPeerId epoch
  · refine ⟨hstill.client.trans h.client, hstill.peerLink.trans h.peerLink, ?_, ?_⟩
    · rw [hstill.entry]
      exact h.entry
    · rw [hstill.transfer]
      exact h.transfer

/-- What the links that a session has obtained say about it. -/
structure Kept (W : Linked) : Prop where
  tied : Tied W.session
  peer : W.peer ≠ .absent → dialed W.session.entry = true
  host : W.host ≠ .absent → Hosts W.session

theorem kept_begin : Kept begin := ⟨tied_begin, fun h => absurd rfl h, fun h => absurd rfl h⟩

/-- A host link is dialed by a session that has no other. -/
theorem hosts_of_obtains (h : Tied s) (henabled : s.enabled e) (hobtains : obtains s e = some .host) :
    Hosts (s.step e).1 := by
  cases e with
  | entryOpened hostPeerId =>
    simp only [obtains] at hobtains
    split at hobtains
    · next caller opts asHost hentry =>
      have htied := h.entry
      rw [hentry] at htied
      have htransfer : s.transfer = none := by
        cases h.arriving with
        | waiting absent transfer => exact transfer
        | returned entry => simp [hentry] at entry
        | done entry => simp [hentry] at entry
      cases asHost with
      | false => cases hobtains
      | true =>
        simp only [RoomSession.step, entryOpened, hentry]
        split
        · exact ⟨htied.1, htied.2, by simp [EntryFlow.isIdle, EntryFlow.isOpening, joins],
            by simp [htransfer]⟩
        · exact ⟨htied.1, htied.2, by simp [EntryFlow.isIdle, EntryFlow.isOpening, joins],
            by simp [startServer, htransfer]⟩
    · cases hobtains
  | transferOpened =>
    simp only [obtains] at hobtains
    split at hobtains
    · next epoch hostPeerId hflow =>
      have htied := h.transfer
      rw [hflow] at htied
      have hentry : s.entry = .done := by
        cases h.arriving with
        | waiting absent transfer => simp [hflow] at transfer
        | returned entry =>
          have hturn := henabled.1
          simp [returned, entry, sameTurn] at hturn
        | done entry => exact entry
      simp only [RoomSession.step, transferOpened, hflow]
      split
      · exact ⟨htied.1, htied.2, by simp [hentry, EntryFlow.isIdle, EntryFlow.isOpening, joins],
          by simp⟩
      · exact ⟨htied.1, htied.2,
          by simp [startServer, hentry, EntryFlow.isIdle, EntryFlow.isOpening, joins], by simp⟩
    · cases hobtains
  | _ => cases hobtains

theorem dialed_of_obtains (hobtains : obtains s e = some .peer) :
    dialed (s.step e).1.entry = true := by
  cases e with
  | entryOpened hostPeerId =>
    simp only [obtains] at hobtains
    split at hobtains
    · next caller opts asHost hentry =>
      cases asHost with
      | true => cases hobtains
      | false =>
        simp only [RoomSession.step, entryOpened, hentry]
        split <;> rfl
    · cases hobtains
  | transferOpened =>
    simp only [obtains] at hobtains
    split at hobtains <;> cases hobtains
  | _ => cases hobtains

theorem close_eq_absent (link : LinkState) : link.close = .absent ↔ link = .absent := by
  cases link <;> simp [LinkState.close]

theorem kept_next {e : LinkedEvent} (h : Kept W) (henabled : linked.enabled W e) :
    Kept (linked.next W e) := by
  cases e with
  | session e =>
    have hstep : W.session.enabled e := henabled
    refine ⟨tied_next h.tied hstep, fun hpeer => ?_, fun hhost => ?_⟩
    · show dialed (W.session.step e).1.entry = true
      by_cases hobtains : obtains W.session e = some .peer
      · exact dialed_of_obtains hobtains
      · exact dialed_step (h.peer fun habsent => hpeer (absent_linkAfter.mpr ⟨hobtains, habsent⟩)) hstep
    · show Hosts (W.session.step e).1
      by_cases hobtains : obtains W.session e = some .host
      · exact hosts_of_obtains h.tied hstep hobtains
      · exact hosts_step (h.host fun habsent => hhost (absent_linkAfter.mpr ⟨hobtains, habsent⟩)) hstep
  | closed role =>
    cases role with
    | host => exact ⟨h.tied, h.peer, fun hhost => h.host fun habsent =>
        hhost ((close_eq_absent _).mpr habsent)⟩
    | peer => exact ⟨h.tied, fun hpeer => h.peer fun habsent =>
        hpeer ((close_eq_absent _).mpr habsent), h.host⟩

theorem absent_of_obtains (h : Kept W) {role : Relay.Role} (henabled : W.session.enabled e)
    (hobtains : obtains W.session e = some role) : W.linkOf role = .absent := by
  by_contra hne
  cases e with
  | entryOpened hostPeerId =>
    simp only [obtains] at hobtains
    split at hobtains
    · next hentry =>
      cases role with
      | host =>
        have hopening := (h.host hne).entry.2.1
        simp [hentry, EntryFlow.isOpening] at hopening
      | peer =>
        have hdialed := h.peer hne
        simp [hentry, dialed] at hdialed
    · cases hobtains
  | transferOpened =>
    simp only [obtains] at hobtains
    split at hobtains
    · next hflow =>
      cases hobtains
      obtain hlink | hserver | ⟨server, hlistening⟩ := (h.host hne).transfer _ hflow
      · cases hlink
      · cases hserver
      · cases hlistening
    · cases hobtains
  | _ => cases hobtains

/-- **A session obtains one link of each kind** at most. -/
theorem obtains_once {es : List LinkedEvent} (hvalid : linked.Valid begin es) :
    linked.Along ObtainsNew begin es := by
  refine Machine.along_of_invariant (I := Kept) (fun _ _ h he => kept_next h he) ?_ hvalid kept_begin
  rintro W e h he event role rfl hobtains
  exact absent_of_obtains h he hobtains

/-! ### A session that has left its link behind -/

/-- A session that has left, without a client and with no call that will have one. -/
structure Stuck (s : RoomSession) : Prop where
  leaving : s.leaving = true
  client : s.client = none
  entry : s.entry = .done
  transfer : ∀ client, s.transfer ≠ some (.connecting client)

/-- None of these effects closes the link of a peer. -/
def Spares (effects : List Effect) : Prop := ∀ effect ∈ effects, closes effect ≠ some .peer

theorem spares_emit : Spares s.emit := by simp [Spares, emit, closes]

theorem spares_leave (hclient : s.client = none) : Spares s.leave.2 := by
  unfold leave
  dsimp only
  rw [hclient]
  split
  · split <;> simp [Spares, closes]
  · split <;> simp [Spares, closes]

theorem spares_left (call : ℕ) (thrown : Bool) : Spares (s.left call thrown).2 := by
  unfold RoomSession.left
  split
  · simp [Spares, closes]
  · cases s.media <;> simp [Spares, emit, closes]
  · simp [Spares]

theorem spares_onClient (client : ℕ) (event : ClientEvent) (hleaving : s.leaving = true) :
    Spares (s.onClient client event).2 := by
  cases event with
  | roster roster | streams streams => exact spares_emit
  | media body => simp [Spares, onClient, closes]
  | hostLost | close reason =>
    simp only [onClient]
    split
    · simp [Spares]
    · exact spares_emit
  | error => exact spares_emit
  | hostTransfer successorPeerId epoch => simp [Spares, onClient, onHostTransfer, hleaving]

theorem spares_onServer (server : ℕ) (event : ServerEvent) : Spares (s.onServer server event).2 := by
  cases event with
  | changed roster | sourceClosed reason => exact spares_emit
  | broadcast body streams | reply body => simp [Spares, onServer, emit, closes]
  | sendTo peerId body =>
    simp only [onServer]
    split <;> simp [Spares, closes]

theorem spares_sendMedia (body : Body) : Spares (s.sendMedia body) := by
  unfold sendMedia
  split <;> simp [Spares, closes]

theorem stuck_ofTransfer (h : Stuck s) (he : e.ofTransfer = true) :
    Stuck (s.step e).1 ∧ Spares (s.step e).2 := by
  have hsame : Stuck s ∧ Spares [] := ⟨h, by simp [Spares]⟩
  have hidle : Stuck { s with transfer := none } ∧ Spares [] :=
    ⟨⟨h.leaving, h.client, h.entry, by simp⟩, by simp [Spares]⟩
  cases e with
  | transferOpened =>
    simp only [RoomSession.step, transferOpened]
    split
    · rw [if_pos h.leaving]
      exact ⟨⟨h.leaving, h.client, h.entry, by simp⟩, by simp [Spares, closes]⟩
    · exact hsame
  | transferListening =>
    simp only [RoomSession.step, transferListening]
    split
    · rw [if_pos h.leaving]
      exact ⟨⟨h.leaving, h.client, h.entry, by simp⟩, by simp [Spares, closes]⟩
    · exact hsame
  | transferClaimed claimed =>
    simp only [RoomSession.step, transferClaimed]
    split
    · rw [if_pos h.leaving]
      exact hidle
    · exact hsame
  | transferJoined welcome =>
    show Stuck (s.transferJoined welcome).1 ∧ Spares (s.transferJoined welcome).2
    unfold transferJoined
    split
    · next hflow => exact absurd hflow (h.transfer _)
    · exact hsame
  | transferConnected =>
    simp only [RoomSession.step, transferConnected]
    split
    · rw [if_pos h.leaving]
      exact hidle
    · exact hsame
  | transferFailed message =>
    show Stuck (s.transferFailed message).1 ∧ Spares (s.transferFailed message).2
    unfold transferFailed
    split
    · exact ⟨⟨h.leaving, h.client, h.entry, by simp⟩, spares_emit⟩
    · exact ⟨⟨h.leaving, h.client, h.entry, by simp⟩, spares_emit⟩
    · next hflow => exact absurd hflow (h.transfer _)
    · exact hsame
  | transferClosed =>
    simp only [RoomSession.step, transferClosed]
    split
    · exact hidle
    · exact hidle
    · exact hsame
  | _ => cases he

theorem stuck_step (h : Stuck s) (henabled : s.enabled e) : Stuck (s.step e).1 ∧ Spares (s.step e).2 := by
  have hstill : Still s (s.step e).1 → Stuck (s.step e).1 := fun hstill =>
    ⟨leaving_step h.leaving, hstill.client.trans h.client, hstill.entry.trans h.entry, by
      rw [hstill.transfer]
      exact h.transfer⟩
  by_cases hentry : e.ofEntry = true
  · rw [step_ofEntry h.entry henabled hentry]
    exact ⟨h, by simp [Spares]⟩
  by_cases htransfer : e.ofTransfer = true
  · exact stuck_ofTransfer h htransfer
  cases e with
  | waking =>
    refine ⟨hstill still_setWaking, ?_⟩
    simp only [RoomSession.step, setWaking]
    split
    · exact spares_emit
    · simp [Spares]
  | client client event =>
    refine ⟨?_, spares_onClient client event h.leaving⟩
    by_cases htransfers : ∃ successorPeerId epoch, event = .hostTransfer successorPeerId epoch
    · obtain ⟨successorPeerId, epoch, rfl⟩ := htransfers
      simp only [RoomSession.step, onClient, onHostTransfer, h.leaving, Bool.true_or, if_true]
      exact h
    · exact hstill (still_onClient client fun successorPeerId epoch heq =>
        htransfers ⟨successorPeerId, epoch, heq⟩)
  | server server event => exact ⟨hstill (still_onServer server event), spares_onServer server event⟩
  | sendMedia body => exact ⟨h, spares_sendMedia body⟩
  | leave => exact ⟨hstill still_leave, spares_leave h.client⟩
  | left call thrown => exact ⟨hstill (still_left call thrown), spares_left call thrown⟩
  | enter _ | host _ | join _ | entryOpened _ | entryListening | entryJoined _ | entryConnected
  | entryFailed _ _ | entryClosed => exact absurd rfl hentry
  | _ => exact absurd rfl htransfer

theorem notMem_closed (h : Spares (s.step e).2) : Relay.Role.peer ∉ closed s e := by
  unfold closed
  rw [List.mem_append, not_or]
  refine ⟨fun hmem => ?_, by split <;> simp⟩
  obtain ⟨effect, heffect, hcloses⟩ := List.mem_filterMap.mp hmem
  exact h effect heffect hcloses

/-- **Nothing of the session closes the link** that it has left behind. -/
theorem stuck_exec {es : List LinkedEvent} : ∀ {W : Linked}, Stuck W.session → W.peer = .held →
    linked.Valid W es → es.any closesPeer = false → (linked.exec W es).peer = .held := by
  induction es with
  | nil => exact fun _ hpeer _ _ => hpeer
  | cons e es ih =>
    intro W h hpeer hvalid hnone
    rw [List.any_cons, Bool.or_eq_false_iff] at hnone
    rw [Machine.exec_cons]
    cases e with
    | session e =>
      obtain ⟨hstuck, hspares⟩ := stuck_step h hvalid.1
      exact ih hstuck (held_linkAfter.mpr ⟨.inr hpeer, notMem_closed hspares⟩) hvalid.2 hnone.2
    | closed role =>
      cases role with
      | host => exact ih h hpeer hvalid.2 hnone.2
      | peer => simp [closesPeer] at hnone

theorem stuck_of_stranded (h : Kept W) (hstranded : W.Stranded) : Stuck W.session.leave.1 := by
  obtain ⟨hpeer, hclient, hjoins⟩ := hstranded
  have hentry : W.session.entry = .done := by
    have hdialed := h.peer (by simp [hpeer])
    have htied := h.tied.entry
    cases hentry : W.session.entry with
    | connecting caller client =>
      rw [hentry] at htied
      exact absurd hclient htied.1
    | connected client roomParams =>
      rw [hentry] at hjoins
      cases hjoins
    | done => rfl
    | idle | opening _ _ _ | closingLink | listening _ _ | closingServer =>
      rw [hentry] at hdialed
      cases hdialed
  refine ⟨leaving_leave, still_leave.client.trans hclient, still_leave.entry.trans hentry, ?_⟩
  intro client hflow
  have htied := h.tied.transfer
  rw [still_leave.transfer] at hflow
  rw [hflow] at htied
  exact htied.1 hclient

theorem freed_of_closed {es : List LinkedEvent} : ∀ {W : Linked}, Kept W → linked.Valid W es →
    (linked.exec W es).peer ≠ .held → Freed W es := by
  induction es with
  | nil => exact fun _ _ _ => trivial
  | cons e es ih =>
    intro W h hvalid hclosed
    rw [Machine.exec_cons] at hclosed
    refine ⟨fun hleave hstranded => ?_, ih (kept_next h hvalid.1) hvalid.2 hclosed⟩
    by_contra hany
    refine hclosed ?_
    cases e with
    | session e =>
      cases e with
      | leave =>
        refine stuck_exec (stuck_of_stranded h hstranded) ?_ hvalid.2 (by simpa using hany)
        refine held_linkAfter.mpr ⟨.inr hstranded.1, notMem_closed ?_⟩
        exact spares_leave hstranded.2.1
      | _ => cases hleave
    | closed role => cases hleave

/-! ### Leaving closes every link -/

/-- **Leaving closes every link**, if and only if a session that leaves while it holds the link of a peer
without a client over it has that link closed for it.  There is one link of each kind at most. -/
theorem leaving_closes_iff (es : List LinkedEvent) (hvalid : linked.Valid begin es)
    (hleaving : (linked.exec begin es).session.leaving = true)
    (hsettled : Settled (linked.exec begin es).session) :
    linked.Along ObtainsNew begin es ∧
      (AllClosed (linked.exec begin es) ↔ Freed begin es) := by
  refine ⟨obtains_once hvalid, ?_⟩
  constructor
  · intro h
    exact freed_of_closed kept_begin hvalid h.2
  · intro hfreed
    exact ⟨host_closed es hleaving hsettled, peer_closed hvalid hleaving hsettled hfreed⟩

/-- The host hands the room on to somebody else, and the session leaves while it waits for the claim. -/
def waitingRun : List LinkedEvent :=
  [.session (.join ⟨"Bia", none, none, none⟩), .session (.entryOpened ""),
    .session (.entryJoined ⟨"p1", 1, defaultRoomParams, [], []⟩), .session .entryConnected,
    .session (.client 0 (.hostTransfer "p2" 2)), .session .leave, .session (.left 0 false)]

theorem leave_keeps_link : ¬ ∀ es, linked.Valid begin es →
    (linked.exec begin es).session.leaving = true → Settled (linked.exec begin es).session →
      AllClosed (linked.exec begin es) := by
  intro h
  have hclosed := h (waitingRun ++ [.session (.transferClaimed true)]) (by decide) (by decide)
    ⟨.inr rfl, rfl, rfl⟩
  exact hclosed.2 (by decide)

/-- Nobody claims the room, and the relay closes its links. -/
theorem leaving_closes_iff_unclaimed :
    AllClosed (linked.exec begin (waitingRun ++ [.closed .peer, .session (.transferClaimed false)])) :=
  (leaving_closes_iff _ (by decide) (by decide) ⟨.inr rfl, rfl, rfl⟩).2.mpr (by decide)

end Linked

end ScreenSharing.App
