import ScreenSharing.App.RoomSession

/-!
# Where a session stands

Most of what a session hears changes what it shows and nothing of where it stands (`Still`): the same
coroutines wait for the same things, the same objects are its client and its server, and no object
changes its epoch.  What else there is belongs to the call that enters the room or to a change of host.

`Arriving` is what holds until the call has settled; entering is one call, so a session that is in the
room is behind it, for good.
-/

namespace ScreenSharing.App

open Lib RoomSession

variable {s s' : RoomSession} {e : SessionEvent}

/-! ### Still -/

/-- What of a client decides how the session goes on. -/
def ClientView.standing (view : ClientView) : ℕ × Bool × ℕ :=
  (view.minEpoch, view.connected, view.epoch)

/-- The session shows something new, or leaves, and stands where it stood. -/
structure Still (s s' : RoomSession) : Prop where
  entry : s'.entry = s.entry
  transfer : s'.transfer = s.transfer
  transferring : s'.transferring = s.transferring
  client : s'.client = s.client
  server : s'.server = s.server
  peerLink : s'.peerLink = s.peerLink
  clients : s'.clients.map ClientView.standing = s.clients.map ClientView.standing
  servers : s'.servers.map HostView.epoch = s.servers.map HostView.epoch
  phase : s'.phase = s.phase ∨ s'.phase = .left ∨ s.phase = .connecting ∧ s'.phase = .waking
  leaving : s'.leaving = s.leaving ∨ s'.leaving = true ∧ s'.phase = .left

theorem Still.refl : Still s s := ⟨rfl, rfl, rfl, rfl, rfl, rfl, rfl, rfl, .inl rfl, .inl rfl⟩

theorem still_leaves (notice : Option String) : Still s { s with phase := .left, notice := notice } :=
  ⟨rfl, rfl, rfl, rfl, rfl, rfl, rfl, rfl, .inr (.inl rfl), .inl rfl⟩

theorem still_setWaking : Still s s.setWaking.1 := by
  unfold setWaking
  split
  · next hphase => exact ⟨rfl, rfl, rfl, rfl, rfl, rfl, rfl, rfl, .inr (.inr ⟨hphase, rfl⟩), .inl rfl⟩
  · exact Still.refl

theorem still_leave : Still s s.leave.1 := by
  unfold leave
  dsimp only
  split
  · split <;> exact ⟨rfl, rfl, rfl, rfl, rfl, rfl, rfl, rfl, .inr (.inl rfl), .inr ⟨rfl, rfl⟩⟩
  · exact ⟨rfl, rfl, rfl, rfl, rfl, rfl, rfl, rfl, .inr (.inl rfl), .inr ⟨rfl, rfl⟩⟩

theorem still_left (call : ℕ) (thrown : Bool) : Still s (s.left call thrown).1 := by
  unfold RoomSession.left
  split <;> exact ⟨rfl, rfl, rfl, rfl, rfl, rfl, rfl, rfl, .inl rfl, .inl rfl⟩

/-- A change of one element that keeps what is asked of it. -/
theorem map_modify {α β : Type} {l : List α} {f : α → α} {g : α → β} (i : ℕ)
    (hf : ∀ x, g (f x) = g x) : (l.modify i f).map g = l.map g := by
  apply List.ext_getElem?
  intro j
  simp only [List.getElem?_map, List.getElem?_modify]
  cases l[j]? with
  | none => rfl
  | some x =>
    by_cases h : i = j
    · simp [h, hf]
    · simp [h]

theorem still_clients {f : ClientView → ClientView} (client : ℕ)
    (hf : ∀ view, (f view).standing = view.standing) :
    Still s { s with clients := s.clients.modify client f } :=
  ⟨rfl, rfl, rfl, rfl, rfl, rfl, map_modify client hf, rfl, .inl rfl, .inl rfl⟩

theorem still_servers {f : HostView → HostView} (server : ℕ)
    (hf : ∀ view, (f view).epoch = view.epoch) :
    Still s { s with servers := s.servers.modify server f } :=
  ⟨rfl, rfl, rfl, rfl, rfl, rfl, rfl, map_modify server hf, .inl rfl, .inl rfl⟩

theorem still_onServer (server : ℕ) (event : ServerEvent) : Still s (s.onServer server event).1 := by
  cases event with
  | changed roster => exact still_servers server fun _ => rfl
  | sourceClosed reason => exact still_leaves _
  | broadcast body streams => exact still_servers server fun _ => rfl
  | sendTo peerId body =>
    simp only [onServer]
    split <;> exact Still.refl
  | reply body => exact Still.refl

/-- A client says nothing that enters the room, unless the host hands the room on. -/
theorem still_onClient (client : ℕ) {event : ClientEvent}
    (h : ∀ successorPeerId epoch, event ≠ .hostTransfer successorPeerId epoch) :
    Still s (s.onClient client event).1 := by
  cases event with
  | roster roster => exact still_clients client fun _ => rfl
  | streams streams => exact still_clients client fun _ => rfl
  | media body => exact Still.refl
  | hostLost =>
    simp only [onClient]
    split
    · exact Still.refl
    · exact still_leaves _
  | close reason =>
    simp only [onClient]
    split
    · exact Still.refl
    · exact still_leaves _
  | error => exact Still.refl
  | hostTransfer successorPeerId epoch => exact absurd rfl (h successorPeerId epoch)

/-! ### What an event belongs to -/

/-- The event belongs to the call that enters the room. -/
def SessionEvent.ofEntry : SessionEvent → Bool
  | .enter _ | .host _ | .join _ | .entryOpened _ | .entryListening | .entryJoined _
  | .entryConnected | .entryFailed .. | .entryClosed => true
  | _ => false

/-- The event belongs to a change of host. -/
def SessionEvent.ofTransfer : SessionEvent → Bool
  | .transferOpened | .transferListening | .transferClaimed _ | .transferJoined _
  | .transferConnected | .transferFailed _ | .transferClosed => true
  | _ => false

/-- **What a step is**: part of entering, part of a change of host, the beginning of one, or still. -/
theorem step_cases (s : RoomSession) (e : SessionEvent) : e.ofEntry = true ∨ e.ofTransfer = true ∨
    (∃ client successorPeerId epoch, e = .client client (.hostTransfer successorPeerId epoch)) ∨
      Still s (s.step e).1 := by
  cases e with
  | waking => exact .inr (.inr (.inr still_setWaking))
  | client client event =>
    cases event with
    | hostTransfer successorPeerId epoch => exact .inr (.inr (.inl ⟨_, _, _, rfl⟩))
    | _ => exact .inr (.inr (.inr (still_onClient client (by simp))))
  | server server event => exact .inr (.inr (.inr (still_onServer server event)))
  | sendMedia body => exact .inr (.inr (.inr Still.refl))
  | leave => exact .inr (.inr (.inr still_leave))
  | left call thrown => exact .inr (.inr (.inr (still_left call thrown)))
  | enter _ | host _ | join _ | entryOpened _ | entryListening | entryJoined _ | entryConnected
  | entryFailed _ _ | entryClosed => exact .inl rfl
  | _ => exact .inr (.inl rfl)

/-- A change of host that has not come past its first await. -/
def TransferFlow.begun : TransferFlow → Bool
  | .opening .. | .waiting _ => true
  | _ => false

theorem onHostTransfer_entry (successorPeerId : String) (epoch : ℕ) :
    (s.onHostTransfer successorPeerId epoch).1.entry = s.entry := by
  unfold onHostTransfer
  split
  · rfl
  · split
    · rfl
    · unfold rehome
      dsimp only
      split <;> rfl

theorem onHostTransfer_phase (successorPeerId : String) (epoch : ℕ) :
    (s.onHostTransfer successorPeerId epoch).1.phase = s.phase ∨
      (s.onHostTransfer successorPeerId epoch).1.phase = .left := by
  unfold onHostTransfer
  split
  · exact .inl rfl
  · split
    · exact .inl rfl
    · unfold rehome
      dsimp only
      split
      · exact .inl rfl
      · exact .inr rfl

/-- A host that hands the room on sets a change of host going, no more. -/
theorem onHostTransfer_begun (h : ∀ flow ∈ s.transfer, flow.begun = true) (successorPeerId : String)
    (epoch : ℕ) : ∀ flow ∈ (s.onHostTransfer successorPeerId epoch).1.transfer, flow.begun = true := by
  unfold onHostTransfer
  split
  · exact h
  · split
    · simp [promote, TransferFlow.begun]
    · unfold rehome
      dsimp only
      split
      · simp [TransferFlow.begun]
      · simp [roomEnded]

/-! ### Before the session has entered -/

/-- Until the call that enters the room has settled the session is not in it, and no client of it
speaks before `connect` has returned. -/
inductive Arriving (s : RoomSession) : Prop
  | waiting (absent : s.phase.present = false) (transfer : s.transfer = none)
      (clients : ∀ view ∈ s.clients, view.connected = false)
  | returned {client : ℕ} {roomParams : RoomParams}
      (entry : s.entry = .connected client roomParams) (absent : s.phase.present = false)
      (transfer : ∀ flow ∈ s.transfer, flow.begun = true)
  | done (entry : s.entry = .done)

theorem arriving_begin : Arriving .begin := .waiting rfl rfl (by simp [RoomSession.begin])

theorem Still.absent (h : Still s s') (hs : s.phase.present = false) : s'.phase.present = false := by
  obtain hsame | hleft | ⟨-, hwaking⟩ := h.phase
  · rw [hsame]
    exact hs
  · rw [hleft]
    rfl
  · rw [hwaking]
    rfl

theorem Still.left (h : Still s s') (hs : s.phase = .left) : s'.phase = .left := by
  obtain hsame | hleft | ⟨hconnecting, -⟩ := h.phase
  · exact hsame.trans hs
  · exact hleft
  · rw [hs] at hconnecting
    cases hconnecting

/-- The clients that have been admitted are the same. -/
theorem Still.unconnected (h : Still s s') (hs : ∀ view ∈ s.clients, view.connected = false) :
    ∀ view ∈ s'.clients, view.connected = false := by
  intro view hview
  have hmem := List.mem_map_of_mem (f := ClientView.standing) hview
  rw [h.clients] at hmem
  obtain ⟨old, hold, heq⟩ := List.mem_map.mp hmem
  have hconnected : old.connected = view.connected := congrArg (fun x => x.2.1) heq
  rw [← hconnected]
  exact hs old hold

theorem Still.arriving (h : Still s s') (hs : Arriving s) : Arriving s' := by
  cases hs with
  | waiting absent transfer clients =>
    exact .waiting (h.absent absent) (h.transfer.trans transfer) (h.unconnected clients)
  | returned entry absent transfer =>
    refine .returned (h.entry.trans entry) (h.absent absent) ?_
    rw [h.transfer]
    exact transfer
  | done entry => exact .done (h.entry.trans entry)

/-- Where there is no change of host, none goes on. -/
theorem step_ofTransfer (h : s.transfer = none) (he : e.ofTransfer = true) : s.step e = (s, []) := by
  cases e with
  | transferOpened => simp [step, transferOpened, h]
  | transferListening => simp [step, transferListening, h]
  | transferClaimed claimed => simp [step, transferClaimed, h]
  | transferJoined welcome => simp [step, transferJoined, h]
  | transferConnected => simp [step, transferConnected, h]
  | transferFailed message => simp [step, transferFailed, h]
  | transferClosed => simp [step, transferClosed, h]
  | _ => cases he

/-- In the turn in which the `connect` of `join` returns, no change of host goes on. -/
theorem step_ofTransfer_connected {client : ℕ} {roomParams : RoomParams}
    (hentry : s.entry = .connected client roomParams) (h : ∀ flow ∈ s.transfer, flow.begun = true)
    (henabled : s.enabled e) (he : e.ofTransfer = true) : s.step e = (s, []) := by
  have hturn := henabled.1
  simp only [returned, hentry, Option.all_some] at hturn
  cases e with
  | transferConnected =>
    simp only [step, transferConnected]
    split
    · next flow hflow => cases h _ hflow
    · rfl
  | transferOpened | transferListening | transferClaimed _ | transferJoined _ | transferFailed _
  | transferClosed => simp [sameTurn] at hturn
  | _ => cases he

/-! ### The call that enters the room -/

theorem arriving_attempt (n : ℕ) (opts : EnterOptions) (asHost : Bool) (htransfer : s.transfer = none)
    (hclients : ∀ view ∈ s.clients, view.connected = false) :
    Arriving (s.attempt n opts asHost).1 := by
  unfold attempt
  split <;> exact .waiting rfl htransfer hclients

theorem arriving_entryFailed (h : Arriving s) (htransfer : s.transfer = none)
    (hclients : ∀ view ∈ s.clients, view.connected = false) (reason : Option String)
    (message : String) : Arriving (s.entryFailed reason message).1 := by
  unfold entryFailed
  split
  · unfold failed
    split
    · split
      · exact arriving_attempt _ _ _ htransfer hclients
      · exact .done rfl
    · exact .done rfl
  · exact .done rfl
  · exact .done rfl
  · exact h

/-- Behind the call that enters the room nothing of it goes on. -/
theorem step_ofEntry (h : s.entry = .done) (henabled : s.enabled e) (he : e.ofEntry = true) :
    s.step e = (s, []) := by
  cases e with
  | enter opts | host opts | join opts => simp [enabled, h, EntryFlow.isIdle] at henabled
  | entryOpened hostPeerId => simp [step, entryOpened, h]
  | entryListening => simp [step, entryListening, h]
  | entryJoined welcome => simp [step, entryJoined, h]
  | entryConnected => simp [step, entryConnected, h]
  | entryFailed reason message => simp [step, entryFailed, h]
  | entryClosed => simp [step, entryClosed, h]
  | _ => cases he

theorem arriving_ofEntry (h : Arriving s) (hs : s.phase.present = false)
    (htransfer : s.transfer = none) (hclients : ∀ view ∈ s.clients, view.connected = false)
    (he : e.ofEntry = true) : Arriving (s.step e).1 := by
  cases e with
  | enter opts => exact .waiting rfl htransfer hclients
  | host opts => exact .waiting rfl htransfer hclients
  | join opts => exact .waiting rfl htransfer hclients
  | entryOpened hostPeerId =>
    simp only [step, entryOpened]
    split
    · split
      · exact .waiting hs htransfer hclients
      · exact .waiting hs htransfer hclients
    · split
      · exact .done rfl
      · refine .waiting hs htransfer fun view hview => ?_
        simp only [startClient, List.mem_append, List.mem_singleton] at hview
        obtain hold | rfl := hview
        · exact hclients view hold
        · rfl
    · exact h
  | entryListening =>
    simp only [step, entryListening]
    split
    · split
      · exact .waiting hs htransfer hclients
      · exact .done rfl
    · exact h
  | entryJoined welcome =>
    simp only [step, entryJoined]
    split
    · split
      · exact arriving_entryFailed h htransfer hclients _ _
      · refine .returned rfl hs ?_
        show ∀ flow ∈ s.transfer, flow.begun = true
        simp [htransfer]
    · exact h
  | entryConnected =>
    simp only [step, entryConnected]
    split
    · split
      · exact .done rfl
      · exact .done rfl
    · exact h
  | entryFailed reason message => exact arriving_entryFailed h htransfer hclients reason message
  | entryClosed =>
    simp only [step, entryClosed]
    split
    · exact .done rfl
    · exact .done rfl
    · exact h
  | _ => cases he

/-- In the turn in which the `connect` of `join` returns, `join` goes on, and nothing else of the call
that enters the room. -/
theorem arriving_ofEntry_connected {client : ℕ} {roomParams : RoomParams}
    (hentry : s.entry = .connected client roomParams) (henabled : s.enabled e)
    (he : e.ofEntry = true) : Arriving (s.step e).1 := by
  have hturn := henabled.1
  simp only [returned, hentry, Option.all_some] at hturn
  cases e with
  | entryConnected =>
    simp only [step, entryConnected, hentry]
    split <;> exact .done rfl
  | enter _ | host _ | join _ | entryOpened _ | entryListening | entryJoined _ | entryFailed _ _
  | entryClosed => simp [sameTurn] at hturn
  | _ => cases he

theorem arriving_onHostTransfer (h : Arriving s) {client epoch : ℕ} {successorPeerId : String}
    (henabled : s.enabled (.client client (.hostTransfer successorPeerId epoch))) :
    Arriving (s.onHostTransfer successorPeerId epoch).1 := by
  cases h with
  | waiting absent transfer clients =>
    -- no client speaks yet
    obtain ⟨view, hview, hconnected⟩ := Option.map_eq_some_iff.mp henabled.2
    rw [clients view (List.mem_of_getElem? hview)] at hconnected
    cases hconnected
  | returned entry absent transfer =>
    refine .returned ((onHostTransfer_entry successorPeerId epoch).trans entry) ?_
      (onHostTransfer_begun transfer successorPeerId epoch)
    obtain hsame | hleft := onHostTransfer_phase (s := s) successorPeerId epoch
    · rw [hsame]
      exact absent
    · rw [hleft]
      rfl
  | done entry => exact .done ((onHostTransfer_entry successorPeerId epoch).trans entry)

theorem ofTransfer_entry (he : e.ofTransfer = true) : (s.step e).1.entry = s.entry := by
  cases e with
  | transferOpened =>
    simp only [step, transferOpened]
    split
    · split <;> rfl
    · rfl
  | transferListening =>
    simp only [step, transferListening]
    split
    · split <;> rfl
    · rfl
  | transferClaimed claimed =>
    simp only [step, transferClaimed]
    split
    · split
      · rfl
      · split <;> rfl
    · rfl
  | transferJoined welcome =>
    simp only [step, transferJoined]
    split
    · split
      · simp only [transferFailed]
        split
        · rfl
        · rfl
        · split <;> rfl
        · rfl
      · rfl
    · rfl
  | transferConnected =>
    simp only [step, transferConnected]
    split
    · split <;> rfl
    · rfl
  | transferFailed message =>
    simp only [step, transferFailed]
    split
    · rfl
    · rfl
    · split <;> rfl
    · rfl
  | transferClosed =>
    simp only [step, transferClosed]
    split <;> rfl
  | _ => cases he

/-- **Entering is one call**: a session is in the room only behind it. -/
theorem arriving_next (h : Arriving s) (he : session.enabled s e) : Arriving (session.next s e) := by
  show Arriving (s.step e).1
  obtain hentry | htransfer | ⟨client, successorPeerId, epoch, rfl⟩ | hstill := step_cases s e
  · cases h with
    | waiting absent transfer clients =>
      exact arriving_ofEntry (.waiting absent transfer clients) absent transfer clients hentry
    | returned entry absent transfer => exact arriving_ofEntry_connected entry he hentry
    | done entry =>
      rw [step_ofEntry entry he hentry]
      exact .done entry
  · cases h with
    | waiting absent transfer clients =>
      rw [step_ofTransfer transfer htransfer]
      exact .waiting absent transfer clients
    | returned entry absent transfer =>
      rw [step_ofTransfer_connected entry transfer he htransfer]
      exact .returned entry absent transfer
    | done entry => exact .done ((ofTransfer_entry htransfer).trans entry)
  · exact arriving_onHostTransfer h he
  · exact hstill.arriving h

theorem arriving_exec {es : List SessionEvent} (h : session.Valid .begin es) :
    Arriving (session.exec .begin es) :=
  Machine.exec_invariant (I := Arriving) (fun _ _ h he => arriving_next h he) h arriving_begin

theorem entered_of_present (h : Arriving s) (hs : s.phase.present = true) : s.entry = .done := by
  cases h with
  | waiting absent => simp [hs] at absent
  | returned _ absent => simp [hs] at absent
  | done entry => exact entry

/-- Behind it, for good. -/
theorem done_next (h : s.entry = .done) (he : session.enabled s e) :
    (session.next s e).entry = .done := by
  show (s.step e).1.entry = .done
  obtain hentry | htransfer | ⟨client, successorPeerId, epoch, rfl⟩ | hstill := step_cases s e
  · rw [step_ofEntry h he hentry]
    exact h
  · exact (ofTransfer_entry htransfer).trans h
  · exact (onHostTransfer_entry successorPeerId epoch).trans h
  · exact hstill.entry.trans h

end ScreenSharing.App
