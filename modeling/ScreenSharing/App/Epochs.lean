import ScreenSharing.App.Standing

/-!
# The epochs that a session shows

A snapshot reads its epoch from the server if there is one, else from the client.  During a change of
host there is neither, or a client that has not been admitted, and the snapshots of that time show
epoch 0 in the phase in which the change found the session.

`epochs_nondecreasing_iff` says when the epochs shown in the room never go back: exactly when every
change of host that begins in the phase `in-room` begins in epoch 0.  `due` is the epoch in which the
session is going to be when what it waits for has come; the invariant `Told` compares what has been
shown with it.
-/

namespace ScreenSharing.App

open Lib RoomSession

variable {s s' : RoomSession} {e : SessionEvent} {past : List ℕ}

/-! ### Epochs -/

namespace RoomSession

def clientEpoch (s : RoomSession) (client : ℕ) : ℕ :=
  (s.clients[client]?.map ClientView.epoch).getD 0

def minEpoch (s : RoomSession) (client : ℕ) : ℕ :=
  (s.clients[client]?.map ClientView.minEpoch).getD 0

def hostEpoch (s : RoomSession) (server : ℕ) : ℕ :=
  (s.servers[server]?.map HostView.epoch).getD 0

/-- The epoch that a snapshot shows now. -/
def epochNow (s : RoomSession) : ℕ :=
  match s.server, s.client with
  | some server, _ => s.hostEpoch server
  | none, some client => s.clientEpoch client
  | none, none => 0

/-- The epoch of the session behind what it waits for. -/
def due (s : RoomSession) : ℕ :=
  match s.transfer with
  | some (.opening epoch _) | some (.waiting epoch) => epoch
  | some (.listening server) => s.hostEpoch server
  | some (.connecting client) => s.minEpoch client
  | some (.connected client _) => s.clientEpoch client
  | _ => s.epochNow

end RoomSession

theorem snapshot_epoch (s : RoomSession) : s.snapshot.epoch = s.epochNow := by
  unfold snapshot epochNow hostView clientView hostEpoch clientEpoch
  cases s.server with
  | some server => rfl
  | none =>
    cases s.client with
    | some client => rfl
    | none => rfl

/-- The epochs of the snapshots that are emitted in the room. -/
def seen (effects : List Effect) : List ℕ :=
  effects.filterMap fun
    | .update snapshot => if snapshot.phase.present then some snapshot.epoch else none
    | _ => none

/-- The epochs shown in the room never go back. -/
def NeverBack (s : RoomSession) (es : List SessionEvent) : Prop :=
  (seen (session.trace s es)).Pairwise (· ≤ ·)

/-- The host that hands the room on is the one the session is connected to, and names the next
epoch. -/
def Honest (s : RoomSession) : SessionEvent → Prop
  | .client client (.hostTransfer _ epoch) => s.leaving = false → s.transferring = false →
      s.client = some client ∧ epoch = s.clientEpoch client + 1
  | _ => True

/-- A change of host that begins in the room begins in epoch 0. -/
def FromEpochZero (s : RoomSession) : SessionEvent → Prop
  | .client client (.hostTransfer _ _) => s.leaving = false → s.transferring = false →
      s.phase = .inRoom → s.clientEpoch client = 0
  | _ => True

/-! ### What stays under a still step -/

theorem Still.clientEpoch (h : Still s s') (client : ℕ) : s'.clientEpoch client = s.clientEpoch client := by
  have hget := congrArg (fun l => l[client]?.map fun x => x.2.2) h.clients
  simp only [List.getElem?_map, Option.map_map] at hget
  exact congrArg (Option.getD · 0) hget

theorem Still.minEpoch (h : Still s s') (client : ℕ) : s'.minEpoch client = s.minEpoch client := by
  have hget := congrArg (fun l => l[client]?.map fun x => x.1) h.clients
  simp only [List.getElem?_map, Option.map_map] at hget
  exact congrArg (Option.getD · 0) hget

theorem Still.hostEpoch (h : Still s s') (server : ℕ) : s'.hostEpoch server = s.hostEpoch server := by
  have hget := congrArg (fun l => l[server]?) h.servers
  simp only [List.getElem?_map] at hget
  exact congrArg (Option.getD · 0) hget

theorem Still.epochNow (h : Still s s') : s'.epochNow = s.epochNow := by
  unfold RoomSession.epochNow
  rw [h.server, h.client]
  simp only [h.hostEpoch, h.clientEpoch]

theorem Still.due (h : Still s s') : s'.due = s.due := by
  unfold RoomSession.due
  rw [h.transfer, h.epochNow]
  simp only [h.hostEpoch, h.clientEpoch, h.minEpoch]

/-! ### The shape of a session -/

/-- What a change of host has made of client and server. -/
def TransferShape (s : RoomSession) : Option TransferFlow → Prop
  | none => True
  | some (.opening ..) => s.client = none ∧ s.server = none
  | some (.waiting _) => s.client = none ∧ s.server = none ∧ s.peerLink = true
  | some (.listening server) =>
    s.client = none ∧ s.server = none ∧ server < s.servers.length
  | some (.connecting client) =>
    s.client = some client ∧ s.server = none ∧ s.clientEpoch client = 0
  | some (.connected client _) => s.client = some client ∧ s.server = none
  | some .closingLink | some .closingServer => s.leaving = true

/-- What the call that enters the room has made of them. -/
def EntryShape (s : RoomSession) : EntryFlow → Prop
  | .done => True
  | .listening _ server => s.client = none ∧ s.server = none ∧ server < s.servers.length
  | .connecting _ client => s.client = some client ∧ s.server = none
  | .connected .. => s.server = none
  | .closingLink | .closingServer => s.leaving = true
  | .idle | .opening .. => s.client = none ∧ s.server = none

structure Shape (s : RoomSession) : Prop where
  client : ∀ client ∈ s.client, client < s.clients.length
  server : ∀ server ∈ s.server, server < s.servers.length
  apart : ∀ client ∈ s.client, s.server = none
  link : ∀ client ∈ s.client, s.peerLink = true
  hosting : s.phase = .hosting → s.server ≠ none
  leaving : s.leaving = true → s.phase.present = false
  idle : s.transferring = false → s.transfer = none
  transfer : TransferShape s s.transfer
  entry : EntryShape s s.entry

theorem shape_begin : Shape .begin where
  client _ h := by cases h
  server _ h := by cases h
  apart _ h := by cases h
  link _ h := by cases h
  hosting h := by cases h
  leaving h := by cases h
  idle _ := rfl
  transfer := trivial
  entry := ⟨rfl, rfl⟩

theorem Still.shape (h : Still s s') (hs : Shape s) : Shape s' := by
  have hclients : s'.clients.length = s.clients.length := by
    simpa using congrArg List.length h.clients
  have hservers : s'.servers.length = s.servers.length := by
    simpa using congrArg List.length h.servers
  refine ⟨?_, ?_, ?_, ?_, ?_, ?_, ?_, ?_, ?_⟩
  · rw [h.client, hclients]
    exact hs.client
  · rw [h.server, hservers]
    exact hs.server
  · rw [h.client, h.server]
    exact hs.apart
  · rw [h.client, h.peerLink]
    exact hs.link
  · intro hphase
    rw [h.server]
    obtain hsame | hleft | ⟨-, hwaking⟩ := h.phase
    · exact hs.hosting (hsame ▸ hphase)
    · rw [hleft] at hphase
      cases hphase
    · rw [hwaking] at hphase
      cases hphase
  · intro hleaving
    obtain hsame | ⟨-, hleft⟩ := h.leaving
    · exact h.absent (hs.leaving (hsame ▸ hleaving))
    · rw [hleft]
      rfl
  · rw [h.transferring, h.transfer]
    exact hs.idle
  · have hold := hs.transfer
    rw [h.transfer]
    unfold TransferShape at hold ⊢
    rw [h.client, h.server, h.peerLink, hservers]
    cases htransfer : s.transfer with
    | none => trivial
    | some flow =>
      rw [htransfer] at hold
      cases flow with
      | closingLink | closingServer =>
        obtain hsame | ⟨hleaving, -⟩ := h.leaving
        · exact hsame.trans hold
        · exact hleaving
      | connecting client => exact ⟨hold.1, hold.2.1, (h.clientEpoch client).trans hold.2.2⟩
      | _ => exact hold
  · have hold := hs.entry
    rw [h.entry]
    unfold EntryShape at hold ⊢
    rw [h.client, h.server, hservers]
    cases hentry : s.entry with
    | closingLink | closingServer =>
      rw [hentry] at hold
      obtain hsame | ⟨hleaving, -⟩ := h.leaving
      · exact hsame.trans hold
      · exact hleaving
    | _ =>
      rw [hentry] at hold
      exact hold

/-- The call has settled; the session may have come into the room. -/
theorem Shape.settle (h : Shape s) (phase : SessionPhase) (notice : Option String)
    (roomParams : RoomParams) (hphase : phase = .hosting → s.server ≠ none)
    (hleaving : s.leaving = true → phase.present = false) :
    Shape { s with phase := phase, notice := notice, roomParams := roomParams, entry := .done } where
  client := h.client
  server := h.server
  apart := h.apart
  link := h.link
  hosting := hphase
  leaving := hleaving
  idle := h.idle
  transfer := h.transfer
  entry := trivial

/-- The call goes on to an await at which it holds what it holds now. -/
theorem Shape.entry_of (h : Shape s) (flow : EntryFlow) (hflow : EntryShape s flow) :
    Shape { s with entry := flow } where
  client := h.client
  server := h.server
  apart := h.apart
  link := h.link
  hosting := h.hosting
  leaving := h.leaving
  idle := h.idle
  transfer := h.transfer
  entry := by
    unfold EntryShape at hflow ⊢
    exact hflow

theorem Shape.settled (h : Shape s) : Shape { s with entry := .done } := h.entry_of .done trivial

theorem shape_attempt (h : Shape s) (hentry : s.client = none ∧ s.server = none) (n : ℕ)
    (opts : EnterOptions) (asHost : Bool) : Shape (s.attempt n opts asHost).1 := by
  unfold attempt
  split
  · exact ⟨h.client, h.server, h.apart, h.link, by simp [host], fun _ => rfl, h.idle, h.transfer, hentry⟩
  · exact ⟨h.client, h.server, h.apart, h.link, by simp [join], fun _ => rfl, h.idle, h.transfer, hentry⟩

theorem shape_entryFailed (h : Shape s) (reason : Option String) (message : String) :
    Shape (s.entryFailed reason message).1 := by
  have hentry := h.entry
  unfold entryFailed
  split
  · next caller opts asHost heq =>
    rw [heq] at hentry
    unfold failed
    split
    · split
      · exact shape_attempt h hentry _ _ _
      · exact h.settled
    · exact h.settled
  · exact h.settled
  · exact h.settled
  · exact h

theorem shape_entryOpened (h : Shape s) (htransfer : s.transfer = none) (hostPeerId : String) :
    Shape (s.entryOpened hostPeerId).1 := by
  have hentry := h.entry
  have hnone : ∀ {s' : RoomSession}, s'.transfer = s.transfer → TransferShape s' s'.transfer := by
    intro s' hsame
    rw [hsame, htransfer]
    trivial
  unfold entryOpened
  split
  · next caller opts heq =>
    rw [heq] at hentry
    split
    · next hleaving => exact h.entry_of .closingLink hleaving
    · refine ⟨h.client, ?_, h.apart, h.link, h.hosting, h.leaving, h.idle, hnone rfl, hentry.1, hentry.2, ?_⟩
      · intro server hserver
        have hold := h.server server hserver
        simp only [startServer, List.length_append, List.length_singleton]
        omega
      · simp [startServer]
  · next caller opts heq =>
    rw [heq] at hentry
    split
    · exact h.settled
    · refine ⟨?_, h.server, fun _ _ => hentry.2, fun _ _ => rfl, h.hosting, h.leaving, h.idle, hnone rfl, rfl,
        hentry.2⟩
      simp [startClient]
  · exact h

theorem shape_entryListening (h : Shape s) (htransfer : s.transfer = none) :
    Shape s.entryListening.1 := by
  have hentry := h.entry
  unfold entryListening
  split
  · next caller server heq =>
    rw [heq] at hentry
    have hnew : ∀ server' ∈ some server, server' < s.servers.length := by
      intro server' hsome
      cases hsome
      exact hentry.2.2
    have hclient : ∀ client ∈ s.client, some server = none := by
      intro client hsome
      rw [hentry.1] at hsome
      cases hsome
    have htrivial : ∀ {s' : RoomSession}, s'.transfer = s.transfer → TransferShape s' s'.transfer := by
      intro s' hsame
      rw [hsame, htransfer]
      trivial
    split
    · next hleaving =>
      exact ⟨h.client, hnew, hclient, h.link, by simp, h.leaving, h.idle, htrivial rfl, hleaving⟩
    · next hleaving =>
      exact ⟨h.client, hnew, hclient, h.link, fun _ => Option.some_ne_none _,
        fun hyes => absurd hyes hleaving, h.idle, htrivial rfl, trivial⟩
  · exact h

theorem shape_fill (h : Shape s) (client : ℕ) (welcome : Welcome) (entry : EntryFlow)
    (transfer : Option TransferFlow) (hentry : EntryShape s entry)
    (htransfer : TransferShape s transfer) (hidle : s.transferring = false → transfer = none)
    (hconnecting : ∀ client', transfer ≠ some (.connecting client')) :
    Shape { s.fill client welcome with entry := entry, transfer := transfer } := by
  have hlength : (s.fill client welcome).clients.length = s.clients.length := by
    simp [fill]
  refine ⟨?_, h.server, h.apart, h.link, h.hosting, h.leaving, hidle, ?_, ?_⟩
  · show ∀ client' ∈ s.client, client' < (s.fill client welcome).clients.length
    rw [hlength]
    exact h.client
  · cases transfer with
    | none => trivial
    | some flow =>
      cases flow with
      | connecting client' => exact absurd rfl (hconnecting client')
      | _ => exact htransfer
  · cases entry <;> exact hentry

theorem shape_entryJoined (h : Shape s) (htransfer : s.transfer = none) (welcome : Welcome) :
    Shape (s.entryJoined welcome).1 := by
  have hentry := h.entry
  unfold entryJoined
  split
  · next caller client heq =>
    rw [heq] at hentry
    split
    · exact shape_entryFailed h _ _
    · have hfill := shape_fill h client welcome (.connected client welcome.roomParams) s.transfer
        hentry.2 h.transfer h.idle (by simp [htransfer])
      exact hfill
  · exact h

theorem shape_entryConnected (h : Shape s) : Shape s.entryConnected.1 := by
  unfold entryConnected
  split
  · split
    · exact h.settled
    · next hleaving =>
      exact h.settle .inRoom none _ (by simp) fun hyes => absurd hyes hleaving
  · exact h

theorem shape_entryClosed (h : Shape s) : Shape s.entryClosed.1 := by
  unfold entryClosed
  split
  · exact h.settled
  · exact h.settled
  · exact h

theorem shape_ofEntry (h : Shape s) (harriving : Arriving s) (henabled : s.enabled e)
    (he : e.ofEntry = true) : Shape (s.step e).1 := by
  cases harriving with
  | waiting absent transfer clients =>
    have hidle : s.entry.isIdle = true → s.client = none ∧ s.server = none := by
      intro hidle
      have hentry := h.entry
      cases heq : s.entry <;> rw [heq] at hidle hentry <;> first | exact hentry | cases hidle
    cases e with
    | enter opts => exact shape_attempt h (hidle henabled.2) _ opts _
    | host opts =>
      exact ⟨h.client, h.server, h.apart, h.link, by simp [step, host], fun _ => rfl, h.idle, h.transfer,
        hidle henabled.2⟩
    | join opts =>
      exact ⟨h.client, h.server, h.apart, h.link, by simp [step, join], fun _ => rfl, h.idle, h.transfer,
        hidle henabled.2⟩
    | entryOpened hostPeerId => exact shape_entryOpened h transfer hostPeerId
    | entryListening => exact shape_entryListening h transfer
    | entryJoined welcome => exact shape_entryJoined h transfer welcome
    | entryConnected => exact shape_entryConnected h
    | entryFailed reason message => exact shape_entryFailed h reason message
    | entryClosed => exact shape_entryClosed h
    | _ => cases he
  | returned entry absent transfer =>
    have hturn := henabled.1
    simp only [returned, entry, Option.all_some] at hturn
    cases e with
    | entryConnected => exact shape_entryConnected h
    | enter _ | host _ | join _ | entryOpened _ | entryListening | entryJoined _ | entryFailed _ _
    | entryClosed => simp [sameTurn] at hturn
    | _ => cases he
  | done entry =>
    rw [step_ofEntry entry henabled he]
    exact h

/-! ### The shape and a change of host -/

theorem entryShape_done (h : s'.entry = .done) : EntryShape s' s'.entry := by
  rw [h]
  trivial

/-- The change of host is over, and has left client and server as they were. -/
theorem Shape.over (h : Shape s) : Shape { s with transfer := none } where
  client := h.client
  server := h.server
  apart := h.apart
  link := h.link
  hosting := h.hosting
  leaving := h.leaving
  idle _ := rfl
  transfer := trivial
  entry := by
    have hentry := h.entry
    cases heq : s.entry <;> rw [heq] at hentry <;> exact hentry

theorem Shape.roomEnded (h : Shape s) (hentry : s.entry = .done) (reason : String) :
    Shape (s.roomEnded reason).1 :=
  ⟨h.client, h.server, h.apart, h.link, by simp [RoomSession.roomEnded], fun _ => rfl, fun _ => rfl, trivial,
    entryShape_done hentry⟩

theorem shape_transferOpened (h : Shape s) (hentry : s.entry = .done) : Shape s.transferOpened.1 := by
  have htransfer := h.transfer
  unfold transferOpened
  split
  · next epoch hostPeerId heq =>
    rw [heq] at htransfer
    split
    · next hleaving =>
      refine ⟨h.client, h.server, h.apart, h.link, h.hosting, h.leaving, fun hidle => ?_, hleaving,
        entryShape_done hentry⟩
      rw [h.idle hidle] at heq
      cases heq
    · refine ⟨h.client, ?_, h.apart, h.link, h.hosting, h.leaving, fun hidle => ?_,
        ⟨htransfer.1, htransfer.2, ?_⟩, entryShape_done hentry⟩
      · intro server hserver
        have hold := h.server server hserver
        simp only [startServer, List.length_append, List.length_singleton]
        omega
      · rw [h.idle hidle] at heq
        cases heq
      · simp [startServer]
  · exact h

theorem shape_transferListening (h : Shape s) (hentry : s.entry = .done) :
    Shape s.transferListening.1 := by
  have htransfer := h.transfer
  unfold transferListening
  split
  · next server heq =>
    rw [heq] at htransfer
    have hnew : ∀ server' ∈ some server, server' < s.servers.length := by
      intro server' hsome
      cases hsome
      exact htransfer.2.2
    have hclient : ∀ client ∈ s.client, some server = none := by
      intro client hsome
      rw [htransfer.1] at hsome
      cases hsome
    split
    · next hleaving =>
      refine ⟨h.client, hnew, hclient, h.link, by simp, h.leaving, fun hidle => ?_, hleaving,
        entryShape_done hentry⟩
      rw [h.idle hidle] at heq
      cases heq
    · next hleaving =>
      exact ⟨h.client, hnew, hclient, h.link, fun _ => Option.some_ne_none _,
        fun hyes => absurd hyes hleaving, fun _ => rfl, trivial, entryShape_done hentry⟩
  · exact h

theorem shape_transferClaimed (h : Shape s) (hentry : s.entry = .done) (claimed : Bool) :
    Shape (s.transferClaimed claimed).1 := by
  have htransfer := h.transfer
  unfold transferClaimed
  split
  · next epoch heq =>
    rw [heq] at htransfer
    split
    · exact h.over
    · split
      · refine ⟨?_, h.server, fun _ _ => htransfer.2.1, fun _ _ => htransfer.2.2, h.hosting, h.leaving, fun hidle => ?_,
          ⟨rfl, htransfer.2.1, ?_⟩, entryShape_done hentry⟩
        · simp [startClient]
        · rw [h.idle hidle] at heq
          cases heq
        · simp [startClient, clientEpoch, ClientView.new]
      · exact h.roomEnded hentry _
  · exact h

theorem shape_transferFailed (h : Shape s) (hentry : s.entry = .done) (message : String) :
    Shape (s.transferFailed message).1 := by
  unfold transferFailed
  split
  · exact ⟨h.client, h.server, h.apart, h.link, by simp, fun _ => rfl, fun _ => rfl, trivial,
      entryShape_done hentry⟩
  · exact ⟨h.client, h.server, h.apart, h.link, by simp, fun _ => rfl, fun _ => rfl, trivial,
      entryShape_done hentry⟩
  · split
    · exact h.over
    · exact ⟨by simp [RoomSession.roomEnded], h.server, by simp [RoomSession.roomEnded],
        by simp [RoomSession.roomEnded], by simp [RoomSession.roomEnded], fun _ => rfl, fun _ => rfl, trivial, entryShape_done hentry⟩
  · exact h

theorem shape_transferJoined (h : Shape s) (hentry : s.entry = .done) (welcome : Welcome) :
    Shape (s.transferJoined welcome).1 := by
  have htransfer := h.transfer
  unfold transferJoined
  split
  · next client heq =>
    rw [heq] at htransfer
    split
    · exact shape_transferFailed h hentry _
    · have hidle : s.transferring = false →
          (some (.connected client welcome.roomParams) : Option TransferFlow) = none := by
        intro hidle
        rw [h.idle hidle] at heq
        cases heq
      exact shape_fill h client welcome s.entry _ h.entry ⟨htransfer.1, htransfer.2.1⟩ hidle
        (by simp)
  · exact h

theorem shape_transferConnected (h : Shape s) (hentry : s.entry = .done) :
    Shape s.transferConnected.1 := by
  unfold transferConnected
  split
  · split
    · exact h.over
    · next hleaving =>
      exact ⟨h.client, h.server, h.apart, h.link, by simp, fun hyes => absurd hyes hleaving, fun _ => rfl,
        trivial, entryShape_done hentry⟩
  · exact h

theorem shape_transferClosed (h : Shape s) : Shape s.transferClosed.1 := by
  unfold transferClosed
  split
  · exact h.over
  · exact h.over
  · exact h

theorem shape_ofTransfer (h : Shape s) (hentry : s.entry = .done) (he : e.ofTransfer = true) :
    Shape (s.step e).1 := by
  cases e with
  | transferOpened => exact shape_transferOpened h hentry
  | transferListening => exact shape_transferListening h hentry
  | transferClaimed claimed => exact shape_transferClaimed h hentry claimed
  | transferJoined welcome => exact shape_transferJoined h hentry welcome
  | transferConnected => exact shape_transferConnected h hentry
  | transferFailed message => exact shape_transferFailed h hentry message
  | transferClosed => exact shape_transferClosed h
  | _ => cases he

/-- A client speaks only behind the return of `connect`. -/
theorem entryShape_of_speaks (h : Shape s) (harriving : Arriving s) {client : ℕ} {event : ClientEvent}
    (henabled : s.enabled (.client client event)) :
    ∀ {s' : RoomSession}, s'.entry = s.entry → s'.server = s.server → EntryShape s' s'.entry := by
  intro s' hentry hserver
  rw [hentry]
  cases harriving with
  | waiting absent transfer clients =>
    obtain ⟨view, hview, hconnected⟩ := Option.map_eq_some_iff.mp henabled.2
    rw [clients view (List.mem_of_getElem? hview)] at hconnected
    cases hconnected
  | returned entry absent transfer =>
    have hold := h.entry
    rw [entry] at hold ⊢
    exact hserver.trans hold
  | done entry =>
    rw [entry]
    trivial

theorem shape_onHostTransfer (h : Shape s) (harriving : Arriving s) {client epoch : ℕ}
    {successorPeerId : String}
    (henabled : s.enabled (.client client (.hostTransfer successorPeerId epoch)))
    (honest : Honest s (.client client (.hostTransfer successorPeerId epoch))) :
    Shape (s.onHostTransfer successorPeerId epoch).1 := by
  have hentry := @entryShape_of_speaks s h harriving client _ henabled
  unfold onHostTransfer
  split
  · exact h
  · next hfree =>
    simp only [Bool.or_eq_true, not_or, Bool.not_eq_true] at hfree
    have hserver := h.apart client (honest hfree.1 hfree.2).1
    split
    · exact ⟨by simp [promote], h.server, by simp [promote], by simp [promote], h.hosting, h.leaving,
        by simp [promote], ⟨rfl, hserver⟩, hentry rfl rfl⟩
    · unfold rehome
      dsimp only
      split
      · next hlink =>
        exact ⟨by simp, h.server, by simp, by simp, h.hosting, h.leaving, by simp,
          ⟨rfl, hserver, hlink⟩, hentry rfl rfl⟩
      · exact ⟨by simp [RoomSession.roomEnded], h.server, by simp [RoomSession.roomEnded],
          by simp [RoomSession.roomEnded], by simp [RoomSession.roomEnded], fun _ => rfl, fun _ => rfl, trivial, hentry rfl rfl⟩

theorem shape_next (h : Shape s) (harriving : Arriving s) (henabled : s.enabled e)
    (honest : Honest s e) : Shape (session.next s e) := by
  show Shape (s.step e).1
  obtain hentry | htransfer | ⟨client, successorPeerId, epoch, rfl⟩ | hstill := step_cases s e
  · exact shape_ofEntry h harriving henabled hentry
  · cases harriving with
    | waiting absent transfer clients =>
      rw [step_ofTransfer transfer htransfer]
      exact h
    | returned entry absent transfer =>
      rw [step_ofTransfer_connected entry transfer henabled htransfer]
      exact h
    | done entry => exact shape_ofTransfer h entry htransfer
  · exact shape_onHostTransfer h harriving henabled honest
  · exact hstill.shape h

/-! ### What a step shows -/

theorem seen_append (effects effects' : List Effect) :
    seen (effects ++ effects') = seen effects ++ seen effects' := List.filterMap_append

theorem seen_emit (s : RoomSession) :
    seen s.emit = if s.phase.present = true then [s.epochNow] else [] := by
  rw [← snapshot_epoch]
  by_cases h : s.phase.present = true
  · simp [seen, RoomSession.emit, snapshot, h]
  · simp [seen, RoomSession.emit, snapshot, h]

theorem seen_emit_absent (h : s.phase.present = false) : seen s.emit = [] := by
  simp [seen_emit, h]

/-- A step from `s` to `s'` shows nothing but the epoch of `s'`, and shows it if it is new. -/
structure Shows (s s' : RoomSession) (effects : List Effect) : Prop where
  only : ∀ n ∈ seen effects, n = s'.epochNow
  absent : s'.phase.present = false → seen effects = []
  news : s'.phase.present = true →
    s'.epochNow ∈ seen effects ∨ s.phase.present = true ∧ s'.epochNow = s.epochNow

theorem shows_emit (before behind : List Effect) (hbefore : seen before = [])
    (hbehind : seen behind = []) : Shows s s' (before ++ s'.emit ++ behind) := by
  have hseen : seen (before ++ s'.emit ++ behind) = seen s'.emit := by
    rw [seen_append, seen_append, hbefore, hbehind, List.nil_append, List.append_nil]
  refine ⟨?_, ?_, ?_⟩
  · rw [hseen, seen_emit]
    split <;> simp
  · intro habsent
    rw [hseen]
    exact seen_emit_absent habsent
  · intro hpresent
    left
    rw [hseen, seen_emit, if_pos hpresent]
    exact List.mem_singleton_self _

theorem shows_of_append {before : List Effect} (hbefore : seen before = []) :
    Shows s s' (before ++ s'.emit) := by
  rw [← List.append_nil (before ++ s'.emit)]
  exact shows_emit before [] hbefore rfl

theorem shows_twice : Shows s s' (s'.emit ++ s'.emit) := by
  refine ⟨?_, ?_, ?_⟩
  · rw [seen_append, seen_emit]
    split <;> simp
  · intro habsent
    rw [seen_append, seen_emit_absent habsent]
    rfl
  · intro hpresent
    left
    rw [seen_append, seen_emit, if_pos hpresent]
    exact List.mem_cons_self

theorem shows_absent {effects : List Effect} (h : s'.phase.present = false)
    (hseen : seen effects = []) : Shows s s' effects := by
  refine ⟨?_, fun _ => hseen, ?_⟩
  · simp [hseen]
  · simp [h]

theorem shows_same {effects : List Effect} (hseen : seen effects = [])
    (hphase : s'.phase.present = true → s.phase.present = true) (hepoch : s'.epochNow = s.epochNow) :
    Shows s s' effects := by
  refine ⟨?_, fun _ => hseen, fun hpresent => .inr ⟨hphase hpresent, hepoch⟩⟩
  simp [hseen]

theorem shows_nil : Shows s s [] := shows_same rfl id rfl

theorem shows_onClient (client : ℕ) {event : ClientEvent}
    (h : ∀ successorPeerId epoch, event ≠ .hostTransfer successorPeerId epoch) :
    Shows s (s.onClient client event).1 (s.onClient client event).2 := by
  cases event with
  | roster roster => exact shows_emit [] [] rfl rfl
  | streams streams => exact shows_emit [] [] rfl rfl
  | media body => exact shows_same rfl id rfl
  | hostLost =>
    simp only [onClient]
    split
    · exact shows_nil
    · exact shows_emit [] [] rfl rfl
  | close reason =>
    simp only [onClient]
    split
    · exact shows_nil
    · exact shows_emit [] [] rfl rfl
  | error => exact shows_emit [] [] rfl rfl
  | hostTransfer successorPeerId epoch => exact absurd rfl (h successorPeerId epoch)

theorem shows_onServer (server : ℕ) (event : ServerEvent) :
    Shows s (s.onServer server event).1 (s.onServer server event).2 := by
  cases event with
  | changed roster => exact shows_emit [] [] rfl rfl
  | sourceClosed reason => exact shows_emit [] [] rfl rfl
  | broadcast body streams => exact shows_emit [.broadcast server body, .media body] [] rfl rfl
  | sendTo peerId body =>
    simp only [onServer]
    split <;> exact shows_same rfl id rfl
  | reply body => exact shows_emit [.media body] [] rfl rfl

theorem seen_map_closeClient (client : Option ℕ) (reason : String) :
    seen (client.toList.map fun client => Effect.closeClient client reason) = [] := by
  cases client <;> rfl

theorem seen_map_detachClient (client : Option ℕ) :
    seen (client.toList.map Effect.detachClient) = [] := by
  cases client <;> rfl

theorem seen_map_closeMedia (server : Option ℕ) : seen (server.toList.map Effect.closeMedia) = [] := by
  cases server <;> rfl

theorem shows_leave : Shows s s.leave.1 s.leave.2 := by
  unfold leave
  dsimp only
  split
  · split
    · refine shows_absent rfl ?_
      rw [seen_append, seen_map_closeClient]
      rfl
    · refine shows_absent rfl ?_
      rw [seen_append, seen_map_closeClient]
      rfl
  · refine shows_absent rfl ?_
    rw [seen_append, seen_map_closeClient]
    split <;> rfl

theorem shows_left (call : ℕ) (thrown : Bool) :
    Shows s (s.left call thrown).1 (s.left call thrown).2 := by
  unfold RoomSession.left
  split
  · exact shows_same rfl id rfl
  · exact shows_of_append (seen_map_closeMedia _)
  · exact shows_nil

theorem shows_onHostTransfer (successorPeerId : String) (epoch : ℕ) :
    Shows s (s.onHostTransfer successorPeerId epoch).1 (s.onHostTransfer successorPeerId epoch).2 := by
  unfold onHostTransfer
  split
  · exact shows_nil
  · split
    · exact shows_emit _ [.openHostLink s.relayUrl] (seen_map_closeClient _ _) rfl
    · unfold rehome
      dsimp only
      split
      · exact shows_of_append (seen_map_detachClient _)
      · exact shows_of_append (seen_map_detachClient _)

/-! #### The call that enters the room -/

theorem shows_attempt (n : ℕ) (opts : EnterOptions) (asHost : Bool) :
    Shows s (s.attempt n opts asHost).1 (s.attempt n opts asHost).2 := by
  unfold attempt
  split <;> exact shows_absent rfl rfl

theorem shows_entryFailed (habsent : s.phase.present = false) (reason : Option String)
    (message : String) : Shows s (s.entryFailed reason message).1 (s.entryFailed reason message).2 := by
  have hrejected : ∀ caller, Shows s (s.rejected caller message).1 (s.rejected caller message).2 := by
    intro caller
    refine shows_absent habsent ?_
    unfold rejected settle
    dsimp only
    split <;> rfl
  unfold entryFailed
  split
  · unfold failed
    split
    · split
      · exact shows_attempt _ _ _
      · exact hrejected _
    · exact hrejected _
  · exact hrejected _
  · exact hrejected _
  · exact shows_nil

theorem shows_ofEntry (habsent : s.phase.present = false) (he : e.ofEntry = true) :
    Shows s (s.step e).1 (s.step e).2 := by
  cases e with
  | enter opts => exact shows_attempt 1 opts false
  | host opts => exact shows_absent rfl rfl
  | join opts => exact shows_absent rfl rfl
  | entryOpened hostPeerId =>
    simp only [step, entryOpened]
    split
    · split <;> exact shows_absent habsent rfl
    · split <;> exact shows_absent habsent rfl
    · exact shows_nil
  | entryListening =>
    simp only [step, entryListening]
    split
    · split
      · exact shows_absent habsent rfl
      · exact shows_emit [] [.entered] rfl rfl
    · exact shows_nil
  | entryJoined welcome =>
    simp only [step, entryJoined]
    split
    · split
      · next client _ _ =>
        have hfailed := shows_entryFailed habsent none (s.staleMessage client welcome)
        exact ⟨hfailed.only, hfailed.absent, hfailed.news⟩
      · next client _ _ =>
        refine shows_absent habsent ?_
        rw [seen_append, seen_emit_absent (s := s.fill client welcome) habsent]
        rfl
    · exact shows_nil
  | entryConnected =>
    simp only [step, entryConnected]
    split
    · split
      · exact shows_absent habsent rfl
      · exact shows_emit [] [.entered] rfl rfl
    · exact shows_nil
  | entryFailed reason message => exact shows_entryFailed habsent reason message
  | entryClosed =>
    simp only [step, entryClosed]
    split
    · exact shows_absent habsent rfl
    · exact shows_absent habsent rfl
    · exact shows_nil
  | _ => cases he

/-! #### A change of host -/

theorem epochNow_none (hclient : s.client = none) (hserver : s.server = none) : s.epochNow = 0 := by
  simp [epochNow, hclient, hserver]

theorem shows_transferFailed (message : String) :
    Shows s (s.transferFailed message).1 (s.transferFailed message).2 := by
  unfold transferFailed
  split
  · exact shows_emit [] [] rfl rfl
  · exact shows_emit [] [] rfl rfl
  · split
    · exact shows_same rfl id rfl
    · exact shows_emit [] [] rfl rfl
  · exact shows_nil

theorem shows_ofTransfer (h : Shape s) (he : e.ofTransfer = true) :
    Shows s (s.step e).1 (s.step e).2 := by
  have htransfer := h.transfer
  cases e with
  | transferOpened =>
    simp only [step, transferOpened]
    split
    · next epoch hostPeerId heq =>
      rw [heq] at htransfer
      split
      · exact shows_same rfl id rfl
      · refine shows_same rfl id ?_
        rw [epochNow_none htransfer.1 htransfer.2]
        exact epochNow_none htransfer.1 htransfer.2
    · exact shows_nil
  | transferListening =>
    simp only [step, transferListening]
    split
    · split
      · next hleaving => exact shows_absent (h.leaving hleaving) rfl
      · exact shows_emit [] [] rfl rfl
    · exact shows_nil
  | transferClaimed claimed =>
    simp only [step, transferClaimed]
    split
    · next epoch heq =>
      rw [heq] at htransfer
      split
      · exact shows_same rfl id rfl
      · split
        · refine shows_same rfl id ?_
          rw [epochNow_none htransfer.1 htransfer.2.1]
          simp [startClient, epochNow, htransfer.2.1, clientEpoch, ClientView.new]
        · exact shows_emit [] [] rfl rfl
    · exact shows_nil
  | transferJoined welcome =>
    simp only [step, transferJoined]
    split
    · next client heq =>
      split
      · have hfailed := shows_transferFailed (s := s) (s.staleMessage client welcome)
        exact ⟨hfailed.only, hfailed.absent, hfailed.news⟩
      · exact shows_twice
    · exact shows_nil
  | transferConnected =>
    simp only [step, transferConnected]
    split
    · split
      · exact shows_same rfl id rfl
      · exact shows_emit [] [] rfl rfl
    · exact shows_nil
  | transferFailed message => exact shows_transferFailed message
  | transferClosed =>
    simp only [step, transferClosed]
    split
    · exact shows_same rfl id rfl
    · exact shows_same rfl id rfl
    · exact shows_nil
  | _ => cases he

/-- **What a step shows.** -/
theorem shows_step (h : Shape s) (harriving : Arriving s) (henabled : s.enabled e) :
    Shows s (s.step e).1 (s.step e).2 := by
  by_cases hentry : e.ofEntry = true
  · cases harriving with
    | waiting absent => exact shows_ofEntry absent hentry
    | returned _ absent => exact shows_ofEntry absent hentry
    | done entry =>
      rw [step_ofEntry entry henabled hentry]
      exact shows_nil
  by_cases htransfer : e.ofTransfer = true
  · exact shows_ofTransfer h htransfer
  cases e with
  | waking =>
    simp only [step, setWaking]
    split
    · exact shows_emit [] [] rfl rfl
    · exact shows_nil
  | client client event =>
    cases event with
    | hostTransfer successorPeerId epoch => exact shows_onHostTransfer successorPeerId epoch
    | _ => exact shows_onClient client (by simp)
  | server server event => exact shows_onServer server event
  | sendMedia body =>
    refine shows_same ?_ id rfl
    simp only [step, sendMedia]
    split <;> rfl
  | leave => exact shows_leave
  | left call thrown => exact shows_left call thrown
  | _ => first | exact absurd rfl hentry | exact absurd rfl htransfer

/-! ### What has been shown -/

/-- The session may yet show another epoch. -/
def Open (s : RoomSession) : Prop :=
  s.leaving = false ∧ (s.transfer ≠ none ∨ s.client ≠ none ∨ s.server ≠ none)

/-- `past` are the epochs shown so far. -/
structure Told (past : List ℕ) (s : RoomSession) : Prop where
  early : s.entry ≠ .done → past = []
  now : s.phase.present = true → ∀ n ∈ past, n ≤ s.epochNow
  due : Open s → ∀ n ∈ past, n ≤ s.due
  said : s.phase.present = true → s.epochNow ∈ past

/-- Behind a step nothing comes that lies under what could come before it. -/
structure Rises (s s' : RoomSession) : Prop where
  due : Open s' → Open s ∧ s.due ≤ s'.due
  now : s'.phase.present = true → Open s ∧ s.due ≤ s'.epochNow ∨
    s.phase.present = true ∧ s'.epochNow = s.epochNow

theorem Rises.refl : Rises s s := ⟨fun h => ⟨h, Nat.le_refl _⟩, fun h => .inr ⟨h, rfl⟩⟩

theorem Still.rises (h : Still s s') : Rises s s' := by
  refine ⟨fun ⟨hleaving, hobject⟩ => ⟨⟨?_, ?_⟩, ?_⟩, fun hpresent => .inr ⟨?_, h.epochNow⟩⟩
  · obtain hsame | ⟨hyes, -⟩ := h.leaving
    · exact hsame.symm.trans hleaving
    · rw [hyes] at hleaving
      cases hleaving
  · rwa [h.transfer, h.client, h.server] at hobject
  · exact Nat.le_of_eq h.due.symm
  · apply Bool.eq_false_or_eq_true _ |>.resolve_right
    intro habsent
    rw [h.absent habsent] at hpresent
    cases hpresent

/-- What has ended shows nothing more. -/
theorem rises_of_closed (hphase : s'.phase.present = false) (hopen : ¬ Open s') : Rises s s' := by
  refine ⟨fun h => absurd h hopen, fun h => ?_⟩
  rw [hphase] at h
  cases h

/-- What leaves has nothing to come. -/
theorem rises_of_leaving (hleaving : s'.leaving = true) (hphase : s'.phase.present = false) :
    Rises s s' := by
  apply rises_of_closed hphase
  intro hopen
  rw [hopen.1] at hleaving
  cases hleaving

theorem fill_clientEpoch {client : ℕ} (welcome : Welcome) (h : client < s.clients.length) :
    (s.fill client welcome).clientEpoch client = welcome.epoch := by
  simp [fill, clientEpoch, List.getElem?_eq_getElem h]

theorem rises_transferFailed (h : Shape s) (message : String) :
    Rises s (s.transferFailed message).1 := by
  have htransfer := h.transfer
  unfold transferFailed
  split
  · next heq =>
    rw [heq] at htransfer
    refine rises_of_closed rfl fun hopen => ?_
    simp [Open, htransfer.1, htransfer.2] at hopen
  · next heq =>
    rw [heq] at htransfer
    refine rises_of_closed rfl fun hopen => ?_
    simp [Open, htransfer.1, htransfer.2.1] at hopen
  · next heq =>
    rw [heq] at htransfer
    split
    · next hleaving => exact rises_of_leaving hleaving (h.leaving hleaving)
    · refine rises_of_closed rfl fun hopen => ?_
      simp [Open, RoomSession.roomEnded, htransfer.2.1] at hopen
  · exact Rises.refl

/-- The host link of a promotion is open. -/
theorem rises_transferOpened (h : Shape s) : Rises s (s.step .transferOpened).1 := by
  have htransfer := h.transfer
  simp only [step, transferOpened]
  split
  · next epoch hostPeerId heq =>
    rw [heq] at htransfer
    split
    · next hleaving => exact rises_of_leaving hleaving (h.leaving hleaving)
    · next hleaving =>
      have hopen : Open s := ⟨by simpa using hleaving, .inl (by simp [heq])⟩
      refine ⟨fun _ => ⟨hopen, ?_⟩, fun hpresent => .inr ⟨hpresent, ?_⟩⟩
      · simp [RoomSession.due, heq, startServer, hostEpoch]
      · rw [epochNow_none htransfer.1 htransfer.2]
        exact epochNow_none htransfer.1 htransfer.2
  · exact Rises.refl

/-- The server of a promotion listens. -/
theorem rises_transferListening (h : Shape s) : Rises s (s.step .transferListening).1 := by
  have htransfer := h.transfer
  simp only [step, transferListening]
  split
  · next server heq =>
    split
    · next hleaving => exact rises_of_leaving hleaving (h.leaving hleaving)
    · next hleaving =>
      have hopen : Open s := ⟨by simpa using hleaving, .inl (by simp [heq])⟩
      have hdue : s.due = s.hostEpoch server := by simp [RoomSession.due, heq]
      rw [heq] at htransfer
      refine ⟨fun _ => ⟨hopen, ?_⟩, fun _ => .inl ⟨hopen, ?_⟩⟩
      · rw [hdue]
        exact Nat.le_refl _
      · rw [hdue]
        exact Nat.le_refl _
  · exact Rises.refl

/-- The room is claimed by the successor, or by nobody. -/
theorem rises_transferClaimed (h : Shape s) {claimed : Bool} :
    Rises s (s.step (.transferClaimed claimed)).1 := by
  have htransfer := h.transfer
  simp only [step, transferClaimed]
  split
  · next epoch heq =>
    rw [heq] at htransfer
    split
    · next hleaving => exact rises_of_leaving hleaving (h.leaving hleaving)
    · next hleaving =>
      have hopen : Open s := ⟨by simpa using hleaving, .inl (by simp [heq])⟩
      split
      · refine ⟨fun _ => ⟨hopen, ?_⟩, fun hpresent => .inr ⟨hpresent, ?_⟩⟩
        · simp [RoomSession.due, heq, startClient, RoomSession.minEpoch, ClientView.new]
        · rw [epochNow_none htransfer.1 htransfer.2.1]
          simp [startClient, epochNow, htransfer.2.1, clientEpoch, ClientView.new]
      · refine rises_of_closed rfl fun hopen' => ?_
        simp [Open, RoomSession.roomEnded, htransfer.1, htransfer.2.1] at hopen'
  · exact Rises.refl

/-- The survivor has joined the new host. -/
theorem rises_transferJoined (h : Shape s) {welcome : Welcome} :
    Rises s (s.step (.transferJoined welcome)).1 := by
  have htransfer := h.transfer
  simp only [step, transferJoined]
  split
  · next client heq =>
    split
    · exact rises_transferFailed h _
    · next hstale =>
      rw [heq] at htransfer
      have hdue : s.due ≤ welcome.epoch := by
        simp only [RoomSession.due, heq]
        apply Nat.le_of_not_lt
        simpa only [RoomSession.stale, RoomSession.minEpoch, decide_eq_true_eq] using hstale
      have hepoch := fill_clientEpoch (s := s) welcome (h.client client htransfer.1)
      have hopen : s.leaving = false → Open s := fun hno => ⟨hno, .inl (by simp [heq])⟩
      have hnow : { s.fill client welcome with
          transfer := some (.connected client welcome.roomParams) }.epochNow = welcome.epoch := by
        refine Eq.trans ?_ hepoch
        simp [epochNow, fill, htransfer.1, htransfer.2.1, clientEpoch]
      refine ⟨fun hopen' => ⟨hopen hopen'.1, ?_⟩, fun hpresent => .inl ⟨hopen ?_, ?_⟩⟩
      · exact Nat.le_trans hdue (Nat.le_of_eq hepoch.symm)
      · apply Bool.eq_false_iff.mpr
        intro hleaving
        exact absurd (h.leaving hleaving) (by simp [show s.phase.present = true from hpresent])
      · rw [hnow]
        exact hdue
  · exact Rises.refl

/-- The survivor is in the room again. -/
theorem rises_transferConnected (h : Shape s) : Rises s (s.step .transferConnected).1 := by
  have htransfer := h.transfer
  simp only [step, transferConnected]
  split
  · next client roomParams heq =>
    rw [heq] at htransfer
    split
    · next hleaving => exact rises_of_leaving hleaving (h.leaving hleaving)
    · next hleaving =>
      have hopen : Open s := ⟨by simpa using hleaving, .inl (by simp [heq])⟩
      have hdue : s.due = s.clientEpoch client := by simp [RoomSession.due, heq]
      refine ⟨fun _ => ⟨hopen, ?_⟩, fun _ => .inl ⟨hopen, ?_⟩⟩
      · rw [hdue]
        simp [RoomSession.due, epochNow, htransfer.1, htransfer.2, clientEpoch]
      · rw [hdue]
        simp [epochNow, htransfer.1, htransfer.2, clientEpoch]
  · exact Rises.refl

/-- What a session that has left closes is closed. -/
theorem rises_transferClosed (h : Shape s) : Rises s (s.step .transferClosed).1 := by
  have htransfer := h.transfer
  simp only [step, transferClosed]
  split
  · next heq =>
    rw [heq] at htransfer
    exact rises_of_leaving htransfer (h.leaving htransfer)
  · next heq =>
    rw [heq] at htransfer
    exact rises_of_leaving htransfer (h.leaving htransfer)
  · exact Rises.refl

theorem rises_ofTransfer (h : Shape s) (he : e.ofTransfer = true) : Rises s (s.step e).1 := by
  cases e with
  | transferOpened => exact rises_transferOpened h
  | transferListening => exact rises_transferListening h
  | transferClaimed claimed => exact rises_transferClaimed h
  | transferJoined welcome => exact rises_transferJoined h
  | transferConnected => exact rises_transferConnected h
  | transferFailed message => exact rises_transferFailed h message
  | transferClosed => exact rises_transferClosed h
  | _ => cases he

/-- A change of host that begins in the room begins in epoch 0, and leads upwards. -/
theorem rises_onHostTransfer (h : Shape s) {client epoch : ℕ} {successorPeerId : String}
    (honest : Honest s (.client client (.hostTransfer successorPeerId epoch)))
    (hzero : FromEpochZero s (.client client (.hostTransfer successorPeerId epoch))) :
    Rises s (s.onHostTransfer successorPeerId epoch).1 := by
  unfold onHostTransfer
  split
  · exact Rises.refl
  · next hfree =>
    simp only [Bool.or_eq_true, not_or, Bool.not_eq_true] at hfree
    obtain ⟨hclient, hepoch⟩ := honest hfree.1 hfree.2
    have hserver := h.apart client hclient
    have hopen : Open s := ⟨hfree.1, .inr (.inl (by simp [hclient]))⟩
    have hdue : s.due = s.clientEpoch client := by
      simp [RoomSession.due, h.idle hfree.2, epochNow, hserver, hclient]
    have hup : s.due ≤ epoch := by omega
    have hdown : s.phase.present = true → s.due = 0 := by
      intro hpresent
      rw [hdue]
      refine hzero hfree.1 hfree.2 ?_
      cases hphase : s.phase with
      | inRoom => rfl
      | hosting => exact absurd hserver (h.hosting hphase)
      | _ =>
        rw [hphase] at hpresent
        cases hpresent
    have hnow : s.phase.present = true → ∀ m, s.due ≤ m := by
      intro hpresent m
      rw [hdown hpresent]
      exact Nat.zero_le m
    split
    · exact ⟨fun _ => ⟨hopen, hup⟩, fun hpresent => .inl ⟨hopen, hnow hpresent _⟩⟩
    · unfold rehome
      dsimp only
      split
      · exact ⟨fun _ => ⟨hopen, hup⟩, fun hpresent => .inl ⟨hopen, hnow hpresent _⟩⟩
      · refine rises_of_closed rfl fun hopen' => ?_
        simp [Open, RoomSession.roomEnded, hserver] at hopen'

/-- What is shown is not above what is to come. -/
theorem epochNow_le_due (h : Shape s) : s.epochNow ≤ s.due := by
  have htransfer := h.transfer
  unfold RoomSession.due
  split
  · next heq =>
    rw [heq] at htransfer
    rw [epochNow_none htransfer.1 htransfer.2]
    exact Nat.zero_le _
  · next heq =>
    rw [heq] at htransfer
    rw [epochNow_none htransfer.1 htransfer.2.1]
    exact Nat.zero_le _
  · next heq =>
    rw [heq] at htransfer
    rw [epochNow_none htransfer.1 htransfer.2.1]
    exact Nat.zero_le _
  · next heq =>
    rw [heq] at htransfer
    simp [epochNow, htransfer.1, htransfer.2.1, htransfer.2.2]
  · next heq =>
    rw [heq] at htransfer
    simp [epochNow, htransfer.1, htransfer.2]
  · exact Nat.le_refl _

theorem rises_step (h : Shape s) (hentry : s.entry = .done)
    (henabled : s.enabled e) (honest : Honest s e) (hzero : FromEpochZero s e) :
    Rises s (s.step e).1 := by
  obtain hofEntry | htransfer | ⟨client, successorPeerId, epoch, rfl⟩ | hstill := step_cases s e
  · rw [step_ofEntry hentry henabled hofEntry]
    exact Rises.refl
  · exact rises_ofTransfer h htransfer
  · exact rises_onHostTransfer h honest hzero
  · exact hstill.rises

/-! ### Runs -/

/-- What a run of honest parties keeps. -/
structure Standing (past : List ℕ) (s : RoomSession) : Prop where
  shape : Shape s
  arriving : Arriving s
  told : Told past s

theorem standing_begin : Standing [] .begin :=
  ⟨shape_begin, arriving_begin, fun _ => rfl, by simp, by simp, fun h => by cases h⟩

/-- **One step**: what it shows is not under what has been shown. -/
theorem standing_next (h : Standing past s) (henabled : session.enabled s e) (honest : Honest s e)
    (hzero : FromEpochZero s e) : Standing (past ++ seen (session.out s e)) (session.next s e) ∧
      ∀ n ∈ past, ∀ m ∈ seen (session.out s e), n ≤ m := by
  have hshape := shape_next h.shape h.arriving henabled honest
  have harriving := arriving_next h.arriving henabled
  have hshows := shows_step h.shape h.arriving henabled
  change Shows s (session.next s e) (session.out s e) at hshows
  have hearly : (session.next s e).entry ≠ .done → past = [] ∧ seen (session.out s e) = [] := by
    intro hnew
    refine ⟨h.told.early fun hdone => hnew (done_next hdone henabled), hshows.absent ?_⟩
    apply Bool.eq_false_iff.mpr
    intro hpresent
    exact hnew (entered_of_present harriving hpresent)
  have hrises : past = [] ∨ Rises s (session.next s e) := by
    by_cases hentry : s.entry = .done
    · exact .inr (rises_step h.shape hentry henabled honest hzero)
    · exact .inl (h.told.early hentry)
  have hnow : (session.next s e).phase.present = true →
      ∀ n ∈ past, n ≤ (session.next s e).epochNow := by
    intro hpresent n hn
    obtain hnil | hrises := hrises
    · rw [hnil] at hn
      cases hn
    · obtain ⟨hopen, hle⟩ | ⟨hold, hsame⟩ := hrises.now hpresent
      · exact Nat.le_trans (h.told.due hopen n hn) hle
      · rw [hsame]
        exact h.told.now hold n hn
  have hdue : Open (session.next s e) → ∀ n ∈ past, n ≤ (session.next s e).due := by
    intro hopen n hn
    obtain hnil | hrises := hrises
    · rw [hnil] at hn
      cases hn
    · obtain ⟨hold, hle⟩ := hrises.due hopen
      exact Nat.le_trans (h.told.due hold n hn) hle
  refine ⟨⟨hshape, harriving, ?_, ?_, ?_, ?_⟩, ?_⟩
  · intro hnew
    rw [(hearly hnew).1, (hearly hnew).2]
    rfl
  · intro hpresent n hn
    obtain hold | hnew := List.mem_append.mp hn
    · exact hnow hpresent n hold
    · exact Nat.le_of_eq (hshows.only n hnew)
  · intro hopen n hn
    obtain hold | hnew := List.mem_append.mp hn
    · exact hdue hopen n hold
    · rw [hshows.only n hnew]
      exact epochNow_le_due hshape
  · intro hpresent
    obtain hnew | ⟨hold, hsame⟩ := hshows.news hpresent
    · exact List.mem_append_right _ hnew
    · rw [hsame]
      exact List.mem_append_left _ (h.told.said hold)
  · intro n hn m hm
    rw [hshows.only m hm]
    refine hnow ?_ n hn
    apply Bool.eq_true_of_not_eq_false
    intro habsent
    rw [hshows.absent habsent] at hm
    cases hm

/-- **The converse**: a change of host that begins in the room in a later epoch shows epoch 0. -/
theorem shows_back (h : Standing past s) {client epoch : ℕ} {successorPeerId : String}
    (honest : Honest s (.client client (.hostTransfer successorPeerId epoch)))
    (hzero : ¬ FromEpochZero s (.client client (.hostTransfer successorPeerId epoch))) :
    ∃ n ∈ past, ∃ m ∈ seen (s.onHostTransfer successorPeerId epoch).2, m < n := by
  simp only [FromEpochZero, Classical.not_imp] at hzero
  obtain ⟨hleaving, htransferring, hphase, hepoch⟩ := hzero
  obtain ⟨hclient, -⟩ := honest hleaving htransferring
  have hserver := h.shape.apart client hclient
  have hlink := h.shape.link client hclient
  have hnow : s.epochNow = s.clientEpoch client := by simp [epochNow, hserver, hclient]
  have hshows := shows_onHostTransfer (s := s) successorPeerId epoch
  have hnext : (s.onHostTransfer successorPeerId epoch).1.phase = .inRoom ∧
      (s.onHostTransfer successorPeerId epoch).1.epochNow = 0 := by
    unfold onHostTransfer
    rw [if_neg (by simp [hleaving, htransferring])]
    split
    · exact ⟨hphase, epochNow_none rfl hserver⟩
    · simp only [rehome, hlink, if_pos]
      exact ⟨hphase, epochNow_none rfl hserver⟩
  refine ⟨s.epochNow, h.told.said (by rw [hphase]; rfl), 0, ?_, ?_⟩
  · obtain hnew | ⟨-, hsame⟩ := hshows.news (by rw [hnext.1]; rfl)
    · rwa [hnext.2] at hnew
    · rw [hnext.2, hnow] at hsame
      exact absurd hsame.symm hepoch
  · rw [hnow]
    exact Nat.pos_of_ne_zero hepoch

theorem out_shows_back (h : Standing past s) (honest : Honest s e) (hzero : ¬ FromEpochZero s e) :
    ∃ n ∈ past, ∃ m ∈ seen (session.out s e), m < n := by
  cases e with
  | client client event =>
    cases event with
    | hostTransfer successorPeerId epoch => exact shows_back h honest hzero
    | _ => exact absurd trivial hzero
  | _ => exact absurd trivial hzero

theorem neverBack_iff {es : List SessionEvent} : ∀ {s past}, Standing past s →
    past.Pairwise (· ≤ ·) → session.Along session.enabled s es → session.Along Honest s es →
    ((past ++ seen (session.trace s es)).Pairwise (· ≤ ·) ↔ session.Along FromEpochZero s es) := by
  induction es with
  | nil =>
    intro s past h hpast _ _
    simpa [seen, Machine.trace] using hpast
  | cons e es ih =>
    intro s past h hpast hvalid hhonest
    have htrace : past ++ seen (session.trace s (e :: es)) =
        (past ++ seen (session.out s e)) ++ seen (session.trace (session.next s e) es) := by
      rw [Machine.trace, seen_append, List.append_assoc]
    rw [htrace, Machine.along_cons]
    by_cases hzero : FromEpochZero s e
    · obtain ⟨hnext, hle⟩ := standing_next h hvalid.1 hhonest.1 hzero
      have hpast' : (past ++ seen (session.out s e)).Pairwise (· ≤ ·) := by
        refine List.pairwise_append.mpr ⟨hpast, ?_, hle⟩
        have hshows := shows_step h.shape h.arriving hvalid.1
        refine List.pairwise_of_forall_mem_list fun a ha b hb => ?_
        rw [hshows.only a ha, hshows.only b hb]
      rw [ih hnext hpast' hvalid.2 hhonest.2]
      exact ⟨fun h => ⟨hzero, h⟩, fun h => h.2⟩
    · obtain ⟨n, hn, m, hm, hlt⟩ := out_shows_back h hhonest.1 hzero
      refine ⟨fun hpairwise => ?_, fun hall => absurd hall.1 hzero⟩
      have hback := (List.pairwise_append.mp (List.pairwise_append.mp hpairwise).1).2.2 n hn m hm
      omega

/-- **When the epochs shown in the room never go back**: among honest parties, exactly when every
change of host that a session acts on in the phase `in-room` begins in epoch 0. -/
theorem epochs_nondecreasing_iff {es : List SessionEvent} (h : session.Valid .begin es)
    (honest : session.Along Honest .begin es) :
    NeverBack .begin es ↔ session.Along FromEpochZero .begin es := by
  have hiff := neverBack_iff standing_begin List.Pairwise.nil h honest
  rwa [List.nil_append] at hiff

/-! ### The second change of host -/

instance (s : RoomSession) (e : SessionEvent) : Decidable (Honest s e) := by
  unfold Honest
  split <;> infer_instance

instance (s : RoomSession) (es : List SessionEvent) : Decidable (NeverBack s es) :=
  inferInstanceAs (Decidable (List.Pairwise _ _))

/-- A peer survives one change of host, and hears of a second. -/
def survivesTwice : List SessionEvent :=
  [.enter ⟨"ana", none, none, none⟩, .entryOpened "p_00000000",
    .entryJoined ⟨"p_00000001", 0, defaultRoomParams, [], []⟩, .entryConnected,
    .client 0 (.hostTransfer "p_00000002" 1), .transferClaimed true,
    .transferJoined ⟨"p_00000003", 1, defaultRoomParams, [], []⟩, .transferConnected,
    .client 1 (.hostTransfer "p_00000004" 2)]

theorem survivesTwice_goes_back : session.Valid .begin survivesTwice ∧
    session.Along Honest .begin survivesTwice ∧ ¬ NeverBack .begin survivesTwice := by decide

theorem epochs_nondecreasing_iff_survivesTwice : session.Valid .begin survivesTwice ∧
    session.Along Honest .begin survivesTwice ∧
    (NeverBack .begin survivesTwice ↔ session.Along FromEpochZero .begin survivesTwice) :=
  ⟨by decide, by decide, epochs_nondecreasing_iff (by decide) (by decide)⟩

end ScreenSharing.App
