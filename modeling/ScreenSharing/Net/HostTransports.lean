import Mathlib.Logic.Function.Basic
import ScreenSharing.Lib.Machine
import ScreenSharing.Net.HostLink
import ScreenSharing.Net.RelayWire

/-!
# The virtual transports of a host, with their handlers

`HostTransports` has the fields of `RelayHostLink` that `HostLink` leaves out, and a `VirtualTransport` for
every number that `HostLink` gives.  The consumer registers its message handler and its close handler as soon
as the link hands it a transport.

PEER_UP is buffered until `onConnection` is called.  DATA_H and PEER_DOWN are not: before the handlers are
registered they go to a transport that has none.  `sameView_iff_undisturbed` says for which frames it does
not matter when the consumer attaches.
-/

namespace ScreenSharing.Net

open Lib hiding Bytes readUInt32BE
open Relay hiding readUInt32BE

/-- The fields of the `VirtualTransport` class; the last two say which handlers are set. -/
structure VirtualTransport where
  closed : Bool
  onMessage : Bool
  onClose : Bool
  deriving DecidableEq

def VirtualTransport.new : VirtualTransport := ⟨false, false, false⟩

/-- The fields of the `RelayHostLink` class.  The numbers that the link has not given yet have a new
transport. -/
structure HostTransports where
  link : HostLink
  transport : ℕ → VirtualTransport
  closed : Bool
  /-- is the WebSocket in the state OPEN? -/
  wsOpen : Bool
  keepalive : Bool
  onClosed : Bool

namespace HostTransports

inductive Event
  | frame (frame : Frame)
  /-- the `close` event of the WebSocket -/
  | wsClosed
  | onConnection
  | onClosed
  | send (vt : ℕ) (isBinary : Bool) (payload : Bytes)
  | close (vt : ℕ)
  /-- `close` of the link -/
  | closeLink
  | handoff
  /-- the keepalive interval -/
  | tick
  deriving DecidableEq

inductive Output
  | connection (vt : ℕ)
  | message (vt : ℕ) (isBinary : Bool) (payload : Bytes)
  | close (vt : ℕ) (code : ℕ) (reason : String)
  /-- a frame for the relay, and which transport sends it, if one does -/
  | sent (vt : Option ℕ) (data : Bytes)
  | wsClose
  | closed (reason : String)
  | thrown (fault : Fault)
  deriving DecidableEq

/-- A link that `open` has returned. -/
def opened (hostToken : String) : HostTransports :=
  ⟨HostLink.new.answer (.ready hostToken), fun _ => .new, false, true, true, false⟩

variable (H : HostTransports)

def setTransport (vt : ℕ) (t : VirtualTransport) : HostTransports :=
  { H with transport := Function.update H.transport vt t }

/-- The consumer is given a transport. -/
def accept (vt : ℕ) : HostTransports × List Output :=
  (H.setTransport vt { H.transport vt with onMessage := true, onClose := true }, [.connection vt])

/-- `_deliver`. -/
def deliver (vt : ℕ) (isBinary : Bool) (payload : Bytes) : List Output :=
  if (H.transport vt).onMessage then [.message vt isBinary payload] else []

/-- The transport `vt` closes. -/
def ended (vt : ℕ) (code : ℕ) (reason : String) : HostTransports × List Output :=
  (H.setTransport vt { H.transport vt with closed := true },
    if (H.transport vt).onClose then [.close vt code reason] else [])

/-- `_dropped`. -/
def dropped (reason : String) (vt : ℕ) : HostTransports × List Output :=
  if (H.transport vt).closed then (H, []) else H.ended vt 1001 reason

/-- The link calls the consumer, or a transport. -/
def call : Callback → HostTransports × List Output
  | .connection vt => H.accept vt
  | .message vt isBinary payload => (H, H.deliver vt isBinary payload)
  | .dropped vt => H.dropped "peer left" vt

/-- A loop. -/
def forEach {α : Type} (body : HostTransports → α → HostTransports × List Output) :
    List α → HostTransports → HostTransports × List Output
  | [], H => (H, [])
  | a :: as, H =>
    let (H', out) := body H a
    let (H'', out') := forEach body as H'
    (H'', out ++ out')

/-- The message handler. -/
def onFrame (frame : Frame) : HostTransports × List Output :=
  forEach call (H.link.onFrame frame).2 { H with link := (H.link.onFrame frame).1 }

/-- The method `onConnection`. -/
def listen : HostTransports × List Output :=
  forEach call H.link.onConnection.2 { H with link := H.link.onConnection.1 }

/-- `#tearDown`. -/
def tearDown (reason : String) : HostTransports × List Output :=
  if H.closed then (H, [])
  else
    let (H', out) :=
      forEach (fun H vt => H.dropped reason vt) H.link.peers.values
        { H with closed := true, keepalive := false }
    ({ H' with link := { H'.link with peers := .empty } },
      out ++ if H.onClosed then [.closed reason] else [])

/-- What the WebSocket sends. -/
def write (vt : Option ℕ) (data : Except Fault Bytes) : List Output :=
  if H.wsOpen then
    match data with
    | .ok data => [.sent vt data]
    | .error fault => [.thrown fault]
  else []

/-- `VirtualTransport.send`. -/
def send (vt : ℕ) (isBinary : Bool) (payload : Bytes) : List Output :=
  if (H.transport vt).closed then []
  else
    match H.link.made[vt]? with
    | none => []
    | some connId => H.write (some vt) (encodeDataH connId isBinary payload)

/-- `VirtualTransport.close`.  A connId that cannot be written is thrown out of `_kick`. -/
def shut (vt : ℕ) : HostTransports × List Output :=
  if (H.transport vt).closed then (H, [])
  else
    match H.link.made[vt]? with
    | none => (H, [])
    | some connId =>
      match H.wsOpen, encodeKick connId with
      | true, .error fault =>
        (H.setTransport vt { H.transport vt with closed := true }, [.thrown fault])
      | _, kick =>
        let (H', out) := { H with link := H.link.kick vt }.ended vt 1000 "closed by host"
        (H', H.write (some vt) kick ++ out)

/-- `RelayHostLink.close`. -/
def closeLink : HostTransports × List Output :=
  if H.closed then (H, [])
  else ({ H with closed := true, keepalive := false, wsOpen := false },
    if H.wsOpen then [.wsClose] else [])

def react : Event → HostTransports × List Output
  | .frame frame => H.onFrame frame
  | .wsClosed => { H with wsOpen := false }.tearDown "relay link closed"
  | .onConnection => H.listen
  | .onClosed => ({ H with onClosed := true }, [])
  | .send vt isBinary payload => (H, H.send vt isBinary payload)
  | .close vt => H.shut vt
  | .closeLink => H.closeLink
  | .handoff => (H, H.write none (.ok encodeHandoff))
  | .tick => (H, if H.keepalive then H.write none (.ok encodePing) else [])

def machine : Machine HostTransports Event Output := ⟨fun _ _ => True, react⟩

/-! ### What one frame does -/

@[simp] theorem forEach_nil {α : Type} (body : HostTransports → α → HostTransports × List Output) :
    forEach body [] H = (H, []) := rfl

@[simp] theorem forEach_singleton {α : Type} (body : HostTransports → α → HostTransports × List Output)
    (a : α) : forEach body [a] H = body H a := by
  simp [forEach]

/-- A transport in the map of the link is open, and the numbers that the link has not given have a new
transport. -/
structure Tidy : Prop where
  made : ∀ connId vt, H.link.peers.get connId = some vt → H.link.made[vt]? = some connId
  opens : ∀ connId vt, H.link.peers.get connId = some vt → (H.transport vt).closed = false
  fresh : ∀ vt, H.link.made.length ≤ vt → H.transport vt = .new

/-- The consumer has not attached. -/
structure Unattached : Prop extends Tidy H where
  listening : H.link.listening = false
  pending : H.link.pendingPeers = List.range H.link.made.length
  deaf : ∀ vt, (H.transport vt).onMessage = false ∧ (H.transport vt).onClose = false

/-- The state that the consumer finds when it has attached. -/
def attached : HostTransports :=
  { H with
    link := { H.link with listening := true, pendingPeers := [] }
    transport := fun vt =>
      if vt < H.link.made.length then { H.transport vt with onMessage := true, onClose := true }
      else H.transport vt }

/-- What a consumer that has attached observes of a frame. -/
def observed : Frame → List Output
  | .peerUp _ => [.connection H.link.made.length]
  | .peerDown connId =>
    match H.link.peers.get connId with
    | none => []
    | some vt => [.close vt 1001 "peer left"]
  | .dataToHost connId isBinary payload =>
    match H.link.peers.get connId with
    | none => []
    | some vt => [.message vt isBinary payload]
  | _ => []

variable {H}

theorem unattached_opened (hostToken : String) : Unattached (opened hostToken) where
  made connId vt hget := by cases hget
  opens connId vt hget := by cases hget
  fresh _ _ := rfl
  listening := rfl
  pending := rfl
  deaf _ := ⟨rfl, rfl⟩

/-- The consumer is given some transports. -/
theorem forEach_accept (vts : List ℕ) : ∀ H : HostTransports,
    forEach call (vts.map .connection) H =
      ({ H with
          transport := fun vt =>
            if vt ∈ vts then { H.transport vt with onMessage := true, onClose := true }
            else H.transport vt }, vts.map .connection) := by
  induction vts with
  | nil => intro H; simp
  | cons vt vts ih =>
    intro H
    have hstep : forEach call ((vt :: vts).map .connection) H =
        ((forEach call (vts.map .connection) (H.accept vt).1).1,
          .connection vt :: (forEach call (vts.map .connection) (H.accept vt).1).2) := rfl
    rw [hstep, ih]
    refine Prod.ext ?_ rfl
    simp only [accept, setTransport, mk.injEq, true_and, and_true]
    funext vt'
    by_cases hvt : vt' = vt
    · subst hvt
      simp
    · simp [hvt]

/-- **`onConnection`** hands all transports to the consumer. -/
theorem listen_of_unattached (h : Unattached H) :
    H.listen = (H.attached, (List.range H.link.made.length).map .connection) := by
  have hlisten : H.listen = forEach call ((List.range H.link.made.length).map .connection)
      { H with link := { H.link with listening := true, pendingPeers := [] } } := by
    rw [← h.pending]
    rfl
  rw [hlisten, forEach_accept]
  simp [attached]

/-- The link forgets a connId. -/
def forget (H : HostTransports) (connId : ℕ) : HostTransports :=
  { H with link := { H.link with peers := H.link.peers.delete connId } }

theorem link_call (H : HostTransports) (callback : Callback) : (H.call callback).1.link = H.link := by
  cases callback with
  | connection vt => rfl
  | message vt isBinary payload => rfl
  | dropped vt =>
    simp only [call, dropped]
    split <;> rfl

theorem link_forEach_call (callbacks : List Callback) : ∀ H : HostTransports,
    (forEach call callbacks H).1.link = H.link := by
  induction callbacks with
  | nil => exact fun _ => rfl
  | cons callback callbacks ih => exact fun H => (ih _).trans (link_call H callback)

/-- **Frames** change the link as `HostLink` says. -/
theorem link_onFrame (H : HostTransports) (frame : Frame) :
    (H.onFrame frame).1.link = (H.link.onFrame frame).1 := link_forEach_call _ _

theorem onFrame_peerUp_of_listening (h : H.link.listening = true) (connId : ℕ) :
    H.onFrame (.peerUp connId) =
      { H with
        link :=
          { H.link with
            made := H.link.made ++ [connId]
            peers := H.link.peers.set connId H.link.made.length } }.accept H.link.made.length := by
  simp [onFrame, HostLink.onFrame, HostLink.peerUp, h, call]

theorem onFrame_peerUp_of_not_listening (h : H.link.listening = false) (connId : ℕ) :
    H.onFrame (.peerUp connId) =
      ({ H with
        link :=
          { H.link with
            made := H.link.made ++ [connId]
            peers := H.link.peers.set connId H.link.made.length
            pendingPeers := H.link.pendingPeers ++ [H.link.made.length] } }, []) := by
  simp [onFrame, HostLink.onFrame, HostLink.peerUp, h]

theorem onFrame_peerDown_none {connId : ℕ} (h : H.link.peers.get connId = none) :
    H.onFrame (.peerDown connId) = (H.forget connId, []) := by
  simp [onFrame, HostLink.onFrame, h, forget]

theorem onFrame_peerDown_some {connId vt : ℕ} (h : H.link.peers.get connId = some vt) :
    H.onFrame (.peerDown connId) = (H.forget connId).dropped "peer left" vt := by
  simp [onFrame, HostLink.onFrame, h, forget, call]

theorem onFrame_data_none {connId : ℕ} (h : H.link.peers.get connId = none) (isBinary : Bool)
    (payload : Bytes) : H.onFrame (.dataToHost connId isBinary payload) = (H, []) := by
  simp [onFrame, HostLink.onFrame, h]

theorem onFrame_data_some {connId vt : ℕ} (h : H.link.peers.get connId = some vt) (isBinary : Bool)
    (payload : Bytes) :
    H.onFrame (.dataToHost connId isBinary payload) = (H, H.deliver vt isBinary payload) := by
  simp [onFrame, HostLink.onFrame, h, call]

/-! ### Before the consumer attaches -/

/-- A transport is made and buffered. -/
theorem unattached_peerUp (h : Unattached H) (connId : ℕ) :
    Unattached { H with
      link :=
        { H.link with
          made := H.link.made ++ [connId]
          peers := H.link.peers.set connId H.link.made.length
          pendingPeers := H.link.pendingPeers ++ [H.link.made.length] } } := by
  refine ⟨⟨?_, ?_, ?_⟩, h.listening, ?_, h.deaf⟩
  · intro c vt hget
    rw [InsertionMap.get_set] at hget
    split at hget
    · cases hget
      subst_vars
      simp
    · have hmade := h.made c vt hget
      have hlt : vt < H.link.made.length := (List.getElem?_eq_some_iff.1 hmade).1
      exact (List.getElem?_append_left hlt).trans hmade
  · intro c vt hget
    rw [InsertionMap.get_set] at hget
    split at hget
    · cases hget
      exact congrArg VirtualTransport.closed (h.fresh _ (Nat.le_refl _))
    · exact h.opens c vt hget
  · intro vt hle
    refine h.fresh vt ?_
    rw [List.length_append] at hle
    omega
  · dsimp only
    rw [h.pending, List.length_append, List.length_singleton, List.range_succ]

theorem unattached_forget (h : Unattached H) (connId : ℕ) : Unattached (H.forget connId) where
  made c vt hget := h.made c vt (InsertionMap.get_of_get_delete hget).1
  opens c vt hget := h.opens c vt (InsertionMap.get_of_get_delete hget).1
  fresh := h.fresh
  listening := h.listening
  pending := h.pending
  deaf := h.deaf

/-- The transport of a connId that the link forgets is closed. -/
theorem unattached_closed (h : Unattached H) {connId vt : ℕ} (hget : H.link.peers.get connId = some vt) :
    Unattached ((H.forget connId).setTransport vt { H.transport vt with closed := true }) := by
  have hforget := unattached_forget h connId
  have hmade := h.made connId vt hget
  have hother : ∀ vt', vt' ≠ vt →
      ((H.forget connId).setTransport vt { H.transport vt with closed := true }).transport vt' =
        H.transport vt' := fun vt' hne => Function.update_of_ne hne _ _
  refine ⟨⟨hforget.made, ?_, ?_⟩, h.listening, h.pending, ?_⟩
  · -- no other connId has this transport
    intro c vt' hget'
    have hne : vt' ≠ vt := by
      intro heq
      have hmade' := hforget.made c vt' hget'
      rw [heq] at hmade'
      exact (InsertionMap.get_of_get_delete hget').2 (Option.some.inj (hmade'.symm.trans hmade))
    rw [hother vt' hne]
    exact hforget.opens c vt' hget'
  · intro vt' hle
    have hlt : vt < H.link.made.length := (List.getElem?_eq_some_iff.1 hmade).1
    have hne : vt' ≠ vt := by
      intro heq
      rw [heq] at hle
      exact absurd hlt (Nat.not_lt.2 hle)
    exact (hother vt' hne).trans (h.fresh vt' hle)
  · intro vt'
    by_cases hvt : vt' = vt
    · subst hvt
      simpa [setTransport] using h.deaf vt'
    · rw [hother vt' hvt]
      exact h.deaf vt'

/-- **Before the consumer attaches** a frame is not observed; the state is what it would be if the consumer
had attached before, but for the attachment. -/
theorem onFrame_unattached (h : Unattached H) (frame : Frame) :
    Unattached (H.onFrame frame).1 ∧ (H.onFrame frame).2 = [] ∧
      H.attached.onFrame frame = ((H.onFrame frame).1.attached, H.observed frame) := by
  have hanswer : ∀ opening, Unattached { H with link := H.link.answer opening } ∧
      { H.attached with link := H.attached.link.answer opening } =
        { H with link := H.link.answer opening }.attached := by
    intro opening
    unfold HostLink.answer attached
    dsimp only
    split
    · exact ⟨⟨⟨h.made, h.opens, h.fresh⟩, h.listening, h.pending, h.deaf⟩, rfl⟩
    · exact ⟨h, rfl⟩
  cases frame with
  | ready connId hostToken =>
    obtain ⟨hun, heq⟩ := hanswer (.ready (hostToken.getD ""))
    exact ⟨hun, rfl, Prod.ext heq rfl⟩
  | reject reason =>
    obtain ⟨hun, heq⟩ := hanswer (.rejected reason)
    exact ⟨hun, rfl, Prod.ext heq rfl⟩
  | peerUp connId =>
    rw [onFrame_peerUp_of_not_listening h.listening, onFrame_peerUp_of_listening rfl]
    refine ⟨unattached_peerUp h connId, rfl, Prod.ext ?_ rfl⟩
    simp only [accept, setTransport, attached, mk.injEq, true_and, and_true]
    funext vt
    by_cases hvt : vt = H.link.made.length
    · subst hvt
      simp
    · have hiff : vt < H.link.made.length ↔ vt < H.link.made.length + 1 := by omega
      simp [hvt, hiff]
  | peerDown connId =>
    cases hget : H.link.peers.get connId with
    | none =>
      rw [onFrame_peerDown_none hget, onFrame_peerDown_none (H := H.attached) hget]
      exact ⟨unattached_forget h connId, rfl, by simp only [observed, hget]; rfl⟩
    | some vt =>
      have hlt : vt < H.link.made.length := (List.getElem?_eq_some_iff.1 (h.made connId vt hget)).1
      have hopen : (H.transport vt).closed = false := h.opens connId vt hget
      have hdropped : (H.forget connId).dropped "peer left" vt =
          ((H.forget connId).setTransport vt { H.transport vt with closed := true }, []) := by
        simp [dropped, ended, forget, hopen, (h.deaf vt).2]
      rw [onFrame_peerDown_some hget, onFrame_peerDown_some (H := H.attached) hget, hdropped]
      refine ⟨unattached_closed h hget, rfl, Prod.ext ?_ ?_⟩
      · simp only [dropped, ended, forget, attached, hlt, hopen, setTransport, if_true,
          Bool.false_eq_true, if_false, mk.injEq, true_and, and_true]
        funext vt'
        by_cases hvt : vt' = vt
        · subst hvt
          simp [hlt]
        · simp [hvt]
      · simp [dropped, ended, forget, attached, hlt, hopen, observed, hget]
  | dataToHost connId isBinary payload =>
    cases hget : H.link.peers.get connId with
    | none =>
      rw [onFrame_data_none hget, onFrame_data_none (H := H.attached) hget]
      exact ⟨h, rfl, by simp only [observed, hget]⟩
    | some vt =>
      have hlt : vt < H.link.made.length := (List.getElem?_eq_some_iff.1 (h.made connId vt hget)).1
      rw [onFrame_data_some hget, onFrame_data_some (H := H.attached) hget]
      exact ⟨h, by simp [deliver, (h.deaf vt).1], by simp [deliver, observed, hget, attached, hlt]⟩
  | _ => exact ⟨h, rfl, rfl⟩

/-! ### What the consumer sees -/

/-- The transport that an observation of the consumer is about. -/
def Output.transport : Output → Option ℕ
  | .connection vt | .message vt _ _ | .close vt _ _ => some vt
  | _ => none

/-- The connection, the messages and the close of one peer. -/
def seen (vt : ℕ) (out : List Output) : List Output := out.filter fun o => o.transport = some vt

/-- The peers that are handed over. -/
def handed (out : List Output) : List ℕ :=
  out.filterMap fun o =>
    match o with
    | .connection vt => some vt
    | _ => none

/-- The consumer observes the same of each peer, and is given the peers in the same order. -/
structure SameView (out out' : List Output) : Prop where
  peer : ∀ vt, seen vt out = seen vt out'
  order : handed out = handed out'

/-- The connId of a peer that sends something, or leaves. -/
def sender : Frame → Option ℕ
  | .dataToHost connId _ _ => some connId
  | .peerDown connId => some connId
  | _ => none

/-- The connIds that are up after a frame. -/
def upAfter (up : List ℕ) : Frame → List ℕ
  | .peerUp connId => connId :: up
  | .peerDown connId => up.filter fun c => c ≠ connId
  | _ => up

/-- No peer that is up sends anything, and none leaves; `up` are the connIds that are up before. -/
def Undisturbed : List ℕ → List Frame → Prop
  | _, [] => True
  | up, frame :: frames =>
    (∀ connId ∈ sender frame, connId ∉ up) ∧ Undisturbed (upAfter up frame) frames

instance decidableUndisturbed : ∀ up frames, Decidable (Undisturbed up frames)
  | _, [] => isTrue trivial
  | up, frame :: frames =>
    have := decidableUndisturbed (upAfter up frame) frames
    inferInstanceAs (Decidable ((∀ connId ∈ sender frame, connId ∉ up) ∧ _))

theorem seen_append (vt : ℕ) (out out' : List Output) :
    seen vt (out ++ out') = seen vt out ++ seen vt out' := List.filter_append ..

theorem handed_append (out out' : List Output) : handed (out ++ out') = handed out ++ handed out' :=
  List.filterMap_append

/-- The connIds that are up are the ones in the map of the link. -/
def Knows (H : HostTransports) (up : List ℕ) : Prop :=
  ∀ connId, connId ∈ up ↔ ∃ vt, H.link.peers.get connId = some vt

theorem knows_onFrame {up : List ℕ} (hup : H.Knows up) (frame : Frame) :
    (H.onFrame frame).1.Knows (upAfter up frame) := by
  intro c
  rw [link_onFrame]
  cases frame with
  | ready connId hostToken =>
    simp only [HostLink.onFrame, HostLink.peers_answer]
    exact hup c
  | reject reason =>
    simp only [HostLink.onFrame, HostLink.peers_answer]
    exact hup c
  | peerUp connId =>
    have hpeers : (H.link.onFrame (.peerUp connId)).1.peers =
        H.link.peers.set connId H.link.made.length := by
      simp only [HostLink.onFrame, HostLink.peerUp]
      split <;> rfl
    rw [hpeers]
    by_cases hc : c = connId
    · simp [upAfter, hc]
    · simp [upAfter, hc, InsertionMap.get_set_ne, hup c]
  | peerDown connId =>
    by_cases hc : c = connId
    · simp [hc, upAfter, HostLink.onFrame]
    · simp [hc, upAfter, HostLink.onFrame, InsertionMap.get_delete_ne, hup c]
  | _ => exact hup c

/-- One frame is observed as a connection or not at all, unless its sender is up. -/
theorem observed_connection_iff {up : List ℕ} (hup : H.Knows up) (frame : Frame) :
    (∀ o ∈ H.observed frame, ∃ vt, o = .connection vt) ↔ ∀ connId ∈ sender frame, connId ∉ up := by
  cases frame with
  | peerDown connId =>
    have hknows := hup connId
    cases hget : H.link.peers.get connId <;> simp_all [observed, sender]
  | dataToHost connId isBinary payload =>
    have hknows := hup connId
    cases hget : H.link.peers.get connId <;> simp_all [observed, sender]
  | _ => simp [observed, sender]

/-- What a frame makes the consumer observe is about a transport. -/
theorem transport_of_mem_observed {frame : Frame} {o : Output} (h : o ∈ H.observed frame) :
    ∃ vt, o.transport = some vt := by
  cases frame with
  | peerUp connId =>
    rw [List.mem_singleton.1 h]
    exact ⟨_, rfl⟩
  | peerDown connId =>
    cases hget : H.link.peers.get connId <;> simp only [observed, hget] at h
    · cases h
    · rw [List.mem_singleton.1 h]
      exact ⟨_, rfl⟩
  | dataToHost connId isBinary payload =>
    cases hget : H.link.peers.get connId <;> simp only [observed, hget] at h
    · cases h
    · rw [List.mem_singleton.1 h]
      exact ⟨_, rfl⟩
  | _ => cases h

/-! ### Attaching late -/

/-- The frames that the link receives, one after the other. -/
def received (frames : List Frame) : List Event := frames.map .frame

/-- **A run before the consumer attaches** shows it nothing, and leads to the state that a consumer that has
attached before would find. -/
theorem run_unattached (frames : List Frame) : ∀ {H : HostTransports}, Unattached H →
    Unattached (machine.exec H (received frames)) ∧ machine.trace H (received frames) = [] ∧
      machine.exec H.attached (received frames) = (machine.exec H (received frames)).attached := by
  induction frames with
  | nil => exact fun h => ⟨h, rfl, rfl⟩
  | cons frame frames ih =>
    intro H h
    obtain ⟨hnext, hout, hattached⟩ := onFrame_unattached h frame
    obtain ⟨hlast, hrest, hend⟩ := ih hnext
    refine ⟨hlast, ?_, ?_⟩
    · show (H.onFrame frame).2 ++ machine.trace (H.onFrame frame).1 (received frames) = []
      rw [hout, hrest]
      rfl
    · show machine.exec (H.attached.onFrame frame).1 (received frames) = _
      rw [hattached]
      exact hend

theorem trace_attached_cons (h : Unattached H) (frame : Frame) (frames : List Frame) :
    machine.trace H.attached (received (frame :: frames)) =
      H.observed frame ++ machine.trace (H.onFrame frame).1.attached (received frames) := by
  have hattached := (onFrame_unattached h frame).2.2
  have hcons : machine.trace H.attached (received (frame :: frames)) =
      (H.attached.onFrame frame).2 ++ machine.trace (H.attached.onFrame frame).1 (received frames) := rfl
  rw [hcons, hattached]

theorem announced_cons (frame : Frame) (frames : List Frame) :
    HostLink.announced (frame :: frames) = HostLink.announced [frame] ++ HostLink.announced frames :=
  List.filterMap_append (l := [frame])

theorem made_received (frames : List Frame) : ∀ H : HostTransports,
    (machine.exec H (received frames)).link.made = H.link.made ++ HostLink.announced frames := by
  induction frames with
  | nil => exact fun H => (List.append_nil _).symm
  | cons frame frames ih =>
    intro H
    calc (machine.exec (H.onFrame frame).1 (received frames)).link.made
        = (H.onFrame frame).1.link.made ++ HostLink.announced frames := ih _
      _ = (H.link.made ++ HostLink.announced [frame]) ++ HostLink.announced frames := by
          rw [link_onFrame, HostLink.made_onFrame]
      _ = H.link.made ++ HostLink.announced (frame :: frames) := by
          rw [announced_cons frame frames, List.append_assoc]

theorem handed_observed (H : HostTransports) (frame : Frame) :
    handed (H.observed frame) =
      List.range' H.link.made.length (HostLink.announced [frame]).length := by
  cases frame with
  | peerDown connId =>
    cases hget : H.link.peers.get connId <;> simp [observed, hget, handed, HostLink.announced]
  | dataToHost connId isBinary payload =>
    cases hget : H.link.peers.get connId <;> simp [observed, hget, handed, HostLink.announced]
  | _ => rfl

/-- A consumer that has attached is handed every peer, in order. -/
theorem handed_trace_attached (frames : List Frame) : ∀ {H : HostTransports}, Unattached H →
    handed (machine.trace H.attached (received frames)) =
      List.range' H.link.made.length (HostLink.announced frames).length := by
  induction frames with
  | nil => exact fun _ => rfl
  | cons frame frames ih =>
    intro H h
    rw [trace_attached_cons h, handed_append, handed_observed, ih (onFrame_unattached h frame).1,
      link_onFrame, HostLink.made_onFrame, announced_cons frame frames, List.length_append,
      List.length_append, List.range'_append_1]

theorem transport_of_mem_trace (frames : List Frame) : ∀ {H : HostTransports}, Unattached H →
    ∀ o ∈ machine.trace H.attached (received frames), ∃ vt, o.transport = some vt := by
  induction frames with
  | nil =>
    intro H _ o ho
    cases ho
  | cons frame frames ih =>
    intro H h o ho
    rw [trace_attached_cons h] at ho
    rcases List.mem_append.1 ho with ho | ho
    · exact transport_of_mem_observed ho
    · exact ih (onFrame_unattached h frame).1 o ho

/-- It observes nothing but connections exactly if it is left undisturbed. -/
theorem connections_iff_undisturbed (frames : List Frame) : ∀ {H : HostTransports} {up : List ℕ},
    Unattached H → H.Knows up →
    ((∀ o ∈ machine.trace H.attached (received frames), ∃ vt, o = .connection vt) ↔
      Undisturbed up frames) := by
  induction frames with
  | nil =>
    intro H up _ _
    exact iff_of_true (fun o ho => by cases ho) trivial
  | cons frame frames ih =>
    intro H up h hup
    rw [trace_attached_cons h, List.forall_mem_append, observed_connection_iff hup frame,
      ih (onFrame_unattached h frame).1 (knows_onFrame hup frame)]
    rfl

/-- A list of connections is known by what is handed over. -/
theorem eq_handed_of_connections {out : List Output} (h : ∀ o ∈ out, ∃ vt, o = .connection vt) :
    out = (handed out).map .connection := by
  induction out with
  | nil => rfl
  | cons o out ih =>
    obtain ⟨vt, rfl⟩ := h o List.mem_cons_self
    have htail := ih fun o ho => h o (List.mem_cons_of_mem _ ho)
    exact congrArg (Output.connection vt :: ·) htail

/-- What is observed with the consumer attaching after `before`. -/
def view (hostToken : String) (before after : List Frame) : List Output :=
  machine.trace (opened hostToken) (received before ++ .onConnection :: received after)

theorem trace_onConnection (h : Unattached H) (es : List Event) :
    machine.trace H (.onConnection :: es) =
      (List.range H.link.made.length).map .connection ++ machine.trace H.attached es := by
  have hcons : machine.trace H (.onConnection :: es) = H.listen.2 ++ machine.trace H.listen.1 es := rfl
  rw [hcons, listen_of_unattached h]

/-- **When the consumer attaches does not matter** exactly if none of the peers that are up sends anything
or leaves before. -/
theorem sameView_iff_undisturbed (hostToken : String) (before after : List Frame) :
    SameView (view hostToken before after) (view hostToken [] (before ++ after)) ↔
      Undisturbed [] before := by
  have h := unattached_opened hostToken
  have hup : (opened hostToken).Knows [] := fun c => by
    simp [opened, HostLink.answer, HostLink.new]
  obtain ⟨hrun, hsilent, hexec⟩ := run_unattached before h
  -- both runs come to the same state, so the frames that come after are observed alike
  have hlate : view hostToken before after =
      (List.range (HostLink.announced before).length).map .connection ++
        machine.trace (machine.exec (opened hostToken) (received before)).attached (received after) := by
    have hmade : (machine.exec (opened hostToken) (received before)).link.made.length =
        (HostLink.announced before).length := by
      rw [made_received]
      rfl
    unfold view
    rw [Machine.trace_append, hsilent, List.nil_append, trace_onConnection hrun, hmade]
  have hprompt : view hostToken [] (before ++ after) =
      machine.trace (opened hostToken).attached (received before) ++
        machine.trace (machine.exec (opened hostToken) (received before)).attached (received after) := by
    have hfirst : view hostToken [] (before ++ after) =
        machine.trace (opened hostToken).attached (received (before ++ after)) :=
      trace_onConnection h _
    rw [hfirst, received, List.map_append, Machine.trace_append]
    exact congrArg (_ ++ machine.trace · _) hexec
  rw [hlate, hprompt, ← connections_iff_undisturbed before h hup]
  constructor
  · intro hsame o ho
    obtain ⟨vt, hvt⟩ := transport_of_mem_trace before h o ho
    have hpeer := hsame.peer vt
    rw [seen_append, seen_append, List.append_cancel_right_eq] at hpeer
    have hmem : o ∈ seen vt (machine.trace (opened hostToken).attached (received before)) :=
      List.mem_filter.2 ⟨ho, by simpa using hvt⟩
    rw [← hpeer] at hmem
    obtain ⟨vt', -, heq⟩ := List.mem_map.1 (List.mem_filter.1 hmem).1
    exact ⟨vt', heq.symm⟩
  · intro hconnections
    have heq := eq_handed_of_connections hconnections
    have hrange : handed (machine.trace (opened hostToken).attached (received before)) =
        List.range (HostLink.announced before).length :=
      (handed_trace_attached before h).trans List.range_eq_range'.symm
    rw [hrange] at heq
    rw [heq]
    exact ⟨fun _ => rfl, rfl⟩

/-- A peer says something before the consumer attaches. -/
theorem early_message_lost :
    handed (view "token" [.peerUp 1, .dataToHost 1 true [7]] []) = [0] ∧
      seen 0 (view "token" [.peerUp 1, .dataToHost 1 true [7]] []) = [.connection 0] ∧
      ¬ SameView (view "token" [.peerUp 1, .dataToHost 1 true [7]] [])
        (view "token" [] [.peerUp 1, .dataToHost 1 true [7]]) := by
  refine ⟨rfl, rfl, fun h => ?_⟩
  have hpeer := h.peer 0
  cases hpeer

end HostTransports

end ScreenSharing.Net
