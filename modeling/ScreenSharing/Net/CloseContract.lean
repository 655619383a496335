import ScreenSharing.Lib.CloseContract
import ScreenSharing.Net.HostTransports
import ScreenSharing.Net.PeerTransport

/-!
# The close contract of the two transports

A `VirtualTransport` reports its own `close`, since the relay does not answer a KICK.  A `RelayPeerLink` does
not: `close` sets `#closed`, and the `close` event of the WebSocket that follows finds it set.  So a peer that
closes its link itself is never told (`closeContract_iff`).

A virtual transport misses its end in one way: behind `close` of its link, which tells nobody, the loss of the
link tells nobody either.
-/

namespace ScreenSharing.Net

open Lib hiding Bytes readUInt32BE
open Relay hiding readUInt32BE

/-! ### The link of a peer -/

namespace PeerTransport

/-- `close`, HOST_GONE, and the `close` event of the WebSocket. -/
def ends : Event → Bool
  | .frame .hostGone | .wsClosed _ _ | .close => true
  | _ => false

/-- The close handler is called. -/
def told : Output → Bool
  | .close _ _ => true
  | _ => false

def sent : Output → Bool
  | .sent _ => true
  | _ => false

/-- A link in use, with a close handler. -/
structure Live (P : PeerTransport) : Prop where
  closed : P.closed = false
  onClose : P.onClose = true

structure Shut (P : PeerTransport) : Prop where
  closed : P.closed = true
  keepalive : P.keepalive = false

variable {P : PeerTransport}

theorem countP_told_write (data : Bytes) : (P.write data).countP told = 0 := by
  unfold write
  split <;> rfl

/-- **An event that ends nothing** tells nobody, and a link that is shut sends nothing. -/
theorem react_of_not_ends (P : PeerTransport) {e : Event} (he : ends e = false) :
    (react P e).1.closed = P.closed ∧ (react P e).1.keepalive = P.keepalive ∧
      (P.onClose = true → (react P e).1.onClose = true) ∧ (react P e).2.countP told = 0 ∧
      (P.Shut → (react P e).2.countP sent = 0) := by
  cases e with
  | frame frame =>
    cases frame with
    | hostGone => cases he
    | hostClaimed =>
      cases hslot : P.onHandoffReady with
      | none =>
        have heq : react P (.frame .hostClaimed) = ({ P with handoffAlreadyClaimed := true }, []) := by
          simp [react, onFrame, hslot]
        rw [heq]
        exact ⟨rfl, rfl, id, rfl, fun _ => rfl⟩
      | some callback =>
        have heq : react P (.frame .hostClaimed) = (P, [.handoffReady callback]) := by
          simp [react, onFrame, hslot]
        rw [heq]
        exact ⟨rfl, rfl, id, rfl, fun _ => rfl⟩
    | dataToPeer isBinary payload | dataToHost _ isBinary payload =>
      refine ⟨rfl, rfl, id, ?_, fun _ => ?_⟩
      · simp only [react, onFrame]
        split <;> rfl
      · simp only [react, onFrame]
        split <;> rfl
    | _ => exact ⟨rfl, rfl, id, rfl, fun _ => rfl⟩
  | wsClosed code reason => cases he
  | close => cases he
  | send isBinary payload =>
    refine ⟨rfl, rfl, id, ?_, fun h => ?_⟩
    · simp only [react]
      split
      · rfl
      · exact countP_told_write _
    · simp [react, h.closed]
  | onMessage => exact ⟨rfl, rfl, id, rfl, fun _ => rfl⟩
  | onClose => exact ⟨rfl, rfl, fun _ => rfl, rfl, fun _ => rfl⟩
  | onHandoffReady callback =>
    simp only [react, register]
    split
    · exact ⟨rfl, rfl, id, rfl, fun _ => rfl⟩
    · exact ⟨rfl, rfl, id, rfl, fun _ => rfl⟩
  | tick =>
    refine ⟨rfl, rfl, id, ?_, fun h => ?_⟩
    · simp only [react]
      split
      · exact countP_told_write _
      · rfl
    · simp [react, h.keepalive]

/-- **A link that is shut** stays so; nobody is told, and nothing is sent. -/
theorem shut_react (h : P.Shut) (e : Event) :
    (react P e).1.Shut ∧ (react P e).2.countP told = 0 ∧ (react P e).2.countP sent = 0 := by
  cases he : ends e with
  | false =>
    obtain ⟨hclosed, hkeepalive, -, htold, hsent⟩ := react_of_not_ends P he
    exact ⟨⟨hclosed.trans h.closed, hkeepalive.trans h.keepalive⟩, htold, hsent h⟩
  | true =>
    have heq : (react P e).1.Shut ∧ (react P e).2 = [] := by
      cases e with
      | frame frame =>
        cases frame with
        | hostGone =>
          have heq : react P (.frame .hostGone) = (P, []) := if_pos h.closed
          rw [heq]
          exact ⟨h, rfl⟩
        | _ => cases he
      | wsClosed code reason =>
        have heq : react P (.wsClosed code reason) = ({ P with wsOpen := false }, []) := if_pos h.closed
        rw [heq]
        exact ⟨⟨h.closed, h.keepalive⟩, rfl⟩
      | close =>
        have heq : react P .close = (P, []) := if_pos h.closed
        rw [heq]
        exact ⟨h, rfl⟩
      | _ => cases he
    rw [heq.2]
    exact ⟨heq.1, rfl, rfl⟩

/-- **An ending** shuts the link; its user is told unless it was its own `close`. -/
theorem ended_react (h : P.Live) {e : Event} (he : ends e = true) :
    (react P e).1.Shut ∧ (react P e).2.countP told = if e = .close then 0 else 1 := by
  have hopen : ¬ P.closed = true := by
    rw [h.closed]
    decide
  have hfail : ∀ (Q : PeerTransport) (code : ℕ) (reason : String), Q.closed = false → Q.onClose = true →
      (Q.fail code reason).1.Shut ∧ (Q.fail code reason).2.countP told = 1 := by
    intro Q code reason hclosed hclose
    have heq : Q.fail code reason =
        ({ Q with closed := true, keepalive := false }, [.close code reason]) := by
      simp [fail, hclosed, hclose]
    rw [heq]
    exact ⟨⟨rfl, rfl⟩, rfl⟩
  cases e with
  | frame frame =>
    cases frame with
    | hostGone => exact hfail P 1001 "host gone" h.closed h.onClose
    | _ => cases he
  | wsClosed code reason => exact hfail { P with wsOpen := false } code _ h.closed h.onClose
  | close =>
    have heq : react P .close =
        ({ P with closed := true, keepalive := false, wsOpen := false },
          if P.wsOpen then [.wsClose] else []) := if_neg hopen
    rw [heq]
    refine ⟨⟨rfl, rfl⟩, ?_⟩
    dsimp only
    split <;> rfl
  | _ => cases he

theorem live_react (h : P.Live) {e : Event} (he : ends e = false) : (react P e).1.Live := by
  obtain ⟨hclosed, -, hclose, -, -⟩ := react_of_not_ends P he
  exact ⟨hclosed.trans h.closed, hclose h.onClose⟩

/-- **Runs.**  The user of a link is told, once, if the first ending is not its own `close`. -/
theorem countP_told_trace (es : List Event) : ∀ {P : PeerTransport}, P.Live →
    (machine.trace P es).countP told =
      if es.any ends = true ∧ es.find? ends ≠ some .close then 1 else 0 := by
  induction es with
  | nil => exact fun _ => rfl
  | cons e es ih =>
    intro P h
    rw [Machine.countP_trace_cons]
    cases he : ends e with
    | false =>
      have htold : (machine.out P e).countP told = 0 := (react_of_not_ends P he).2.2.2.1
      have hlive : (machine.next P e).Live := live_react h he
      rw [htold, ih hlive]
      simp [he]
    | true =>
      have hshut : (machine.next P e).Shut := (ended_react h he).1
      have htold : (machine.out P e).countP told = if e = .close then 0 else 1 := (ended_react h he).2
      have hrest : (machine.trace (machine.next P e) es).countP told = 0 :=
        Machine.countP_trace_eq_zero (M := machine) (G := fun _ => True)
          (fun s e hs _ => (shut_react hs e).1) (fun s e hs _ => (shut_react hs e).2.1) es
          (fun _ _ => trivial) hshut
      have hany : (e :: es).any ends = true := by simp [he]
      have hfind : (e :: es).find? ends = some e := List.find?_cons_of_pos he
      rw [htold, hrest, hany, hfind]
      by_cases hclose : e = .close <;> simp [hclose]

/-- **The link of a peer** honours the contract exactly if the first ending is not its own `close`. -/
theorem closeContract_iff_first (h : P.Live) (es : List Event) :
    machine.CloseContract ends told sent P es ↔ es.find? ends ≠ some .close := by
  have hcount := countP_told_trace es h
  constructor
  · intro hcontract hfind
    have honce := hcontract.once
    have hany : es.any ends = true := by
      rw [List.any_eq_true]
      exact ⟨.close, List.mem_of_find?_eq_some hfind, rfl⟩
    rw [hcount] at honce
    simp [hany, hfind] at honce
  · intro hfirst
    constructor
    · rw [hcount]
      simp [hfirst]
    · have hkeep : ∀ (s : PeerTransport) (e : Event), s.Live ∨ s.Shut → True →
          (machine.next s e).Live ∨ (machine.next s e).Shut := by
        intro s e hs _
        rcases hs with hs | hs
        · cases he : ends e with
          | false => exact .inl (live_react hs he)
          | true => exact .inr (ended_react hs he).1
        · exact .inr (shut_react hs e).1
      exact Machine.silent_of_ended (M := machine) (G := fun _ => True) (J := Shut) hkeep
        (fun s e hs _ he => hs.elim (fun hs => (ended_react hs he).1) fun hs => (shut_react hs e).1)
        (fun s e hs _ => (shut_react hs e).1) (fun s e hs _ => (shut_react hs e).2.2)
        (fun _ _ => trivial) (.inl h)

end PeerTransport

/-! ### The virtual transports of a host -/

namespace HostTransports

/-- For the transport `vt` of `connId`: its `close`, PEER_DOWN, and the loss of the link. -/
def ends (vt connId : ℕ) : Event → Bool
  | .close vt' => vt' = vt
  | .frame (.peerDown c) => c = connId
  | .wsClosed => true
  | _ => false

/-- The endings but the loss of the link. -/
def endsAlone (vt connId : ℕ) : Event → Bool
  | .close vt' => vt' = vt
  | .frame (.peerDown c) => c = connId
  | _ => false

theorem endsAlone_of_ends {vt connId : ℕ} {e : Event} (h : ends vt connId e = true)
    (hws : e ≠ .wsClosed) : endsAlone vt connId e = true := by
  cases e with
  | wsClosed => exact absurd rfl hws
  | frame frame => cases frame <;> exact h
  | _ => exact h

theorem ends_of_endsAlone {vt connId : ℕ} {e : Event} (h : endsAlone vt connId e = true) :
    ends vt connId e = true := by
  cases e with
  | frame frame => cases frame <;> exact h
  | wsClosed => rfl
  | _ => exact h

/-- The close handler of the transport is called. -/
def told (vt : ℕ) : Output → Bool
  | .close vt' _ _ => vt' = vt
  | _ => false

/-- The transport sends something. -/
def sentBy (vt : ℕ) : Output → Bool
  | .sent (some vt') _ => vt' = vt
  | _ => false

/-- What leaves the transport `vt` alone. -/
structure Aside (vt : ℕ) (H : HostTransports) (r : HostTransports × List Output) : Prop where
  closed : r.1.closed = H.closed
  wsOpen : r.1.wsOpen = H.wsOpen
  transport : (r.1.transport vt).closed = (H.transport vt).closed
  onClose : (H.transport vt).onClose = true → (r.1.transport vt).onClose = true
  told : r.2.countP (told vt) = 0
  sent : r.2.countP (sentBy vt) = 0

variable {H : HostTransports} {vt vt' connId : ℕ}

theorem countP_told_write (t : Option ℕ) (data : Except Fault Bytes) :
    (H.write t data).countP (told vt) = 0 := by
  unfold write
  split
  · cases data <;> rfl
  · rfl

theorem countP_sentBy_write {t : Option ℕ} (data : Except Fault Bytes)
    (h : t ≠ some vt ∨ H.wsOpen = false) : (H.write t data).countP (sentBy vt) = 0 := by
  unfold write
  split
  · next hopen =>
    have hne : t ≠ some vt := h.resolve_right (by simp [hopen])
    cases data with
    | ok data =>
      cases t with
      | none => rfl
      | some vt' =>
        have hvt : vt' ≠ vt := fun heq => hne (congrArg some heq)
        simp [sentBy, hvt]
    | error fault => rfl
  · rfl

theorem aside_nothing : Aside vt H (H, []) := ⟨rfl, rfl, rfl, id, rfl, rfl⟩

theorem aside_ended (hne : vt' ≠ vt) (code : ℕ) (reason : String) :
    Aside vt H (H.ended vt' code reason) := by
  have hsame : (H.ended vt' code reason).1.transport vt = H.transport vt :=
    Function.update_of_ne hne.symm _ _
  refine ⟨rfl, rfl, congrArg _ hsame, fun h => hsame ▸ h, ?_, ?_⟩
  · unfold ended
    dsimp only
    split
    · simp [HostTransports.told, hne]
    · rfl
  · unfold ended
    dsimp only
    split <;> rfl

theorem aside_dropped (h : vt' = vt → (H.transport vt).closed = true) (reason : String) :
    Aside vt H (H.dropped reason vt') := by
  unfold dropped
  split
  · exact aside_nothing
  · next hopen =>
    refine aside_ended (fun heq => hopen ?_) 1001 reason
    rw [heq]
    exact h heq

theorem aside_accept : Aside vt H (H.accept vt') := by
  by_cases hvt : vt = vt'
  · subst hvt
    refine ⟨rfl, rfl, ?_, fun _ => ?_, rfl, rfl⟩ <;> simp [accept, setTransport]
  · have hsame : (H.accept vt').1.transport vt = H.transport vt := Function.update_of_ne hvt _ _
    exact ⟨rfl, rfl, congrArg _ hsame, fun h => hsame ▸ h, rfl, rfl⟩

theorem aside_call {callback : Callback}
    (h : callback = .dropped vt → (H.transport vt).closed = true) : Aside vt H (H.call callback) := by
  cases callback with
  | connection vt' => exact aside_accept
  | message vt' isBinary payload =>
    refine ⟨rfl, rfl, .refl _, id, ?_, ?_⟩
    · simp only [call, deliver]
      split <;> rfl
    · simp only [call, deliver]
      split <;> rfl
  | dropped vt' => exact aside_dropped (fun heq => h (by rw [heq])) _

/-- A loop whose body leaves the transport alone. -/
theorem aside_forEach {α : Type} {body : HostTransports → α → HostTransports × List Output} {b : Bool}
    (as : List α) (hbody : ∀ H : HostTransports, (H.transport vt).closed = b → ∀ a ∈ as, Aside vt H (body H a)) :
    ∀ {H : HostTransports}, (H.transport vt).closed = b → Aside vt H (forEach body as H) := by
  induction as with
  | nil => exact fun _ => aside_nothing
  | cons a as ih =>
    intro H hH
    have hfirst := hbody H hH a List.mem_cons_self
    have hrest := ih (fun H hH a ha => hbody H hH a (List.mem_cons_of_mem _ ha))
      (hfirst.transport.trans hH)
    have hcons : forEach body (a :: as) H =
        ((forEach body as (body H a).1).1, (body H a).2 ++ (forEach body as (body H a).1).2) := rfl
    rw [hcons]
    exact ⟨hrest.closed.trans hfirst.closed, hrest.wsOpen.trans hfirst.wsOpen,
      hrest.transport.trans hfirst.transport, fun h => hrest.onClose (hfirst.onClose h),
      by rw [List.countP_append, hfirst.told, hrest.told],
      by rw [List.countP_append, hfirst.sent, hrest.sent]⟩

theorem aside_shut (hne : vt' ≠ vt) : Aside vt H (H.shut vt') := by
  unfold shut
  split
  · exact aside_nothing
  · split
    · exact aside_nothing
    · next connId _ =>
      split
      · have hsame : (H.setTransport vt' { H.transport vt' with closed := true }).transport vt =
            H.transport vt := Function.update_of_ne hne.symm _ _
        exact ⟨rfl, rfl, congrArg _ hsame, fun h => hsame ▸ h, rfl, rfl⟩
      · have hended : Aside vt _ (({ H with link := H.link.kick vt' } : HostTransports).ended vt' 1000
            "closed by host") := aside_ended hne 1000 "closed by host"
        have hother : some vt' ≠ some vt := fun heq => hne (Option.some.inj heq)
        refine ⟨hended.closed, hended.wsOpen, hended.transport, hended.onClose, ?_, ?_⟩
        · dsimp only
          rw [List.countP_append, countP_told_write, hended.told]
        · dsimp only
          rw [List.countP_append, countP_sentBy_write _ (.inl hother), hended.sent]

theorem aside_send (h : vt' ≠ vt ∨ (H.transport vt).closed = true ∨ H.wsOpen = false) (isBinary : Bool)
    (payload : Bytes) : (H.send vt' isBinary payload).countP (sentBy vt) = 0 := by
  unfold send
  split
  · rfl
  · next hopen =>
    split
    · rfl
    · refine countP_sentBy_write _ ?_
      rcases h with hne | hclosed | hws
      · exact .inl fun heq => hne (Option.some.inj heq)
      · refine .inl fun heq => hopen ?_
        rw [Option.some.inj heq]
        exact hclosed
      · exact .inr hws

theorem countP_told_send (isBinary : Bool) (payload : Bytes) :
    (H.send vt' isBinary payload).countP (told vt) = 0 := by
  unfold send
  split
  · rfl
  · split
    · rfl
    · exact countP_told_write _ _

/-- What the relay's WebSocket, the link itself and the keepalive do does not concern a transport. -/
theorem aside_closeLink (H : HostTransports) (vt : ℕ) :
    ((H.closeLink).1.transport vt) = H.transport vt ∧
    (H.closeLink).2.countP (told vt) = 0 ∧ (H.closeLink).2.countP (sentBy vt) = 0 := by
  unfold closeLink
  split
  · exact ⟨rfl, rfl, rfl⟩
  · refine ⟨rfl, ?_, ?_⟩
    · dsimp only
      split <;> rfl
    · dsimp only
      split <;> rfl

theorem countP_tick (p : Output → Bool) (h : (H.write none (.ok encodePing)).countP p = 0) :
    (if H.keepalive then H.write none (.ok encodePing) else []).countP p = 0 := by
  split
  · exact h
  · rfl

theorem countP_closed (reason : String) :
    (if H.onClosed then [Output.closed reason] else []).countP (told vt) = 0 ∧
      (if H.onClosed then [Output.closed reason] else []).countP (sentBy vt) = 0 := by
  split
  · exact ⟨rfl, rfl⟩
  · exact ⟨rfl, rfl⟩

/-- **A transport that is closed** stays so; its handler is not called, and it sends nothing. -/
theorem closed_react (h : (H.transport vt).closed = true) (e : Event) :
    ((react H e).1.transport vt).closed = true ∧ (react H e).2.countP (told vt) = 0 ∧
      (react H e).2.countP (sentBy vt) = 0 := by
  have hlink : (none : Option ℕ) ≠ some vt := by simp
  cases e with
  | frame frame =>
    have haside : Aside vt { H with link := (H.link.onFrame frame).1 } (H.onFrame frame) :=
      aside_forEach _ (fun H hH callback _ => aside_call fun _ => hH) h
    exact ⟨haside.transport.trans h, haside.told, haside.sent⟩
  | wsClosed =>
    simp only [react, tearDown]
    split
    · exact ⟨h, rfl, rfl⟩
    · have haside : Aside vt { H with closed := true, wsOpen := false, keepalive := false }
          (forEach (fun H vt => H.dropped "relay link closed" vt) H.link.peers.values
            { H with closed := true, wsOpen := false, keepalive := false }) :=
        aside_forEach _ (fun H hH vt' _ => aside_dropped (fun _ => hH) _) h
      refine ⟨haside.transport.trans h, ?_, ?_⟩
      · dsimp only
        rw [List.countP_append, haside.told, (countP_closed _).1]
      · dsimp only
        rw [List.countP_append, haside.sent, (countP_closed _).2]
  | onConnection =>
    have haside : Aside vt { H with link := H.link.onConnection.1 } H.listen :=
      aside_forEach _ (fun H hH callback _ => aside_call fun _ => hH) h
    exact ⟨haside.transport.trans h, haside.told, haside.sent⟩
  | onClosed => exact ⟨h, rfl, rfl⟩
  | send vt' isBinary payload =>
    exact ⟨h, countP_told_send _ _, aside_send (.inr (.inl h)) _ _⟩
  | close vt' =>
    by_cases hvt : vt' = vt
    · have heq : react H (.close vt') = (H, []) := if_pos (hvt ▸ h)
      rw [heq]
      exact ⟨h, rfl, rfl⟩
    · have haside : Aside vt H (react H (.close vt')) := aside_shut hvt
      exact ⟨haside.transport.trans h, haside.told, haside.sent⟩
  | closeLink =>
    obtain ⟨hsame, htold, hsent⟩ := aside_closeLink H vt
    exact ⟨(congrArg _ hsame).trans h, htold, hsent⟩
  | handoff =>
    have hout : (react H .handoff).2 = H.write none (.ok encodeHandoff) := rfl
    rw [hout]
    exact ⟨h, countP_told_write _ _, countP_sentBy_write _ (.inl hlink)⟩
  | tick =>
    exact ⟨h, countP_tick _ (countP_told_write _ _),
      countP_tick _ (countP_sentBy_write _ (.inl hlink))⟩

/-- The link knows that `vt` is the transport of `connId`, and the only one. -/
structure Owns (link : HostLink) (vt connId : ℕ) : Prop where
  mapped : link.peers.get connId = some vt
  made : ∀ c vt', link.peers.get c = some vt' → link.made[vt']? = some c
  only : ∀ vt', link.made[vt']? = some connId → vt' = vt

/-- A transport in use, with a close handler. -/
structure Held (H : HostTransports) (vt connId : ℕ) : Prop where
  owns : Owns H.link vt connId
  opens : (H.transport vt).closed = false
  onClose : (H.transport vt).onClose = true

/-- The same, and its link is in use too. -/
structure Live (H : HostTransports) (vt connId : ℕ) : Prop extends Held H vt connId where
  closed : H.closed = false

/-- The same, behind `close` of the link. -/
structure Muted (H : HostTransports) (vt connId : ℕ) : Prop extends Held H vt connId where
  closed : H.closed = true
  wsOpen : H.wsOpen = false

theorem Owns.lt {link : HostLink} (h : Owns link vt connId) : vt < link.made.length :=
  (List.getElem?_eq_some_iff.1 (h.made connId vt h.mapped)).1

/-- A frame about another connId. -/
theorem owns_onFrame {link : HostLink} (h : Owns link vt connId) {frame : Frame}
    (hup : frame ≠ .peerUp connId) (hdown : frame ≠ .peerDown connId) :
    Owns (link.onFrame frame).1 vt connId ∧ Callback.dropped vt ∉ (link.onFrame frame).2 := by
  have hanswer : ∀ opening, Owns (link.answer opening) vt connId := by
    intro opening
    unfold HostLink.answer
    split
    · exact ⟨h.mapped, h.made, h.only⟩
    · exact h
  cases frame with
  | ready c hostToken => exact ⟨hanswer _, by simp [HostLink.onFrame]⟩
  | reject reason => exact ⟨hanswer _, by simp [HostLink.onFrame]⟩
  | peerUp c =>
    have hne : connId ≠ c := fun heq => hup (by rw [heq])
    have howns : Owns { link with
        made := link.made ++ [c], peers := link.peers.set c link.made.length } vt connId := by
      refine ⟨(InsertionMap.get_set_ne _ _ hne).trans h.mapped, ?_, ?_⟩
      · intro c' vt' hget
        rw [InsertionMap.get_set] at hget
        split at hget
        · cases hget
          subst_vars
          simp
        · have hmade := h.made c' vt' hget
          have hlt : vt' < link.made.length := (List.getElem?_eq_some_iff.1 hmade).1
          exact (List.getElem?_append_left hlt).trans hmade
      · intro vt' hmade
        dsimp only at hmade
        rw [List.getElem?_append] at hmade
        split at hmade
        · exact h.only vt' hmade
        · have hc := List.mem_of_getElem? hmade
          exact absurd (List.mem_singleton.1 hc) hne
    simp only [HostLink.onFrame, HostLink.peerUp]
    split
    · exact ⟨howns, by simp⟩
    · exact ⟨⟨howns.mapped, howns.made, howns.only⟩, by simp⟩
  | peerDown c =>
    have hne : connId ≠ c := fun heq => hdown (by rw [heq])
    refine ⟨⟨(InsertionMap.get_delete_ne _ hne).trans h.mapped, ?_, h.only⟩, ?_⟩
    · exact fun c' vt' hget => h.made c' vt' (InsertionMap.get_of_get_delete hget).1
    · cases hget : link.peers.get c with
      | none => simp [HostLink.onFrame, hget]
      | some vt' =>
        have hvt : vt ≠ vt' := by
          intro heq
          have hmade := h.made c vt' hget
          rw [← heq, h.made connId vt h.mapped] at hmade
          exact hne (Option.some.inj hmade)
        simp [HostLink.onFrame, hget, hvt]
  | dataToHost c isBinary payload =>
    refine ⟨h, ?_⟩
    cases hget : link.peers.get c <;> simp [HostLink.onFrame, hget]
  | _ => exact ⟨h, by simp [HostLink.onFrame]⟩

theorem owns_kick {link : HostLink} (h : Owns link vt connId) (hne : vt' ≠ vt) :
    Owns (link.kick vt') vt connId := by
  unfold HostLink.kick
  split
  · exact h
  · next c hc =>
    have hconn : connId ≠ c := fun heq => hne (h.only vt' (heq ▸ hc))
    exact ⟨(InsertionMap.get_delete_ne _ hconn).trans h.mapped,
      fun c' vt'' hget => h.made c' vt'' (InsertionMap.get_of_get_delete hget).1, h.only⟩

/-- What leaves the transport alone, and the link with it. -/
theorem held_of_aside {r : HostTransports × List Output} (h : H.Held vt connId) (haside : Aside vt H r)
    (howns : Owns r.1.link vt connId) : r.1.Held vt connId :=
  ⟨howns, haside.transport.trans h.opens, haside.onClose h.onClose⟩

/-- **An event that does not end the transport** does not call its handler; with the WebSocket gone the
transport sends nothing. -/
theorem react_of_not_ends (h : H.Held vt connId) {e : Event} (he : ends vt connId e = false)
    (hup : e ≠ .frame (.peerUp connId)) :
    (react H e).1.Held vt connId ∧ (react H e).2.countP (told vt) = 0 ∧
      (H.wsOpen = false → (react H e).2.countP (sentBy vt) = 0) ∧
      (e ≠ .closeLink → (react H e).1.closed = H.closed ∧ (react H e).1.wsOpen = H.wsOpen) := by
  cases e with
  | frame frame =>
    have hdown : frame ≠ .peerDown connId := by
      intro heq
      subst heq
      simp [ends] at he
    obtain ⟨howns, hcallbacks⟩ := owns_onFrame h.owns (fun heq => hup (by rw [heq])) hdown
    have haside : Aside vt { H with link := (H.link.onFrame frame).1 } (H.onFrame frame) :=
      aside_forEach _ (fun H hH callback hc => aside_call fun heq => absurd (heq ▸ hc) hcallbacks) rfl
    rw [← link_onFrame] at howns
    exact ⟨⟨howns, haside.transport.trans h.opens, haside.onClose h.onClose⟩, haside.told,
      fun _ => haside.sent, fun _ => ⟨haside.closed, haside.wsOpen⟩⟩
  | wsClosed => cases he
  | onConnection =>
    have haside : Aside vt { H with link := H.link.onConnection.1 } H.listen := by
      refine aside_forEach (b := false) _ (fun H hH callback hc => aside_call fun heq => ?_) h.opens
      obtain ⟨vt', -, hvt⟩ := List.mem_map.1 hc
      rw [heq] at hvt
      cases hvt
    have howns : Owns H.listen.1.link vt connId := by
      have hlink : H.listen.1.link = H.link.onConnection.1 := link_forEach_call _ _
      rw [hlink]
      exact ⟨h.owns.mapped, h.owns.made, h.owns.only⟩
    exact ⟨⟨howns, haside.transport.trans h.opens, haside.onClose h.onClose⟩, haside.told,
      fun _ => haside.sent, fun _ => ⟨haside.closed, haside.wsOpen⟩⟩
  | onClosed => exact ⟨⟨h.owns, h.opens, h.onClose⟩, rfl, fun _ => rfl, fun _ => ⟨rfl, rfl⟩⟩
  | send vt' isBinary payload =>
    exact ⟨h, countP_told_send _ _, fun hws => aside_send (.inr (.inr hws)) _ _, fun _ => ⟨rfl, rfl⟩⟩
  | close vt' =>
    have hne : vt' ≠ vt := by simpa [ends] using he
    have haside : Aside vt H (react H (.close vt')) := aside_shut hne
    have howns : Owns (H.shut vt').1.link vt connId := by
      unfold shut
      split
      · exact h.owns
      · split
        · exact h.owns
        · split
          · exact h.owns
          · exact owns_kick h.owns hne
    exact ⟨held_of_aside h haside howns, haside.told, fun _ => haside.sent,
      fun _ => ⟨haside.closed, haside.wsOpen⟩⟩
  | closeLink =>
    obtain ⟨hsame, htold, hsent⟩ := aside_closeLink H vt
    have hlink : H.closeLink.1.link = H.link := by
      unfold closeLink
      split <;> rfl
    have hheld : H.closeLink.1.Held vt connId :=
      ⟨hlink.symm ▸ h.owns, (congrArg _ hsame).trans h.opens, (congrArg _ hsame).trans h.onClose⟩
    exact ⟨hheld, htold, fun _ => hsent, fun hne => absurd rfl hne⟩
  | handoff =>
    have hout : (react H .handoff).2 = H.write none (.ok encodeHandoff) := rfl
    rw [hout]
    exact ⟨h, countP_told_write _ _, fun hws => countP_sentBy_write _ (.inr hws), fun _ => ⟨rfl, rfl⟩⟩
  | tick =>
    exact ⟨h, countP_tick _ (countP_told_write _ _),
      fun hws => countP_tick _ (countP_sentBy_write _ (.inr hws)), fun _ => ⟨rfl, rfl⟩⟩

/-- The transport is closed, and its handler called. -/
theorem countP_told_ended (h : (H.transport vt).onClose = true) (code : ℕ) (reason : String) :
    ((H.ended vt code reason).1.transport vt).closed = true ∧
      (H.ended vt code reason).2.countP (told vt) = 1 ∧
      (H.ended vt code reason).2.countP (sentBy vt) = 0 := by
  refine ⟨?_, ?_, ?_⟩
  · simp [ended, setTransport]
  · simp [ended, h, told]
  · simp [ended, h, sentBy]

/-- **`close` and PEER_DOWN** close the transport, and call its handler. -/
theorem react_of_endsAlone (h : H.Held vt connId) (hconnId : connId < 2 ^ 32) {e : Event}
    (he : endsAlone vt connId e = true) :
    ((react H e).1.transport vt).closed = true ∧ (react H e).2.countP (told vt) = 1 ∧
      (H.wsOpen = false → (react H e).2.countP (sentBy vt) = 0) := by
  cases e with
  | frame frame =>
    cases frame with
    | peerDown c =>
      obtain rfl : c = connId := by simpa [endsAlone] using he
      have hdropped : H.onFrame (.peerDown c) = (H.forget c).ended vt 1001 "peer left" :=
        (onFrame_peerDown_some h.owns.mapped).trans (if_neg (by simp [forget, h.opens]))
      have heq : react H (.frame (.peerDown c)) = (H.forget c).ended vt 1001 "peer left" := hdropped
      rw [heq]
      obtain ⟨hclosed, htold, hsent⟩ := countP_told_ended (H := H.forget c) h.onClose 1001 "peer left"
      exact ⟨hclosed, htold, fun _ => hsent⟩
    | _ => cases he
  | close vt' =>
    obtain rfl : vt' = vt := by simpa [endsAlone] using he
    have hkick : encodeKick connId = .ok (T.kick :: writeBE 4 connId) := by
      unfold encodeKick
      rw [writeUInt32BE_of_lt hconnId]
      rfl
    have heq : react H (.close vt') = (({ H with link := H.link.kick vt' }.ended vt' 1000 "closed by host").1,
        H.write (some vt') (encodeKick connId) ++
          ({ H with link := H.link.kick vt' }.ended vt' 1000 "closed by host").2) := by
      simp only [react, shut, h.opens, h.owns.made connId vt' h.owns.mapped, hkick]
      simp
    rw [heq]
    obtain ⟨hclosed, htold, hsent⟩ :=
      countP_told_ended (H := { H with link := H.link.kick vt' }) h.onClose 1000 "closed by host"
    refine ⟨hclosed, ?_, fun hws => ?_⟩
    · rw [List.countP_append, countP_told_write, htold]
    · rw [List.countP_append, countP_sentBy_write _ (.inr hws), hsent]
  | _ => cases he

/-- The link drops its transports. -/
theorem forEach_dropped (reason : String) (vts : List ℕ) : ∀ {H : HostTransports}, vt ∈ vts →
    (H.transport vt).closed = false → (H.transport vt).onClose = true →
    ((forEach (fun H vt => H.dropped reason vt) vts H).1.transport vt).closed = true ∧
      (forEach (fun H vt => H.dropped reason vt) vts H).2.countP (told vt) = 1 := by
  induction vts with
  | nil => exact fun h => by cases h
  | cons vt' vts ih =>
    intro H hmem hopen hclose
    have hcons : forEach (fun H vt => H.dropped reason vt) (vt' :: vts) H =
        ((forEach (fun H vt => H.dropped reason vt) vts (H.dropped reason vt').1).1,
          (H.dropped reason vt').2 ++
            (forEach (fun H vt => H.dropped reason vt) vts (H.dropped reason vt').1).2) := rfl
    rw [hcons]
    by_cases hvt : vt' = vt
    · subst hvt
      have hdropped : H.dropped reason vt' = H.ended vt' 1001 reason := if_neg (by simp [hopen])
      obtain ⟨hclosed, htold, -⟩ := countP_told_ended hclose 1001 reason
      rw [hdropped]
      have hrest : Aside vt' (H.ended vt' 1001 reason).1
          (forEach (fun H vt => H.dropped reason vt) vts (H.ended vt' 1001 reason).1) :=
        aside_forEach vts (fun H hH vt'' _ => aside_dropped (fun _ => hH) _) hclosed
      exact ⟨hrest.transport.trans hclosed, by rw [List.countP_append, htold, hrest.told]⟩
    · have hfirst : Aside vt H (H.dropped reason vt') := aside_dropped (fun heq => absurd heq hvt) _
      obtain ⟨hclosed, htold⟩ := ih ((List.mem_cons.1 hmem).resolve_left (Ne.symm hvt))
        (hfirst.transport.trans hopen) (hfirst.onClose hclose)
      exact ⟨hclosed, by rw [List.countP_append, hfirst.told, htold]⟩

/-- **The loss of a link in use** closes the transport, and calls its handler. -/
theorem react_wsClosed (h : H.Live vt connId) :
    ((react H .wsClosed).1.transport vt).closed = true ∧ (react H .wsClosed).2.countP (told vt) = 1 := by
  obtain ⟨hclosed, htold⟩ := forEach_dropped "relay link closed" H.link.peers.values
    (H := { H with closed := true, wsOpen := false, keepalive := false })
    ((InsertionMap.mem_values _ _).2 ⟨connId, h.owns.mapped⟩) h.opens h.onClose
  simp only [react, tearDown, h.closed]
  refine ⟨hclosed, ?_⟩
  simp only [Bool.false_eq_true, if_false]
  rw [List.countP_append, (countP_closed _).1]
  exact htold

/-! ### Runs -/

theorem live_react (h : H.Live vt connId) {e : Event} (he : ends vt connId e = false)
    (hup : e ≠ .frame (.peerUp connId)) (hclose : e ≠ .closeLink) : (react H e).1.Live vt connId := by
  obtain ⟨hheld, -, -, hsame⟩ := react_of_not_ends h.toHeld he hup
  exact ⟨hheld, (hsame hclose).1.trans h.closed⟩

theorem live_closeLink (h : H.Live vt connId) : (react H .closeLink).1.Muted vt connId := by
  have hheld := (react_of_not_ends (e := .closeLink) h.toHeld rfl (by simp)).1
  have heq : H.closeLink =
      ({ H with closed := true, keepalive := false, wsOpen := false },
        if H.wsOpen then [.wsClose] else []) := if_neg (by simp [h.closed])
  have hclosed : H.closeLink.1.closed = true ∧ H.closeLink.1.wsOpen = false := by
    rw [heq]
    exact ⟨rfl, rfl⟩
  exact ⟨hheld, hclosed.1, hclosed.2⟩

/-- **Behind `close` of the link** an event that does not end the transport by itself tells nobody. -/
theorem muted_react (h : H.Muted vt connId) {e : Event} (he : endsAlone vt connId e = false)
    (hup : e ≠ .frame (.peerUp connId)) :
    (react H e).1.Muted vt connId ∧ (react H e).2.countP (told vt) = 0 ∧
      (react H e).2.countP (sentBy vt) = 0 := by
  by_cases hws : e = .wsClosed
  · subst hws
    have heq : react H .wsClosed = ({ H with wsOpen := false }, []) := if_pos h.closed
    rw [heq]
    exact ⟨⟨⟨h.owns, h.opens, h.onClose⟩, h.closed, rfl⟩, rfl, rfl⟩
  · have hends : ends vt connId e = false :=
      Bool.eq_false_iff.2 fun h => by simp [endsAlone_of_ends h hws] at he
    obtain ⟨hheld, htold, hsent, hsame⟩ := react_of_not_ends h.toHeld hends hup
    refine ⟨?_, htold, hsent h.wsOpen⟩
    by_cases hclose : e = .closeLink
    · subst hclose
      have heq : react H .closeLink = (H, []) := if_pos h.closed
      rw [heq]
      exact h
    · exact ⟨hheld, (hsame hclose).1.trans h.closed, (hsame hclose).2.trans h.wsOpen⟩

/-- From a closed transport on, nobody is told. -/
theorem countP_told_closed (es : List Event) (h : (H.transport vt).closed = true) :
    (machine.trace H es).countP (told vt) = 0 :=
  Machine.countP_trace_eq_zero (M := machine) (G := fun _ => True)
    (I := fun H => (H.transport vt).closed = true) (fun _ e hs _ => (closed_react hs e).1)
    (fun _ e hs _ => (closed_react hs e).2.1) es (fun _ _ => trivial) h

theorem countP_told_muted (hconnId : connId < 2 ^ 32) (es : List Event) :
    ∀ {H : HostTransports}, Event.frame (.peerUp connId) ∉ es → H.Muted vt connId →
      (machine.trace H es).countP (told vt) = if es.any (endsAlone vt connId) then 1 else 0 := by
  induction es with
  | nil => exact fun _ _ => rfl
  | cons e es ih =>
    intro H hup h
    have hup' : e ≠ .frame (.peerUp connId) ∧ .frame (.peerUp connId) ∉ es :=
      ⟨(List.ne_of_not_mem_cons hup).symm, List.not_mem_of_not_mem_cons hup⟩
    rw [Machine.countP_trace_cons]
    cases he : endsAlone vt connId e with
    | false =>
      obtain ⟨hmuted, htold, -⟩ := muted_react h he hup'.1
      have hout : (machine.out H e).countP (told vt) = 0 := htold
      have hnext : (machine.next H e).Muted vt connId := hmuted
      rw [hout, ih hup'.2 hnext]
      simp [he]
    | true =>
      obtain ⟨hclosed, htold, -⟩ := react_of_endsAlone h.toHeld hconnId he
      have hout : (machine.out H e).countP (told vt) = 1 := htold
      have hnext : ((machine.next H e).transport vt).closed = true := hclosed
      rw [hout, countP_told_closed es hnext]
      simp [he]

/-- The handler of the transport is to hear of an end: of one of its own, or of the loss of its link that is
not behind `close` of the link. -/
def Heard (vt connId : ℕ) (es : List Event) : Prop :=
  (∃ e ∈ es, endsAlone vt connId e = true) ∨ .wsClosed ∈ es.takeWhile fun e => e ≠ .closeLink

instance (es : List Event) : Decidable (Heard vt connId es) := by
  unfold Heard
  infer_instance

theorem any_of_heard {es : List Event} (h : Heard vt connId es) : es.any (ends vt connId) = true := by
  rw [List.any_eq_true]
  rcases h with ⟨e, he, halone⟩ | hws
  · exact ⟨e, he, ends_of_endsAlone halone⟩
  · exact ⟨.wsClosed, (List.takeWhile_prefix _).subset hws, rfl⟩

theorem countP_told_live (hconnId : connId < 2 ^ 32) (es : List Event) :
    ∀ {H : HostTransports}, Event.frame (.peerUp connId) ∉ es → H.Live vt connId →
      (machine.trace H es).countP (told vt) = if Heard vt connId es then 1 else 0 := by
  induction es with
  | nil => exact fun _ _ => rfl
  | cons e es ih =>
    intro H hup h
    have hup' : e ≠ .frame (.peerUp connId) ∧ .frame (.peerUp connId) ∉ es :=
      ⟨(List.ne_of_not_mem_cons hup).symm, List.not_mem_of_not_mem_cons hup⟩
    rw [Machine.countP_trace_cons]
    cases he : ends vt connId e with
    | true =>
      have hend : ((react H e).1.transport vt).closed = true ∧ (react H e).2.countP (told vt) = 1 ∧
          Heard vt connId (e :: es) := by
        by_cases hws : e = .wsClosed
        · subst hws
          exact ⟨(react_wsClosed h).1, (react_wsClosed h).2, .inr (by simp)⟩
        · have halone := endsAlone_of_ends he hws
          obtain ⟨hclosed, htold, -⟩ := react_of_endsAlone h.toHeld hconnId halone
          exact ⟨hclosed, htold, .inl ⟨e, List.mem_cons_self, halone⟩⟩
      have hout : (machine.out H e).countP (told vt) = 1 := hend.2.1
      have hnext : ((machine.next H e).transport vt).closed = true := hend.1
      rw [hout, countP_told_closed es hnext, if_pos hend.2.2]
    | false =>
      have halone : endsAlone vt connId e = false :=
        Bool.eq_false_iff.2 fun h => by simp [ends_of_endsAlone h] at he
      have hout : (machine.out H e).countP (told vt) = 0 :=
        (react_of_not_ends h.toHeld he hup'.1).2.1
      rw [hout, Nat.zero_add]
      by_cases hclose : e = .closeLink
      · subst hclose
        have hnext : (machine.next H .closeLink).Muted vt connId := live_closeLink h
        rw [countP_told_muted hconnId es hup'.2 hnext]
        simp [Heard, halone]
      · have hnext : (machine.next H e).Live vt connId :=
          live_react h he hup'.1 hclose
        have hws : Event.wsClosed ≠ e := by
          rintro rfl
          cases he
        have hiff : Heard vt connId (e :: es) ↔ Heard vt connId es := by
          simp [Heard, halone, hclose, hws]
        rw [ih hup'.2 hnext]
        simp only [hiff]

/-- What an ending leads to. -/
def Over (H : HostTransports) (vt connId : ℕ) : Prop :=
  (H.transport vt).closed = true ∨ H.Muted vt connId

/-- **Behind an ending** the transport sends nothing. -/
theorem over_react (hconnId : connId < 2 ^ 32) (h : H.Over vt connId) {e : Event}
    (hup : e ≠ .frame (.peerUp connId)) :
    (react H e).1.Over vt connId ∧ (react H e).2.countP (sentBy vt) = 0 := by
  rcases h with h | h
  · obtain ⟨hclosed, -, hsent⟩ := closed_react h e
    exact ⟨.inl hclosed, hsent⟩
  · cases he : endsAlone vt connId e with
    | true =>
      obtain ⟨hclosed, -, hsent⟩ := react_of_endsAlone h.toHeld hconnId he
      exact ⟨.inl hclosed, hsent h.wsOpen⟩
    | false =>
      obtain ⟨hmuted, -, hsent⟩ := muted_react h he hup
      exact ⟨.inr hmuted, hsent⟩

theorem over_of_ends (hconnId : connId < 2 ^ 32) (h : H.Live vt connId) {e : Event}
    (he : ends vt connId e = true) : (react H e).1.Over vt connId := by
  by_cases hws : e = .wsClosed
  · subst hws
    exact .inl (react_wsClosed h).1
  · exact .inl (react_of_endsAlone h.toHeld hconnId (endsAlone_of_ends he hws)).1

/-- **A virtual transport** honours the contract exactly if it is to hear of an end when there is one. -/
theorem closeContract_iff_heard (hconnId : connId < 2 ^ 32) (h : H.Live vt connId) (es : List Event)
    (hup : .frame (.peerUp connId) ∉ es) :
    machine.CloseContract (ends vt connId) (told vt) (sentBy vt) H es ↔
      ((∃ e ∈ es, ends vt connId e = true) → Heard vt connId es) := by
  have hcount := countP_told_live hconnId es hup h
  constructor
  · intro hcontract hany
    have honce := hcontract.once
    rw [hcount, if_pos (List.any_eq_true.2 hany)] at honce
    by_contra hheard
    rw [if_neg hheard] at honce
    cases honce
  · intro hheard
    constructor
    · rw [hcount]
      by_cases hany : es.any (ends vt connId) = true
      · rw [if_pos hany, if_pos (hheard (List.any_eq_true.1 hany))]
      · rw [if_neg hany, if_neg fun hheard => hany (any_of_heard hheard)]
    · have hkeep : ∀ (s : HostTransports) (e : Event), s.Live vt connId ∨ s.Over vt connId →
          e ≠ .frame (.peerUp connId) →
          (machine.next s e).Live vt connId ∨ (machine.next s e).Over vt connId := by
        intro s e hs hne
        rcases hs with hs | hs
        · cases he : ends vt connId e with
          | true => exact .inr (over_of_ends hconnId hs he)
          | false =>
            by_cases hclose : e = .closeLink
            · subst hclose
              exact .inr (.inr (live_closeLink hs))
            · exact .inl (live_react hs he hne hclose)
        · exact .inr (over_react hconnId hs hne).1
      exact Machine.silent_of_ended (M := machine) (G := fun e => e ≠ .frame (.peerUp connId))
        (J := fun H => H.Over vt connId) hkeep
        (fun s e hs hne he => hs.elim (fun hs => over_of_ends hconnId hs he)
          fun hs => (over_react hconnId hs hne).1)
        (fun s e hs hne => (over_react hconnId hs hne).1)
        (fun s e hs hne => (over_react hconnId hs hne).2)
        (fun e he heq => hup (heq ▸ he)) (.inl h)

/-- **A transport that is made** for a connId of its own, and handed to a consumer, is in use.  A run of
frames with the consumer attached leads to states of the form `H.attached` (`run_unattached`). -/
theorem live_peerUp (h : Unattached H) (hclosed : H.closed = false) (hnew : connId ∉ H.link.made) :
    (H.attached.onFrame (.peerUp connId)).1.Live H.link.made.length connId := by
  have hframe := onFrame_peerUp_of_not_listening h.listening connId
  have hnext := (onFrame_unattached h (.peerUp connId)).1
  rw [(onFrame_unattached h (.peerUp connId)).2.2, hframe]
  rw [hframe] at hnext
  have hfresh : H.transport H.link.made.length = .new := h.fresh _ (Nat.le_refl _)
  refine ⟨⟨⟨?_, hnext.made, ?_⟩, ?_, ?_⟩, hclosed⟩
  · exact InsertionMap.get_set_self _ _ _
  · intro vt' hmade
    have hmade' : (H.link.made ++ [connId])[vt']? = some connId := hmade
    rw [List.getElem?_append] at hmade'
    split at hmade'
    · exact absurd (List.mem_of_getElem? hmade') hnew
    · next hle =>
      have hlt := (List.getElem?_eq_some_iff.1 hmade').1
      rw [List.length_singleton] at hlt
      omega
  · simp [attached, hfresh, VirtualTransport.new]
  · simp [attached]

end HostTransports

/-- **The close contract** of the two transports, and when they honour it. -/
theorem closeContract_iff {H : HostTransports} {vt connId : ℕ} {P : PeerTransport}
    (hconnId : connId < 2 ^ 32) (hvirtual : H.Live vt connId) (hpeer : P.Live)
    (es : List HostTransports.Event) (hup : .frame (.peerUp connId) ∉ es)
    (es' : List PeerTransport.Event) :
    (HostTransports.machine.CloseContract (HostTransports.ends vt connId) (HostTransports.told vt)
        (HostTransports.sentBy vt) H es ↔
      ((∃ e ∈ es, HostTransports.ends vt connId e = true) → HostTransports.Heard vt connId es)) ∧
    (PeerTransport.machine.CloseContract PeerTransport.ends PeerTransport.told PeerTransport.sent P es' ↔
      es'.find? PeerTransport.ends ≠ some .close) :=
  ⟨HostTransports.closeContract_iff_heard hconnId hvirtual es hup,
    PeerTransport.closeContract_iff_first hpeer es'⟩

/-- A peer closes its link; the `close` event of the WebSocket follows. -/
theorem own_close_not_reported :
    PeerTransport.machine.trace { PeerTransport.new with onClose := true }
        [.close, .wsClosed 1000 ""] = [.wsClose] ∧
      ¬ PeerTransport.machine.CloseContract PeerTransport.ends PeerTransport.told PeerTransport.sent
        { PeerTransport.new with onClose := true } [.close, .wsClosed 1000 ""] := by
  refine ⟨rfl, fun h => ?_⟩
  have honce := h.once
  cases honce

/-- A host closes a transport, and a peer loses its host; both are told once. -/
theorem closeContract_iff_kicked :
    HostTransports.machine.CloseContract (HostTransports.ends 0 1) (HostTransports.told 0)
        (HostTransports.sentBy 0) ((HostTransports.opened "token").attached.onFrame (.peerUp 1)).1
        [.send 0 true [7], .close 0, .frame (.peerDown 1), .wsClosed] ∧
      PeerTransport.machine.CloseContract PeerTransport.ends PeerTransport.told PeerTransport.sent
        { PeerTransport.new with onClose := true } [.frame .hostGone, .close, .wsClosed 1000 ""] := by
  have hvirtual : ((HostTransports.opened "token").attached.onFrame (.peerUp 1)).1.Live 0 1 :=
    HostTransports.live_peerUp (HostTransports.unattached_opened "token") rfl (by decide)
  have hcontract := closeContract_iff (P := { PeerTransport.new with onClose := true }) (by decide)
    hvirtual ⟨rfl, rfl⟩ [.send 0 true [7], .close 0, .frame (.peerDown 1), .wsClosed] (by decide)
    [.frame .hostGone, .close, .wsClosed 1000 ""]
  exact ⟨hcontract.1.mpr fun _ => by decide, hcontract.2.mpr (by decide)⟩

end ScreenSharing.Net
