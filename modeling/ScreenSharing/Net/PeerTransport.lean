import Mathlib.Data.List.Nodup
import ScreenSharing.Lib.Machine
import ScreenSharing.Net.RelayWire

/-!
# A peer's transport, with its handlers

`PeerTransport` has also the fields of `RelayPeerLink` that `PeerLink` leaves out: the handlers that are set, the
WebSocket below, and which callback `onHandoffReady` was given.

In each round of a graceful handoff HOST_CLAIMED arrives and `onHandoffReady` is called, one before the
other or the other way round.  The link has one slot for the callback and one flag for all rounds, and it
does not empty the slot when the callback has been called.  So a claim that arrives first, in a round after
the first one, calls the callback of the round before (`ready_iff_registersFirst`).
-/

namespace ScreenSharing.Net

open Lib hiding Bytes readUInt32BE
open Relay hiding readUInt32BE

/-- The fields of the `RelayPeerLink` class. -/
structure PeerTransport where
  closed : Bool
  /-- is the WebSocket in the state OPEN? -/
  wsOpen : Bool
  keepalive : Bool
  onMessage : Bool
  onClose : Bool
  onHandoffReady : Option ℕ
  handoffAlreadyClaimed : Bool
  deriving DecidableEq

namespace PeerTransport

inductive Event
  | frame (frame : Frame)
  /-- the `close` event of the WebSocket -/
  | wsClosed (code : ℕ) (reason : String)
  | send (isBinary : Bool) (payload : Bytes)
  | close
  | onMessage
  | onClose
  | onHandoffReady (callback : ℕ)
  /-- the keepalive interval -/
  | tick
  deriving DecidableEq

inductive Output
  | sent (data : Bytes)
  | wsClose
  | message (isBinary : Bool) (payload : Bytes)
  | close (code : ℕ) (reason : String)
  | handoffReady (callback : ℕ)
  deriving DecidableEq

/-- A link that `open` has returned. -/
def new : PeerTransport := ⟨false, true, true, false, false, none, false⟩

variable (P : PeerTransport)

/-- What the WebSocket sends. -/
def write (data : Bytes) : List Output := if P.wsOpen then [.sent data] else []

/-- `#fail`. -/
def fail (code : ℕ) (reason : String) : PeerTransport × List Output :=
  if P.closed then (P, [])
  else ({ P with closed := true, keepalive := false }, if P.onClose then [.close code reason] else [])

/-- The message handler. -/
def onFrame : Frame → PeerTransport × List Output
  | .dataToPeer isBinary payload | .dataToHost _ isBinary payload =>
    (P, if P.onMessage then [.message isBinary payload] else [])
  | .hostGone => P.fail 1001 "host gone"
  | .hostClaimed =>
    match P.onHandoffReady with
    | some callback => (P, [.handoffReady callback])
    | none => ({ P with handoffAlreadyClaimed := true }, [])
  | _ => (P, [])

/-- The method `onHandoffReady`. -/
def register (callback : ℕ) : PeerTransport × List Output :=
  if P.handoffAlreadyClaimed then
    ({ P with onHandoffReady := some callback, handoffAlreadyClaimed := false },
      [.handoffReady callback])
  else ({ P with onHandoffReady := some callback }, [])

/-- The method `close`. -/
def shut : PeerTransport × List Output :=
  if P.closed then (P, [])
  else ({ P with closed := true, keepalive := false, wsOpen := false },
    if P.wsOpen then [.wsClose] else [])

def react : Event → PeerTransport × List Output
  | .frame frame => P.onFrame frame
  | .wsClosed code reason =>
    { P with wsOpen := false }.fail code (if reason = "" then "relay closed" else reason)
  | .send isBinary payload => (P, if P.closed then [] else P.write (encodeDataP isBinary payload))
  | .close => P.shut
  | .onMessage => ({ P with onMessage := true }, [])
  | .onClose => ({ P with onClose := true }, [])
  | .onHandoffReady callback => P.register callback
  | .tick => (P, if P.keepalive then P.write encodePing else [])

def machine : Machine PeerTransport Event Output := ⟨fun _ _ => True, react⟩

/-! ### Rounds of a handoff -/

/-- What happens in a handoff. -/
inductive Handoff
  | claimed
  | registered (callback : ℕ)
  deriving DecidableEq

/-- What an event is in a handoff. -/
def Event.handoff : Event → Option Handoff
  | .frame .hostClaimed => some .claimed
  | .onHandoffReady callback => some (.registered callback)
  | _ => none

/-- The order in a round. -/
inductive Order
  | claimsFirst
  | registersFirst
  deriving DecidableEq

/-- One round, in which the callback with the number of the round is registered. -/
def round (i : ℕ) : Order → List Handoff
  | .claimsFirst => [.claimed, .registered i]
  | .registersFirst => [.registered i, .claimed]

/-- The rounds from number `i` on. -/
def rounds (i : ℕ) : List Order → List Handoff
  | [] => []
  | order :: orders => round i order ++ rounds (i + 1) orders

theorem rounds_claimsFirst (i : ℕ) (orders : List Order) :
    rounds i (.claimsFirst :: orders) = .claimed :: .registered i :: rounds (i + 1) orders := rfl

theorem rounds_registersFirst (i : ℕ) (orders : List Order) :
    rounds i (.registersFirst :: orders) = .registered i :: .claimed :: rounds (i + 1) orders := rfl

/-- The callbacks that are called. -/
def called (out : List Output) : List ℕ :=
  out.filterMap fun o =>
    match o with
    | .handoffReady callback => some callback
    | _ => none

/-- **Readiness is signalled once for each handoff**: the callback of every round is called exactly once,
and not before both things have happened in it. -/
structure ReadyOnce (n : ℕ) (es : List Event) : Prop where
  once : ∀ i < n, (called (machine.trace new es)).count i = 1
  both : ∀ pre post, es = pre ++ post → ∀ i ∈ called (machine.trace new pre),
    2 * i + 2 ≤ (pre.filterMap Event.handoff).length

/-! ### The slot and the flag -/

/-- The slot, the flag, and what is called. -/
def answer (slot : Option ℕ) (claimed : Bool) : List Handoff → List ℕ
  | [] => []
  | .claimed :: hs =>
    match slot with
    | some callback => callback :: answer slot claimed hs
    | none => answer slot true hs
  | .registered callback :: hs =>
    if claimed then callback :: answer (some callback) false hs else answer (some callback) claimed hs

@[simp] theorem answer_claimed_none (claimed : Bool) (hs : List Handoff) :
    answer none claimed (.claimed :: hs) = answer none true hs := rfl

@[simp] theorem answer_claimed_some (k : ℕ) (claimed : Bool) (hs : List Handoff) :
    answer (some k) claimed (.claimed :: hs) = k :: answer (some k) claimed hs := rfl

@[simp] theorem answer_registered (slot : Option ℕ) (claimed : Bool) (k : ℕ) (hs : List Handoff) :
    answer slot claimed (.registered k :: hs) =
      if claimed then k :: answer (some k) false hs else answer (some k) claimed hs := rfl

theorem called_append (out out' : List Output) : called (out ++ out') = called out ++ called out' :=
  List.filterMap_append

/-- **Only the handoff matters** for what is called. -/
theorem called_trace (es : List Event) : ∀ P : PeerTransport, called (machine.trace P es) =
    answer P.onHandoffReady P.handoffAlreadyClaimed (es.filterMap Event.handoff) := by
  induction es with
  | nil => exact fun _ => rfl
  | cons e es ih =>
    intro P
    have hcons : called (machine.trace P (e :: es)) =
        called (react P e).2 ++ called (machine.trace (react P e).1 es) := called_append ..
    rw [hcons, ih]
    -- an event that leaves the slot and the flag alone, and calls nothing
    have haside : e.handoff = none → (react P e).1.onHandoffReady = P.onHandoffReady →
        (react P e).1.handoffAlreadyClaimed = P.handoffAlreadyClaimed → called (react P e).2 = [] →
        called (react P e).2 ++ answer (react P e).1.onHandoffReady
          (react P e).1.handoffAlreadyClaimed (es.filterMap Event.handoff) =
          answer P.onHandoffReady P.handoffAlreadyClaimed ((e :: es).filterMap Event.handoff) := by
      intro hnone hslot hflag hcalled
      rw [hslot, hflag, hcalled, List.filterMap_cons_none hnone]
      rfl
    have hfail : ∀ (P : PeerTransport) (code : ℕ) (reason : String),
        (P.fail code reason).1.onHandoffReady = P.onHandoffReady ∧
          (P.fail code reason).1.handoffAlreadyClaimed = P.handoffAlreadyClaimed ∧
          called (P.fail code reason).2 = [] := by
      intro P code reason
      unfold fail
      split
      · exact ⟨rfl, rfl, rfl⟩
      · exact ⟨rfl, rfl, by split <;> rfl⟩
    cases e with
    | frame frame =>
      cases frame with
      | hostClaimed =>
        have hcons' : (Event.frame .hostClaimed :: es).filterMap Event.handoff =
            .claimed :: es.filterMap Event.handoff := rfl
        rw [hcons']
        cases hslot : P.onHandoffReady with
        | none => simp [react, onFrame, called, hslot]
        | some callback => simp [react, onFrame, called, hslot]
      | hostGone =>
        obtain ⟨hslot, hflag, hcalled⟩ := hfail P 1001 "host gone"
        exact haside rfl hslot hflag hcalled
      | dataToPeer isBinary payload | dataToHost _ isBinary payload =>
        refine haside rfl rfl rfl ?_
        show called (if P.onMessage then [Output.message isBinary payload] else []) = []
        split <;> rfl
      | _ => exact haside rfl rfl rfl rfl
    | wsClosed code reason =>
      obtain ⟨hslot, hflag, hcalled⟩ :=
        hfail { P with wsOpen := false } code (if reason = "" then "relay closed" else reason)
      exact haside rfl hslot hflag hcalled
    | send isBinary payload =>
      refine haside rfl rfl rfl ?_
      show called (if P.closed then [] else P.write _) = []
      unfold write
      split
      · rfl
      · split <;> rfl
    | close =>
      have hshut : (P.shut).1.onHandoffReady = P.onHandoffReady ∧
          (P.shut).1.handoffAlreadyClaimed = P.handoffAlreadyClaimed ∧ called (P.shut).2 = [] := by
        unfold shut
        split
        · exact ⟨rfl, rfl, rfl⟩
        · exact ⟨rfl, rfl, by split <;> rfl⟩
      exact haside rfl hshut.1 hshut.2.1 hshut.2.2
    | onMessage => exact haside rfl rfl rfl rfl
    | onClose => exact haside rfl rfl rfl rfl
    | onHandoffReady callback =>
      have hcons' : (Event.onHandoffReady callback :: es).filterMap Event.handoff =
          .registered callback :: es.filterMap Event.handoff := rfl
      rw [hcons']
      cases hflag : P.handoffAlreadyClaimed with
      | true => simp [react, register, called, hflag]
      | false => simp [react, register, called, hflag]
    | tick =>
      refine haside rfl rfl rfl ?_
      show called (if P.keepalive then P.write _ else []) = []
      unfold write
      split
      · split <;> rfl
      · rfl

/-- The callbacks that the rounds from number `i` on call. -/
def calls (i : ℕ) : List Order → List ℕ
  | [] => []
  | .claimsFirst :: orders => (i - 1) :: calls (i + 1) orders
  | .registersFirst :: orders => i :: calls (i + 1) orders

/-- **After the first round**, a claim that comes first calls the callback of the round before. -/
theorem answer_rounds (orders : List Order) : ∀ k,
    answer (some k) false (rounds (k + 1) orders) = calls (k + 1) orders := by
  induction orders with
  | nil => exact fun _ => rfl
  | cons order orders ih =>
    intro k
    cases order with
    | claimsFirst => simp [rounds, round, calls, ih]
    | registersFirst => simp [rounds, round, calls, ih]

/-- The first round calls its callback in either order. -/
theorem answer_rounds_first (order : Order) (orders : List Order) :
    answer none false (rounds 0 (order :: orders)) = 0 :: calls 1 orders := by
  cases order with
  | claimsFirst => simp [rounds, round, answer_rounds]
  | registersFirst => simp [rounds, round, answer_rounds]

/-- **No callback is called before its round is complete**; `current` is the callback of the round before
round `n`. -/
theorem le_of_mem_answer (orders : List Order) : ∀ {n : ℕ} {current : Option ℕ},
    (∀ k ∈ current, k + 1 = n) → ∀ hs, hs <+: rounds n orders →
    ∀ i ∈ answer current false hs, 2 * i + 2 ≤ 2 * n + hs.length := by
  induction orders with
  | nil =>
    intro n current _ hs hpre i hi
    rw [List.prefix_nil.1 hpre] at hi
    cases hi
  | cons order orders ih =>
    intro n current hcurrent hs hpre i hi
    match hs, hpre, hi with
    | [], _, hi => cases hi
    | [h], hpre, hi =>
      cases order with
      | claimsFirst =>
        obtain rfl : h = .claimed := (List.cons_prefix_cons.1 hpre).1
        cases current with
        | none => simp [answer] at hi
        | some k =>
          obtain rfl : i = k := by simpa [answer] using hi
          have hround := hcurrent i rfl
          omega
      | registersFirst =>
        obtain rfl : h = .registered n := (List.cons_prefix_cons.1 hpre).1
        simp [answer] at hi
    | h :: h' :: hs, hpre, hi =>
      -- a whole round calls its own callback, or the one before
      have hrest : hs <+: rounds (n + 1) orders ∧ (i ≤ n ∨ i ∈ answer (some n) false hs) := by
        cases order with
        | claimsFirst =>
          obtain ⟨rfl, rfl, htail⟩ :
              h = .claimed ∧ h' = .registered n ∧ hs <+: rounds (n + 1) orders := by
            simpa [rounds_claimsFirst] using hpre
          refine ⟨htail, ?_⟩
          cases current with
          | none =>
            have hi' : i = n ∨ i ∈ answer (some n) false hs := by simpa using hi
            exact hi'.imp_left Nat.le_of_eq
          | some k =>
            have hi' : i = k ∨ i ∈ answer (some n) false hs := by simpa using hi
            have hround := hcurrent k rfl
            exact hi'.imp_left fun heq => by omega
        | registersFirst =>
          obtain ⟨rfl, rfl, htail⟩ :
              h = .registered n ∧ h' = .claimed ∧ hs <+: rounds (n + 1) orders := by
            simpa [rounds_registersFirst] using hpre
          have hi' : i = n ∨ i ∈ answer (some n) false hs := by simpa using hi
          exact ⟨htail, hi'.imp_left Nat.le_of_eq⟩
      have hnext : ∀ k ∈ some n, k + 1 = n + 1 := by
        intro k hk
        cases hk
        rfl
      rw [List.length_cons, List.length_cons]
      obtain hle | hi' := hrest.2
      · omega
      · have hle := ih hnext hs hrest.1 i hi'
        omega

/-- With the callback registered first in every round, each callback is called in its own round. -/
theorem calls_of_registersFirst {orders : List Order} (h : ∀ o ∈ orders, o = .registersFirst) :
    ∀ i, calls i orders = List.range' i orders.length := by
  induction orders with
  | nil => exact fun _ => rfl
  | cons order orders ih =>
    intro i
    obtain rfl := h order List.mem_cons_self
    rw [calls, ih fun o ho => h o (List.mem_cons_of_mem _ ho)]
    rfl

/-- Where a claim comes first, some callback is called twice. -/
theorem two_le_count {orders : List Order} (h : Order.claimsFirst ∈ orders) :
    ∀ k, ∃ i < k + 1 + orders.length, 2 ≤ (k :: calls (k + 1) orders).count i := by
  induction orders with
  | nil => cases h
  | cons order orders ih =>
    intro k
    cases order with
    | claimsFirst =>
      refine ⟨k, by omega, ?_⟩
      simp [calls]
    | registersFirst =>
      have htail : Order.claimsFirst ∈ orders := by simpa using h
      obtain ⟨i, hlt, hcount⟩ := ih htail (k + 1)
      refine ⟨i, by simp only [List.length_cons]; omega, ?_⟩
      calc 2 ≤ ((k + 1) :: calls (k + 1 + 1) orders).count i := hcount
        _ ≤ (k :: calls (k + 1) (.registersFirst :: orders)).count i := List.count_le_count_cons

/-- **Readiness is signalled once for each handoff** exactly if, in every round after the first one, the
callback is registered before the claim arrives. -/
theorem ready_iff_registersFirst (orders : List Order) (es : List Event)
    (hes : es.filterMap Event.handoff = rounds 0 orders) :
    ReadyOnce orders.length es ↔ ∀ o ∈ orders.tail, o = .registersFirst := by
  have hcalled := called_trace es new
  rw [hes] at hcalled
  constructor
  · intro h o ho
    cases orders with
    | nil => cases ho
    | cons order orders =>
      cases o with
      | registersFirst => rfl
      | claimsFirst =>
        rw [List.tail_cons] at ho
        obtain ⟨i, hlt, hcount⟩ := two_le_count ho 0
        have honce := h.once i (by simp only [List.length_cons]; omega)
        have hcalls : called (machine.trace new es) = 0 :: calls (0 + 1) orders :=
          hcalled.trans (answer_rounds_first order orders)
        rw [hcalls] at honce
        omega
  · intro h
    constructor
    · intro i hi
      cases orders with
      | nil => cases hi
      | cons order orders =>
        rw [List.tail_cons] at h
        have hrange : called (machine.trace new es) = List.range' 0 (orders.length + 1) :=
          calc called (machine.trace new es) = answer none false (rounds 0 (order :: orders)) := hcalled
            _ = 0 :: calls 1 orders := answer_rounds_first order orders
            _ = 0 :: List.range' 1 orders.length := by rw [calls_of_registersFirst h]
            _ = List.range' 0 (orders.length + 1) := rfl
        rw [hrange]
        exact List.count_eq_one_of_mem List.nodup_range' (by simpa using hi)
    · intro pre post heq i hi
      rw [called_trace] at hi
      have hpre : pre.filterMap Event.handoff <+: rounds 0 orders := by
        rw [← hes, heq, List.filterMap_append]
        exact List.prefix_append _ _
      have hle := le_of_mem_answer orders (fun _ hk => by cases hk) _ hpre i hi
      omega

/-- Two handoffs; in the second one the claim is faster. -/
def fasterRun : List Event :=
  [.onHandoffReady 0, .frame .hostClaimed, .frame .hostClaimed, .onHandoffReady 1]

/-- **The claim of the second handoff calls the callback of the first one.** -/
theorem fasterRun_calls :
    fasterRun.filterMap Event.handoff = rounds 0 [.registersFirst, .claimsFirst] ∧
      called (machine.trace new fasterRun) = [0, 0] ∧ ¬ ReadyOnce 2 fasterRun := by
  refine ⟨rfl, rfl, fun h => ?_⟩
  have honce := h.once 1 (by omega)
  cases honce

/-- Two handoffs; the callback is registered in time. -/
theorem ready_iff_inTime : ReadyOnce 2
    [.frame .hostClaimed, .onHandoffReady 0, .onHandoffReady 1, .frame .hostClaimed] :=
  (ready_iff_registersFirst [.claimsFirst, .registersFirst] _ rfl).2 (by decide)

end PeerTransport

end ScreenSharing.Net
