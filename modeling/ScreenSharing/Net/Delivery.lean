import ScreenSharing.Net.Finality

/-!
# What a connection delivers

`Dispatch` is a `Session` under the scheduling of JavaScript: the transport delivers frames only within a
turn of its own, a turn begins when no `#flush` is queued, and a queued `#flush` runs when no call is left.
It records the early and sealed frames in the order in which they came and were read, and the items that
were decoded and emitted.  A `once` listener is one that is taken off as it is called.

`#deliver` looks at the listeners, and not at the inbox.  What arrives while a listener is there overtakes
what is still held for the next `#flush`: nothing is lost or emitted twice, but the order may be wrong
(`delivers_iff`).
-/

namespace ScreenSharing.Net

open Lib Crypto

/-! ### What is held -/

def Call.held : Call → List InboxItem
  | .flushing held => held
  | _ => []

def Call.early : Call → List Bytes
  | .draining early => early
  | _ => []

def Call.isDraining : Call → Bool
  | .draining _ => true
  | _ => false

namespace Session

/-- Is `upgrade` handing out the early frames? -/
def draining (S : Session) : Bool := S.calls.any Call.isDraining

/-- What a running `#flush` has not come to. -/
def rest (S : Session) : List InboxItem := S.calls.flatMap Call.held

/-- What was decoded and not emitted. -/
def held (S : Session) : List InboxItem := S.conn.inbox ++ S.rest

/-- The early frames that nobody has read. -/
def unread (S : Session) : List Bytes := S.calls.flatMap Call.early ++ S.conn.pendingBinary

variable {J : Type*} (decipher : Decipher) (wire : Wire J) (S : Session)

/-- What `#onMessage` makes of a frame. -/
def decoded (data : Bytes) (isBinary : Bool) : Option InboxItem :=
  match (S.conn.receive decipher wire data isBinary).2 with
  | .ok item => item
  | .error _ => none

/-- The item that a step decodes. -/
def arrives : SessionEvent → Option InboxItem
  | .frame data isBinary => S.decoded decipher wire data isBinary
  | .returned =>
    match S.calls with
    | .draining (frame :: _) :: _ => S.decoded decipher wire frame true
    | _ => none
  | _ => none

/-- The item that a running `#flush` comes to. -/
def comesUp : SessionEvent → Option InboxItem
  | .returned =>
    match S.calls with
    | .flushing (item :: _) :: _ => some item
    | _ => none
  | _ => none

/-- The binary frame that a step looks at. -/
def looksAt : SessionEvent → Option Bytes
  | .frame data true => some data
  | .returned =>
    match S.calls with
    | .draining (frame :: _) :: _ => some frame
    | _ => none
  | _ => none

end Session

/-! ### The machine -/

def SessionOutput.item : SessionOutput → Option InboxItem
  | .emitted item => some item
  | _ => none

def SessionEvent.isFlush : SessionEvent → Bool
  | .flush => true
  | _ => false

/-- The binary frame that comes in. -/
def SessionEvent.binary : SessionEvent → Option Bytes
  | .frame data true => some data
  | _ => none

/-- A session, and what has come of it. -/
structure Dispatch where
  session : Session
  /-- is the transport within a turn? -/
  turn : Bool
  /-- the binary frames that came in, and those that were read -/
  came : List Bytes
  read : List Bytes
  arrived : List InboxItem
  emitted : List InboxItem

inductive DispatchEvent
  /-- the transport begins a turn -/
  | turn
  | session (e : SessionEvent)

/-- The connection goes on by itself. -/
def DispatchEvent.own : DispatchEvent → Bool
  | .session .returned | .session .flush => true
  | _ => false

namespace Dispatch

def new (role : ConnectionRole) : Dispatch := ⟨.new role, false, [], [], [], []⟩

variable {J : Type*} (gcm : Gcm) (decipher : Decipher) (wire : Wire J) (D : Dispatch)

def step : DispatchEvent → Dispatch × List SessionOutput
  | .turn => ({ D with turn := true }, [])
  | .session e =>
    let (S, out) := D.session.react gcm decipher wire e
    let item := D.session.arrives decipher wire e
    ({ session := S
       turn := D.turn && !e.isFlush
       came := D.came ++ e.binary.toList
       read := D.read ++ if item.isSome then (D.session.looksAt e).toList else []
       arrived := D.arrived ++ item.toList
       emitted := D.emitted ++ out.filterMap SessionOutput.item }, out)

/-- When an event can happen; no listener throws. -/
def enabled : DispatchEvent → Prop
  | .turn => D.session.calls = [] ∧ D.session.flushes = 0
  | .session (.frame ..) => D.turn = true ∧ D.session.calls = []
  | .session .flush => 0 < D.session.flushes ∧ D.session.calls = []
  | .session .unwound => False
  | .session _ => True

instance (e : DispatchEvent) : Decidable (D.enabled e) := by
  apply e.casesOn (motive := fun e => Decidable (D.enabled e))
  case turn => unfold enabled; infer_instance
  case session =>
    intro e
    apply e.casesOn (motive := fun e => Decidable (D.enabled (.session e))) <;> intros <;> unfold enabled <;>
      infer_instance

end Dispatch

/-- A connection between its transport and its listeners. -/
def dispatch {J : Type*} (gcm : Gcm) (decipher : Decipher) (wire : Wire J) :
    Machine Dispatch DispatchEvent SessionOutput :=
  ⟨Dispatch.enabled, Dispatch.step gcm decipher wire⟩

namespace Dispatch

variable {J : Type*} (gcm : Gcm) (decipher : Decipher) (wire : Wire J)

instance (D : Dispatch) (e : DispatchEvent) : Decidable ((dispatch gcm decipher wire).enabled D e) :=
  inferInstanceAs (Decidable (D.enabled e))

/-! ### What is asked of a run -/

def ofKind (name : EventName) (items : List InboxItem) : List InboxItem :=
  items.filter fun item => item.ev = name

/-- The items of a kind are emitted in the order in which they arrived, and what is left of them is held. -/
def InOrder (D : Dispatch) : Prop :=
  ∀ name, ofKind name D.emitted ++ ofKind name D.session.held = ofKind name D.arrived

/-- No call is left, and no `#flush` is queued. -/
def AtRest (S : Session) : Prop := S.calls = [] ∧ S.flushes = 0

/-- **What is asked of a step**, and of the state behind it. -/
structure Delivers (D : Dispatch) (e : DispatchEvent) : Prop where
  inOrder : InOrder ((dispatch gcm decipher wire).next D e)
  /-- frames are read at most once, in the order in which they came; an early one that throws takes those
  behind it along -/
  reads : (((dispatch gcm decipher wire).next D e).read ++
    ((dispatch gcm decipher wire).next D e).session.unread).Sublist
      ((dispatch gcm decipher wire).next D e).came
  heard : ∀ item, .emitted item ∈ (dispatch gcm decipher wire).out D e →
    0 < D.session.listeners item.ev
  /-- nothing is held for a listener that stays -/
  flushed : AtRest ((dispatch gcm decipher wire).next D e).session →
    ∀ item ∈ ((dispatch gcm decipher wire).next D e).session.held,
      ((dispatch gcm decipher wire).next D e).session.listeners item.ev = 0
  /-- and it comes to rest by itself -/
  settles : ∃ es, (∀ e ∈ es, e.own = true) ∧
    (dispatch gcm decipher wire).Valid ((dispatch gcm decipher wire).next D e) es ∧
    AtRest ((dispatch gcm decipher wire).exec ((dispatch gcm decipher wire).next D e) es).session

/-- What is delivered to a listener has nothing else of its kind ahead of it in the inbox. -/
def NothingAhead (D : Dispatch) : DispatchEvent → Prop
  | .turn => True
  | .session e => ∀ item, D.session.arrives decipher wire e = some item ∨ D.session.comesUp e = some item →
      0 < D.session.listeners item.ev → ∀ other ∈ D.session.conn.inbox, other.ev = item.ev → other = item

variable {gcm decipher wire} {S : Session}

/-! ### What a step does to the items -/

/-- A step from `S` to `S'`, by the item that it decodes or that comes up, and by what it emits. -/
inductive Moves (S S' : Session) (arrives comesUp : Option InboxItem) (emitted : List InboxItem) : Prop
  | still (arrives : arrives = none) (comesUp : comesUp = none) (emitted : emitted = [])
      (inbox : S'.conn.inbox = S.conn.inbox) (rest : S'.rest = S.rest)
  | heard {item : InboxItem} (arrives : arrives = some item) (comesUp : comesUp = none)
      (listens : 0 < S.listeners item.ev) (emitted : emitted = [item])
      (inbox : S'.conn.inbox = S.conn.inbox) (rest : S'.rest = S.rest)
  | kept {item : InboxItem} (arrives : arrives = some item) (comesUp : comesUp = none)
      (listens : S.listeners item.ev = 0) (emitted : emitted = [])
      (inbox : S'.conn.inbox = S.conn.inbox ++ [item]) (rest : S'.rest = S.rest)
  | heardAgain {item : InboxItem} (arrives : arrives = none) (comesUp : comesUp = some item)
      (listens : 0 < S.listeners item.ev) (emitted : emitted = [item])
      (inbox : S'.conn.inbox = S.conn.inbox) (rest : S.rest = item :: S'.rest)
  | keptAgain {item : InboxItem} (arrives : arrives = none) (comesUp : comesUp = some item)
      (listens : S.listeners item.ev = 0) (emitted : emitted = [])
      (inbox : S'.conn.inbox = S.conn.inbox ++ [item]) (rest : S.rest = item :: S'.rest)
  | taken (arrives : arrives = none) (comesUp : comesUp = none) (emitted : emitted = [])
      (inbox : S'.conn.inbox = []) (before : S.rest = []) (rest : S'.rest = S.conn.inbox)

/-- `#deliver` emits an item, or holds it. -/
theorem deliver_cases (S : Session) (item : InboxItem) :
    (0 < S.listeners item.ev ∧ S.deliver item = (S, [.emitted item])) ∨
      S.listeners item.ev = 0 ∧ S.deliver item = ({ S with conn := S.conn.hold item }, []) := by
  unfold Session.deliver
  split
  · next hlistens => exact .inl ⟨hlistens, rfl⟩
  · next hnone => exact .inr ⟨Nat.eq_zero_of_not_pos hnone, rfl⟩

/-- An item is delivered as it arrives. -/
theorem moves_deliver {S₁ : Session} (item : InboxItem) (hlisteners : S₁.listeners = S.listeners)
    (hinbox : S₁.conn.inbox = S.conn.inbox) (hrest : S₁.rest = S.rest) :
    Moves S (S₁.deliver item).1 (some item) none
      ((S₁.deliver item).2.filterMap SessionOutput.item) := by
  obtain ⟨hlistens, hdeliver⟩ | ⟨hnone, hdeliver⟩ := deliver_cases S₁ item
  · rw [hlisteners] at hlistens
    rw [hdeliver]
    exact .heard rfl rfl hlistens rfl hinbox hrest
  · rw [hlisteners] at hnone
    rw [hdeliver]
    exact .kept rfl rfl hnone rfl (congrArg (· ++ [item]) hinbox) hrest

/-- An item is delivered as it comes up in a `#flush`. -/
theorem moves_deliverAgain {S₁ : Session} (item : InboxItem) (hlisteners : S₁.listeners = S.listeners)
    (hinbox : S₁.conn.inbox = S.conn.inbox) (hrest : S.rest = item :: S₁.rest) :
    Moves S (S₁.deliver item).1 none (some item)
      ((S₁.deliver item).2.filterMap SessionOutput.item) := by
  obtain ⟨hlistens, hdeliver⟩ | ⟨hnone, hdeliver⟩ := deliver_cases S₁ item
  · rw [hlisteners] at hlistens
    rw [hdeliver]
    exact .heardAgain rfl rfl hlistens rfl hinbox hrest
  · rw [hlisteners] at hnone
    rw [hdeliver]
    exact .keptAgain rfl rfl hnone rfl (congrArg (· ++ [item]) hinbox) hrest

theorem onMessage_of_decoded {data : Bytes} {isBinary : Bool}
    (onError : ConnectionError → Session → Session × List SessionOutput) {item : InboxItem}
    (h : S.decoded decipher wire data isBinary = some item) :
    (S.conn.receive decipher wire data isBinary).2 = .ok (some item) ∧
      S.onMessage decipher wire data isBinary onError =
        { S with conn := (S.conn.receive decipher wire data isBinary).1 }.deliver item := by
  unfold Session.decoded at h
  unfold Session.onMessage
  cases hreceive : S.conn.receive decipher wire data isBinary with
  | mk conn result =>
    rw [hreceive] at h
    cases result with
    | error e => cases h
    | ok found =>
      cases h
      exact ⟨rfl, rfl⟩

theorem onMessage_of_none {data : Bytes} {isBinary : Bool}
    (onError : ConnectionError → Session → Session × List SessionOutput)
    (h : S.decoded decipher wire data isBinary = none) :
    S.onMessage decipher wire data isBinary onError =
        ({ S with conn := (S.conn.receive decipher wire data isBinary).1 }, []) ∨
      ∃ e, S.onMessage decipher wire data isBinary onError =
        onError e { S with conn := (S.conn.receive decipher wire data isBinary).1 } := by
  unfold Session.decoded at h
  unfold Session.onMessage
  cases hreceive : S.conn.receive decipher wire data isBinary with
  | mk conn result =>
    rw [hreceive] at h
    cases result with
    | error e => exact .inr ⟨e, rfl⟩
    | ok found =>
      cases h
      exact .inl rfl

/-- `#fail` moves nothing. -/
theorem fail_keeps (S : Session) (e : ConnectionError) :
    (S.fail e).1.conn = S.conn ∧ (S.fail e).1.rest = S.rest ∧
      (S.fail e).2.filterMap SessionOutput.item = [] := by
  unfold Session.fail
  split
  · exact ⟨rfl, rfl, rfl⟩
  · split <;> exact ⟨rfl, rfl, rfl⟩

theorem close_keeps (S : Session) (code : ℕ) (reason : String) :
    (S.close code reason).1.conn.inbox = S.conn.inbox ∧ (S.close code reason).1.calls = S.calls ∧
      (S.close code reason).2.filterMap SessionOutput.item = [] := by
  unfold Session.close
  split <;> exact ⟨rfl, rfl, rfl⟩

/-- A frame is heard, kept, or moves nothing. -/
theorem moves_frame (S : Session) (data : Bytes) (isBinary : Bool) :
    Moves S (S.react gcm decipher wire (.frame data isBinary)).1
      (S.decoded decipher wire data isBinary) none
      ((S.react gcm decipher wire (.frame data isBinary)).2.filterMap SessionOutput.item) := by
  have hkeeps := (S.conn.receive_keeps decipher wire data isBinary).1
  have hreact : S.react gcm decipher wire (.frame data isBinary) =
      S.onMessage decipher wire data isBinary fun e S => S.fail e := rfl
  rw [hreact]
  cases hdecoded : S.decoded decipher wire data isBinary with
  | none =>
    obtain hsame | ⟨e, herror⟩ := onMessage_of_none (fun e S => S.fail e) hdecoded
    · rw [hsame]
      exact .still rfl rfl rfl hkeeps rfl
    · rw [herror]
      obtain ⟨hconn, hrest, hout⟩ := fail_keeps
        { S with conn := (S.conn.receive decipher wire data isBinary).1 } e
      exact .still rfl rfl hout ((congrArg Connection.inbox hconn).trans hkeeps) hrest
  | some item =>
    obtain ⟨-, hmessage⟩ := onMessage_of_decoded (fun e S => S.fail e) hdecoded
    rw [hmessage]
    exact moves_deliver item rfl hkeeps rfl

/-- The innermost call goes on. -/
theorem moves_goOn (S : Session) :
    Moves S (S.goOn decipher wire).1 (S.arrives decipher wire .returned) (S.comesUp .returned)
      ((S.goOn decipher wire).2.filterMap SessionOutput.item) := by
  unfold Session.goOn Session.arrives Session.comesUp
  cases hcalls : S.calls with
  | nil => exact .still rfl rfl rfl rfl rfl
  | cons call calls =>
    have hrest : S.rest = call.held ++ calls.flatMap Call.held := by
      simp [Session.rest, hcalls]
    cases call with
    | failing =>
      obtain ⟨hinbox, hsame, hout⟩ := close_keeps { S with calls := calls } 1002 "protocol error"
      refine .still rfl rfl hout hinbox ?_
      show (Session.close _ _ _).1.calls.flatMap Call.held = S.rest
      rw [hsame, hrest]
      rfl
    | draining early =>
      cases early with
      | nil => exact .still rfl rfl rfl rfl hrest.symm
      | cons frame early =>
        -- the loop of `upgrade` reads the next early frame
        have hkeeps := (S.conn.receive_keeps decipher wire frame true).1
        have hsame : Session.decoded decipher wire { S with calls := .draining early :: calls } frame true =
            S.decoded decipher wire frame true := rfl
        dsimp only
        cases hdecoded : S.decoded decipher wire frame true with
        | none =>
          rw [hdecoded] at hsame
          obtain hgone | ⟨e, herror⟩ := onMessage_of_none
            (fun e S => ({ S with calls := calls }, [.thrown e])) hsame
          · rw [hgone]
            exact .still rfl rfl rfl hkeeps hrest.symm
          · rw [herror]
            exact .still rfl rfl rfl hkeeps hrest.symm
        | some item =>
          rw [hdecoded] at hsame
          obtain ⟨-, hmessage⟩ := onMessage_of_decoded
            (fun e S => ({ S with calls := calls }, [.thrown e])) hsame
          rw [hmessage]
          exact moves_deliver item rfl hkeeps hrest.symm
    | flushing held =>
      cases held with
      | nil => exact .still rfl rfl rfl rfl hrest.symm
      | cons item held => exact moves_deliverAgain item rfl rfl hrest

/-- **What a step does to the items.** -/
theorem moves_react {D : Dispatch} {e : SessionEvent} (henabled : D.enabled (.session e)) :
    Moves D.session (D.session.react gcm decipher wire e).1 (D.session.arrives decipher wire e)
      (D.session.comesUp e) ((D.session.react gcm decipher wire e).2.filterMap SessionOutput.item) := by
  cases e with
  | frame data isBinary => exact moves_frame D.session data isBinary
  | returned => exact moves_goOn D.session
  | flush =>
    have hbefore : D.session.rest = [] := by simp [Session.rest, henabled.2]
    refine .taken rfl rfl rfl rfl hbefore ?_
    simp [Session.react, Session.rest, Call.held, henabled.2]
  | unwound => exact henabled.elim
  | failed e =>
    obtain ⟨hconn, hrest, hout⟩ := fail_keeps D.session e
    exact .still rfl rfl hout (congrArg Connection.inbox hconn) hrest
  | close code reason =>
    obtain ⟨hinbox, hcalls, hout⟩ := close_keeps D.session code reason
    exact .still rfl rfl hout hinbox (congrArg (List.flatMap Call.held) hcalls)
  | upgrade keys =>
    obtain ⟨hinbox, -⟩ := Connection.upgrade_cases D.session.conn keys
    simp only [Session.react]
    cases hupgrade : D.session.conn.upgrade keys with
    | mk conn result =>
      rw [hupgrade] at hinbox
      cases result <;> exact .still rfl rfl rfl hinbox rfl
  | send body =>
    obtain ⟨hinbox, -⟩ := D.session.conn.send_keeps gcm wire body
    simp only [Session.react]
    cases hsend : D.session.conn.send gcm wire body with
    | mk conn result =>
      rw [hsend] at hinbox
      cases result <;> exact .still rfl rfl rfl hinbox rfl
  | sendHandshake msg =>
    simp only [Session.react]
    split <;> exact .still rfl rfl rfl rfl rfl
  | transportClosed code reason => exact .still rfl rfl rfl rfl rfl
  | on name => exact .still rfl rfl rfl rfl rfl
  | off name => exact .still rfl rfl rfl rfl rfl

/-! ### What a step does to the frames -/

/-- A step in which no frame is read or put aside. -/
structure Aside (S S' : Session) : Prop where
  pending : S'.conn.pendingBinary = S.conn.pendingBinary
  decoder : S'.conn.decoder.isSome = S.conn.decoder.isSome
  encrypted : S.conn.encrypted = true → S'.conn.encrypted = true
  early : S'.calls.flatMap Call.early = S.calls.flatMap Call.early
  draining : S'.draining = true → S.draining = true
  rest : S'.draining = true → ∀ item ∈ S'.rest, item ∈ S.rest

theorem Aside.refl : Aside S S := ⟨rfl, rfl, id, rfl, id, fun _ _ => id⟩

theorem aside_conn {conn : Connection} (hpending : conn.pendingBinary = S.conn.pendingBinary)
    (hdecoder : conn.decoder.isSome = S.conn.decoder.isSome)
    (hencrypted : S.conn.encrypted = true → conn.encrypted = true) :
    Aside S { S with conn := conn } :=
  ⟨hpending, hdecoder, hencrypted, rfl, id, fun _ _ => id⟩

theorem aside_fail (S : Session) (e : ConnectionError) : Aside S (S.fail e).1 := by
  unfold Session.fail
  split
  · exact Aside.refl
  · split
    · exact Aside.refl
    · exact ⟨rfl, rfl, id, rfl, id, fun _ _ => id⟩

theorem aside_close (S : Session) (code : ℕ) (reason : String) : Aside S (S.close code reason).1 := by
  unfold Session.close
  split
  · exact Aside.refl
  · exact ⟨rfl, rfl, id, rfl, id, fun _ _ => id⟩

theorem aside_deliver (S : Session) (item : InboxItem) : Aside S (S.deliver item).1 := by
  unfold Session.deliver
  split
  · exact Aside.refl
  · exact ⟨rfl, rfl, id, rfl, id, fun _ _ => id⟩

theorem Aside.trans {S₁ S₂ : Session} (h : Aside S S₁) (h' : Aside S₁ S₂) : Aside S S₂ where
  pending := h'.pending.trans h.pending
  decoder := h'.decoder.trans h.decoder
  encrypted := h'.encrypted ∘ h.encrypted
  early := h'.early.trans h.early
  draining := h.draining ∘ h'.draining
  rest hdraining item hitem := h.rest (h'.draining hdraining) item (h'.rest hdraining item hitem)

/-- The innermost call is over. -/
theorem aside_over {call : Call} {calls : List Call} (hcalls : S.calls = call :: calls)
    (hearly : call.early = []) (hheld : call.held = []) : Aside S { S with calls := calls } := by
  refine ⟨rfl, rfl, id, ?_, fun h => ?_, fun _ item hitem => ?_⟩
  · simp [hcalls, hearly]
  · have hany : calls.any Call.isDraining = true := h
    simp [Session.draining, hcalls, hany]
  · have hmem : item ∈ calls.flatMap Call.held := hitem
    simpa [Session.rest, hcalls, hheld] using hmem

variable (decipher wire) in
/-- The innermost call goes on, unless it reads an early frame. -/
theorem frames_goOn (S : Session) :
    (∃ frame early calls, S.calls = .draining (frame :: early) :: calls) ∨
      S.arrives decipher wire .returned = none ∧ Aside S (S.goOn decipher wire).1 := by
  unfold Session.goOn Session.arrives
  cases hcalls : S.calls with
  | nil => exact .inr ⟨rfl, Aside.refl⟩
  | cons call calls =>
    cases call with
    | failing => exact .inr ⟨rfl, (aside_over hcalls rfl rfl).trans (aside_close _ _ _)⟩
    | draining early =>
      cases early with
      | nil => exact .inr ⟨rfl, aside_over hcalls rfl rfl⟩
      | cons frame early => exact .inl ⟨frame, early, calls, rfl⟩
    | flushing held =>
      cases held with
      | nil => exact .inr ⟨rfl, aside_over hcalls rfl rfl⟩
      | cons item held =>
        refine .inr ⟨rfl, Aside.trans ?_ (aside_deliver _ item)⟩
        refine ⟨rfl, rfl, id, by simp [hcalls, Call.early], fun h => ?_, fun _ other hother => ?_⟩
        · simpa [Session.draining, hcalls, Call.isDraining] using h
        · have hmem : other ∈ held ++ calls.flatMap Call.held := hother
          simpa [Session.rest, hcalls, Call.held] using List.mem_cons_of_mem item hmem

variable (gcm decipher wire) in
/-- **Which steps have to do with frames.** -/
theorem frames_cases {D : Dispatch} {e : SessionEvent} (henabled : D.enabled (.session e)) :
    (∃ data isBinary, e = .frame data isBinary) ∨
      (e = .returned ∧ ∃ frame early calls, D.session.calls = .draining (frame :: early) :: calls) ∨
      (∃ keys, e = .upgrade keys ∧
        (D.session.conn.upgrade keys).2 = .ok D.session.conn.pendingBinary) ∨
      D.session.arrives decipher wire e = none ∧ e.binary = none ∧
        Aside D.session (D.session.react gcm decipher wire e).1 := by
  cases e with
  | frame data isBinary => exact .inl ⟨data, isBinary, rfl⟩
  | returned =>
    obtain hearly | ⟨hnone, haside⟩ := frames_goOn decipher wire D.session
    · exact .inr (.inl ⟨rfl, hearly⟩)
    · exact .inr (.inr (.inr ⟨hnone, rfl, haside⟩))
  | upgrade keys =>
    obtain ⟨-, ⟨error, herror, hpending, hdecoder, hencrypted⟩ | ⟨hok, -⟩⟩ :=
      Connection.upgrade_cases D.session.conn keys
    · refine .inr (.inr (.inr ⟨rfl, rfl, ?_⟩))
      simp only [Session.react]
      cases hupgrade : D.session.conn.upgrade keys with
      | mk conn result =>
        rw [hupgrade] at herror hpending hdecoder hencrypted
        have haside := aside_conn hpending (congrArg Option.isSome hdecoder) hencrypted
        cases result with
        | error e => exact haside
        | ok early => cases herror
    · exact .inr (.inr (.inl ⟨keys, rfl, hok⟩))
  | unwound => exact henabled.elim
  | failed e => exact .inr (.inr (.inr ⟨rfl, rfl, aside_fail _ e⟩))
  | close code reason => exact .inr (.inr (.inr ⟨rfl, rfl, aside_close _ code reason⟩))
  | transportClosed code reason => exact .inr (.inr (.inr ⟨rfl, rfl, aside_conn rfl rfl id⟩))
  | on name => exact .inr (.inr (.inr ⟨rfl, rfl, rfl, rfl, id, rfl, id, fun _ _ => id⟩))
  | off name => exact .inr (.inr (.inr ⟨rfl, rfl, rfl, rfl, id, rfl, id, fun _ _ => id⟩))
  | flush =>
    refine .inr (.inr (.inr ⟨rfl, rfl, rfl, rfl, id, rfl, fun h => h, fun h => ?_⟩))
    simp [Session.react, Session.draining, henabled.2, Call.isDraining] at h
  | send body =>
    obtain ⟨-, hpending, hdecoder, hencrypted⟩ := D.session.conn.send_keeps gcm wire body
    refine .inr (.inr (.inr ⟨rfl, rfl, ?_⟩))
    simp only [Session.react]
    cases hsend : D.session.conn.send gcm wire body with
    | mk conn result =>
      rw [hsend] at hpending hdecoder hencrypted
      have haside := aside_conn hpending (congrArg Option.isSome hdecoder) hencrypted.trans
      cases result <;> exact haside
  | sendHandshake msg =>
    refine .inr (.inr (.inr ⟨rfl, rfl, ?_⟩))
    simp only [Session.react]
    split <;> exact Aside.refl

/-! ### Frames are read in the order in which they came -/

/-- Before the `upgrade` only handshake messages are held; the early frames are read behind it. -/
structure Framed (D : Dispatch) : Prop where
  held : D.session.conn.encrypted = false → ∀ item ∈ D.session.held, item.ev = .handshake
  draining : D.session.draining = true →
    D.session.conn.encrypted = true ∧ ∀ item ∈ D.session.rest, item.ev = .handshake
  decoder : D.session.conn.decoder.isSome = true →
    D.session.conn.encrypted = true ∧ D.session.conn.pendingBinary = []
  reads : (D.read ++ D.session.unread).Sublist D.came

theorem framed_new (role : ConnectionRole) : Framed (.new role) where
  held _ := by simp [Dispatch.new, Session.new, Session.held, Session.rest, Connection.new]
  draining h := by cases h
  decoder h := by cases h
  reads := List.Sublist.refl _

theorem decoded_kind {data : Bytes} {isBinary : Bool} {item : InboxItem}
    (h : S.decoded decipher wire data isBinary = some item) :
    (S.conn.encrypted = false ∧ isBinary = false ∧ item.ev = .handshake) ∨
      (S.conn.encrypted = true ∧ isBinary = true ∧ S.conn.decoder.isSome = true ∧
        item.ev = .message) :=
  S.conn.receive_kind decipher wire (onMessage_of_decoded (fun e S => S.fail e) h).1

/-- The phase decides the kind of what arrives. -/
theorem arrives_kind {e : SessionEvent} {item : InboxItem}
    (h : S.arrives decipher wire e = some item) :
    S.conn.encrypted = false ∧ item.ev = .handshake ∨ S.conn.encrypted = true ∧ item.ev = .message := by
  have hkind : ∀ {data isBinary}, S.decoded decipher wire data isBinary = some item →
      S.conn.encrypted = false ∧ item.ev = .handshake ∨ S.conn.encrypted = true ∧ item.ev = .message := by
    intro data isBinary hdecoded
    obtain ⟨hplain, -, hev⟩ | ⟨hsealed, -, -, hev⟩ := decoded_kind hdecoded
    · exact .inl ⟨hplain, hev⟩
    · exact .inr ⟨hsealed, hev⟩
  cases e with
  | frame data isBinary => exact hkind h
  | returned =>
    simp only [Session.arrives] at h
    split at h
    · exact hkind h
    · cases h
  | _ => cases h

/-- Nothing of its kind is in the hands of a `#flush` when an item arrives. -/
theorem rest_of_arrives {D : Dispatch} (h : Framed D) {e : SessionEvent} {item : InboxItem}
    (henabled : D.enabled (.session e)) (harrives : D.session.arrives decipher wire e = some item) :
    ofKind item.ev D.session.rest = [] := by
  cases e with
  | frame data isBinary => simp [Session.rest, henabled.2, ofKind]
  | returned =>
    have hdraining : D.session.draining = true := by
      simp only [Session.arrives] at harrives
      split at harrives
      · next hcalls => simp [Session.draining, hcalls, Call.isDraining]
      · cases harrives
    obtain ⟨hsealed, hrest⟩ := h.draining hdraining
    obtain ⟨hplain, -⟩ | ⟨-, hev⟩ := arrives_kind harrives
    · simp [hsealed] at hplain
    · refine List.filter_eq_nil_iff.mpr fun other hother => ?_
      simp [hrest other hother, hev]
  | _ => cases harrives

/-- What `#onMessage` does to the frames, beyond `receive`. -/
theorem aside_onMessage {data : Bytes} {isBinary : Bool}
    {onError : ConnectionError → Session → Session × List SessionOutput}
    (herror : ∀ e S, Aside S (onError e S).1) :
    Aside { S with conn := (S.conn.receive decipher wire data isBinary).1 }
      (S.onMessage decipher wire data isBinary onError).1 := by
  cases hdecoded : S.decoded decipher wire data isBinary with
  | none =>
    obtain hsame | ⟨e, hfailed⟩ := onMessage_of_none onError hdecoded
    · rw [hsame]
      exact Aside.refl
    · rw [hfailed]
      exact herror e _
  | some item =>
    rw [(onMessage_of_decoded onError hdecoded).2]
    exact aside_deliver _ item

theorem unread_of_aside {S' : Session} (h : Aside S S') : S'.unread = S.unread := by
  simp only [Session.unread, h.early, h.pending]

/-- Where `upgrade` does not read them, no call holds early frames. -/
theorem early_of_draining (h : S.draining = false) : S.calls.flatMap Call.early = [] := by
  refine List.flatMap_eq_nil_iff.mpr fun call hcall => ?_
  have hnot := List.any_eq_false.mp h call hcall
  cases call with
  | draining early => exact absurd rfl hnot
  | flushing _ | failing => rfl

/-- What is held was held, or has just arrived. -/
theorem mem_held {S' : Session} {arrives comesUp : Option InboxItem} {emitted : List InboxItem}
    (h : Moves S S' arrives comesUp emitted) {item : InboxItem} (hitem : item ∈ S'.held) :
    item ∈ S.held ∨ arrives = some item := by
  unfold Session.held at hitem ⊢
  cases h with
  | still arrives comesUp emitted inbox rest | heard arrives comesUp listens emitted inbox rest =>
    rw [inbox, rest] at hitem
    exact .inl hitem
  | kept arrives comesUp listens emitted inbox rest =>
    rw [inbox, rest] at hitem
    simp only [List.mem_append, List.mem_singleton] at hitem ⊢
    obtain (hold | rfl) | hrest := hitem
    · exact .inl (.inl hold)
    · exact .inr arrives
    · exact .inl (.inr hrest)
  | heardAgain arrives comesUp listens emitted inbox rest =>
    rw [inbox] at hitem
    rw [rest]
    simp only [List.mem_append, List.mem_cons] at hitem ⊢
    obtain hold | hrest := hitem
    · exact .inl (.inl hold)
    · exact .inl (.inr (.inr hrest))
  | keptAgain arrives comesUp listens emitted inbox rest =>
    rw [inbox] at hitem
    rw [rest]
    simp only [List.mem_append, List.mem_cons, List.not_mem_nil, or_false] at hitem ⊢
    obtain (hold | hsame) | hrest := hitem
    · exact .inl (.inl hold)
    · exact .inl (.inr (.inl hsame))
    · exact .inl (.inr (.inr hrest))
  | taken arrives comesUp emitted inbox before rest =>
    rw [inbox, rest, List.nil_append] at hitem
    exact .inl (List.mem_append_left _ hitem)

theorem held_next {D : Dispatch} (h : Framed D) {e : SessionEvent} (henabled : D.enabled (.session e))
    (hsealed : D.session.conn.encrypted = true →
      (D.session.react gcm decipher wire e).1.conn.encrypted = true)
    (hplain : (D.session.react gcm decipher wire e).1.conn.encrypted = false) :
    ∀ item ∈ (D.session.react gcm decipher wire e).1.held, item.ev = .handshake := by
  have hbefore : D.session.conn.encrypted = false := by
    by_contra hnot
    rw [hsealed (by simpa using hnot)] at hplain
    cases hplain
  intro item hitem
  obtain hold | harrives := mem_held (moves_react henabled) hitem
  · exact h.held hbefore item hold
  · obtain ⟨-, hev⟩ | ⟨hsealed', -⟩ := arrives_kind harrives
    · exact hev
    · simp [hbefore] at hsealed'

theorem framed_frame {D : Dispatch} (h : Framed D) {data : Bytes} {isBinary : Bool}
    (henabled : D.enabled (.session (.frame data isBinary))) :
    Framed ((dispatch gcm decipher wire).next D (.session (.frame data isBinary))) := by
  obtain ⟨-, hencoder, hdecoder, hpending⟩ :=
    D.session.conn.receive_keeps decipher wire data isBinary
  have haside : Aside { D.session with conn := (D.session.conn.receive decipher wire data isBinary).1 }
      (D.session.react gcm decipher wire (.frame data isBinary)).1 :=
    aside_onMessage fun e S => aside_fail S e
  have hencrypted : (D.session.conn.receive decipher wire data isBinary).1.encrypted =
      D.session.conn.encrypted := congrArg Option.isSome hencoder
  have hsealed : D.session.conn.encrypted = true →
      (D.session.react gcm decipher wire (.frame data isBinary)).1.conn.encrypted = true :=
    fun hsealed => haside.encrypted (hencrypted.trans hsealed)
  have hunread : (D.session.react gcm decipher wire (.frame data isBinary)).1.unread =
      (D.session.conn.receive decipher wire data isBinary).1.pendingBinary := by
    rw [unread_of_aside haside]
    simp [Session.unread, henabled.2]
  have hread : D.session.unread = D.session.conn.pendingBinary := by
    simp [Session.unread, henabled.2]
  have hbefore := h.reads
  rw [hread] at hbefore
  refine ⟨held_next h henabled hsealed, fun hdraining => ?_, fun hsome => ?_, ?_⟩
  · have hnone := haside.draining hdraining
    simp [Session.draining, henabled.2] at hnone
  · obtain ⟨henc, hnil⟩ := h.decoder (hdecoder.symm.trans (haside.decoder.symm.trans hsome))
    refine ⟨hsealed henc, haside.pending.trans ?_⟩
    obtain hsame | ⟨hplain, -⟩ := hpending
    · exact hsame.trans hnil
    · simp [henc] at hplain
  · show (D.read ++ (if (D.session.decoded decipher wire data isBinary).isSome = true then _ else []) ++
      (D.session.react gcm decipher wire (.frame data isBinary)).1.unread).Sublist (D.came ++ _)
    rw [hunread]
    cases hdecoded : D.session.decoded decipher wire data isBinary with
    | none =>
      simp only [Option.isSome_none, Bool.false_eq_true, if_false, List.append_nil]
      obtain hsame | ⟨-, rfl, hlater⟩ := hpending
      · rw [hsame]
        exact hbefore.trans (List.sublist_append_left _ _)
      · rw [hlater, ← List.append_assoc]
        exact hbefore.append (List.Sublist.refl _)
    | some item =>
      have hsame : (D.session.conn.receive decipher wire data isBinary).1.pendingBinary =
          D.session.conn.pendingBinary := by
        obtain hsame | ⟨hplain, rfl, -⟩ := hpending
        · exact hsame
        · obtain ⟨-, htext, -⟩ | ⟨henc, -⟩ := decoded_kind hdecoded
          · cases htext
          · simp [hplain] at henc
      rw [hsame]
      obtain ⟨-, rfl, -⟩ | ⟨-, rfl, hsome, -⟩ := decoded_kind hdecoded
      · simpa [Session.looksAt, SessionEvent.binary] using hbefore
      · rw [(h.decoder hsome).2] at hbefore ⊢
        simpa [Session.looksAt, SessionEvent.binary] using hbefore

variable (decipher wire) in
/-- The loop of `upgrade` reads an early frame, or is left by what the frame throws. -/
theorem goOn_early {frame : Bytes} {early : List Bytes} {calls : List Call}
    (hcalls : S.calls = .draining (frame :: early) :: calls) :
    Aside { S with
        conn := (S.conn.receive decipher wire frame true).1, calls := .draining early :: calls }
        (S.goOn decipher wire).1 ∨
      S.decoded decipher wire frame true = none ∧ (S.goOn decipher wire).1 =
        { S with conn := (S.conn.receive decipher wire frame true).1, calls := calls } := by
  have hsame : Session.decoded decipher wire { S with calls := .draining early :: calls } frame true =
      S.decoded decipher wire frame true := rfl
  unfold Session.goOn
  simp only [hcalls]
  cases hdecoded : S.decoded decipher wire frame true with
  | none =>
    rw [hdecoded] at hsame
    obtain hgone | ⟨e, herror⟩ := onMessage_of_none
      (fun e S => ({ S with calls := calls }, [.thrown e])) hsame
    · rw [hgone]
      exact .inl Aside.refl
    · rw [herror]
      exact .inr ⟨rfl, rfl⟩
  | some item =>
    rw [hdecoded] at hsame
    rw [(onMessage_of_decoded
      (fun e S => ({ S with calls := calls }, [.thrown e])) hsame).2]
    exact .inl (aside_deliver _ item)

theorem framed_early {D : Dispatch} (h : Framed D) {frame : Bytes} {early : List Bytes}
    {calls : List Call} (hcalls : D.session.calls = .draining (frame :: early) :: calls) :
    Framed ((dispatch gcm decipher wire).next D (.session .returned)) := by
  obtain ⟨-, hencoder, hdecoder, hpending⟩ :=
    D.session.conn.receive_keeps decipher wire frame true
  obtain ⟨hsealed, hhandshake⟩ := h.draining (by simp [Session.draining, hcalls, Call.isDraining])
  have hsame : (D.session.conn.receive decipher wire frame true).1.pendingBinary =
      D.session.conn.pendingBinary := by
    obtain hsame | ⟨hplain, -⟩ := hpending
    · exact hsame
    · simp [hsealed] at hplain
  have hrest : D.session.rest = calls.flatMap Call.held := by
    simp [Session.rest, hcalls, Call.held]
  have hbefore : (D.read ++ (frame :: (early ++ (calls.flatMap Call.early ++
      D.session.conn.pendingBinary)))).Sublist D.came := by
    simpa [Session.unread, hcalls, Call.early] using h.reads
  -- what is left of the session, and what it has not read
  have hafter : (D.session.goOn decipher wire).1.conn.encrypted = true ∧
      (D.session.goOn decipher wire).1.conn.decoder.isSome = D.session.conn.decoder.isSome ∧
      (D.session.goOn decipher wire).1.conn.pendingBinary = D.session.conn.pendingBinary ∧
      ((D.session.goOn decipher wire).1.draining = true →
        ∀ item ∈ (D.session.goOn decipher wire).1.rest, item ∈ D.session.rest) ∧
      ((D.session.goOn decipher wire).1.unread =
          early ++ (calls.flatMap Call.early ++ D.session.conn.pendingBinary) ∨
        D.session.decoded decipher wire frame true = none ∧ (D.session.goOn decipher wire).1.unread =
          calls.flatMap Call.early ++ D.session.conn.pendingBinary) := by
    have hencrypted : (D.session.conn.receive decipher wire frame true).1.encrypted = true :=
      (congrArg Option.isSome hencoder).trans hsealed
    obtain haside | ⟨hnone, hleft⟩ := goOn_early decipher wire hcalls
    · refine ⟨haside.encrypted hencrypted, haside.decoder.trans hdecoder,
        haside.pending.trans hsame, fun hdraining item hitem => ?_, .inl ?_⟩
      · have hmem := haside.rest hdraining item hitem
        rw [hrest]
        simpa [Session.rest, Call.held] using hmem
      · rw [unread_of_aside haside]
        simp [Session.unread, Call.early, hsame]
    · rw [hleft]
      refine ⟨hencrypted, hdecoder, hsame, fun _ item hitem => ?_, .inr ⟨hnone, ?_⟩⟩
      · rw [hrest]
        exact hitem
      · simp [Session.unread, hsame]
  obtain ⟨hencrypted, hdecoder', hpending', hrest', hunread⟩ := hafter
  refine ⟨fun hplain => ?_, fun hdraining => ⟨hencrypted, fun item hitem => ?_⟩, fun hsome => ?_, ?_⟩
  · have hnot : (D.session.goOn decipher wire).1.conn.encrypted = false := hplain
    simp [hencrypted] at hnot
  · exact hhandshake item (hrest' hdraining item hitem)
  · exact ⟨hencrypted, hpending'.trans (h.decoder (hdecoder'.symm.trans hsome)).2⟩
  · have harrives : D.session.arrives decipher wire .returned =
        D.session.decoded decipher wire frame true := by simp [Session.arrives, hcalls]
    have hlooks : D.session.looksAt .returned = some frame := by simp [Session.looksAt, hcalls]
    show (D.read ++ (if (D.session.arrives decipher wire .returned).isSome = true then
      (D.session.looksAt .returned).toList else []) ++ (D.session.goOn decipher wire).1.unread).Sublist
        (D.came ++ [])
    rw [harrives, hlooks, List.append_nil]
    cases hdecoded : D.session.decoded decipher wire frame true with
    | none =>
      have hless : (D.session.goOn decipher wire).1.unread.Sublist
          (frame :: (early ++ (calls.flatMap Call.early ++ D.session.conn.pendingBinary))) := by
        obtain heq | ⟨-, heq⟩ := hunread
        · rw [heq]
          exact List.sublist_cons_self _ _
        · rw [heq]
          exact (List.sublist_append_right _ _).cons _
      simpa using ((List.Sublist.refl D.read).append hless).trans hbefore
    | some item =>
      obtain heq | ⟨hnone, -⟩ := hunread
      · rw [heq]
        simpa using hbefore
      · simp [hdecoded] at hnone

theorem framed_upgrade {D : Dispatch} (h : Framed D) {keys : TransportKeys}
    (hok : (D.session.conn.upgrade keys).2 = .ok D.session.conn.pendingBinary) :
    Framed ((dispatch gcm decipher wire).next D (.session (.upgrade keys))) := by
  obtain ⟨hinbox, ⟨e, herror, -⟩ | ⟨-, hnil, hplain, hsealed⟩⟩ :=
    Connection.upgrade_cases D.session.conn keys
  · rw [hok] at herror
    cases herror
  have hreact : (D.session.react gcm decipher wire (.upgrade keys)).1 =
      { D.session with
        conn := (D.session.conn.upgrade keys).1
        calls := .draining D.session.conn.pendingBinary :: D.session.calls } := by
    simp only [Session.react]
    cases hupgrade : D.session.conn.upgrade keys with
    | mk conn result =>
      rw [hupgrade] at hok
      cases hok
      rfl
  have hidle : D.session.draining = false := by
    by_contra hdraining
    have hboth := (h.draining (by simpa using hdraining)).1
    simp [hplain] at hboth
  have hrest : (D.session.react gcm decipher wire (.upgrade keys)).1.rest = D.session.rest := by
    rw [hreact]
    rfl
  have hencrypted : (D.session.react gcm decipher wire (.upgrade keys)).1.conn.encrypted = true := by
    rw [hreact]
    exact hsealed
  refine ⟨fun hafter => ?_, fun _ => ⟨hencrypted, fun item hitem => ?_⟩, fun _ => ⟨hencrypted, ?_⟩, ?_⟩
  · have hnot : (D.session.react gcm decipher wire (.upgrade keys)).1.conn.encrypted = false := hafter
    simp [hencrypted] at hnot
  · have hmem : item ∈ (D.session.react gcm decipher wire (.upgrade keys)).1.rest := hitem
    rw [hrest] at hmem
    exact h.held hplain item (List.mem_append_right _ hmem)
  · show (D.session.react gcm decipher wire (.upgrade keys)).1.conn.pendingBinary = []
    rw [hreact]
    exact hnil
  · show (D.read ++ [] ++ (D.session.react gcm decipher wire (.upgrade keys)).1.unread).Sublist
      (D.came ++ [])
    rw [hreact]
    simpa [Session.unread, Call.early, early_of_draining hidle, hnil] using h.reads

theorem framed_aside {D : Dispatch} (h : Framed D) {e : SessionEvent}
    (henabled : D.enabled (.session e)) (hnone : D.session.arrives decipher wire e = none)
    (hbinary : e.binary = none) (haside : Aside D.session (D.session.react gcm decipher wire e).1) :
    Framed ((dispatch gcm decipher wire).next D (.session e)) := by
  refine ⟨held_next h henabled haside.encrypted, fun hdraining => ?_, fun hsome => ?_, ?_⟩
  · obtain ⟨hsealed, hrest⟩ := h.draining (haside.draining hdraining)
    exact ⟨haside.encrypted hsealed, fun item hitem => hrest item (haside.rest hdraining item hitem)⟩
  · obtain ⟨hsealed, hnil⟩ := h.decoder (haside.decoder.symm.trans hsome)
    exact ⟨haside.encrypted hsealed, haside.pending.trans hnil⟩
  · show (D.read ++ (if (D.session.arrives decipher wire e).isSome = true then _ else []) ++
      (D.session.react gcm decipher wire e).1.unread).Sublist (D.came ++ e.binary.toList)
    rw [hnone, hbinary, unread_of_aside haside]
    simpa using h.reads

theorem framed_next {D : Dispatch} (h : Framed D) {e : DispatchEvent} (henabled : D.enabled e) :
    Framed ((dispatch gcm decipher wire).next D e) := by
  cases e with
  | turn => exact ⟨h.held, h.draining, h.decoder, h.reads⟩
  | session e =>
    obtain ⟨data, isBinary, rfl⟩ | ⟨rfl, frame, early, calls, hcalls⟩ | ⟨keys, rfl, hok⟩ |
      ⟨hnone, hbinary, haside⟩ := frames_cases gcm decipher wire henabled
    · exact framed_frame h henabled
    · exact framed_early h hcalls
    · exact framed_upgrade h hok
    · exact framed_aside h henabled hnone hbinary haside

/-! ### Order -/

@[simp] theorem ofKind_append (name : EventName) (items items' : List InboxItem) :
    ofKind name (items ++ items') = ofKind name items ++ ofKind name items' :=
  List.filter_append ..

theorem ofKind_cons (item : InboxItem) (items : List InboxItem) :
    ofKind item.ev (item :: items) = item :: ofKind item.ev items :=
  List.filter_cons_of_pos (by simp)

theorem ofKind_cons_ne {name : EventName} {item : InboxItem} (h : item.ev ≠ name)
    (items : List InboxItem) : ofKind name (item :: items) = ofKind name items :=
  List.filter_cons_of_neg (by simpa using h)

/-- To be put before a list or behind it makes no difference to what the whole list consists of. -/
theorem cons_eq_append_singleton_iff {α : Type*} {a : α} {l : List α} :
    a :: l = l ++ [a] ↔ ∀ x ∈ l, x = a := by
  induction l with
  | nil => simp
  | cons x l ih =>
    simp only [List.cons_append, List.cons.injEq, List.forall_mem_cons]
    constructor
    · rintro ⟨rfl, h⟩
      exact ⟨rfl, ih.mp h⟩
    · rintro ⟨rfl, h⟩
      exact ⟨rfl, ih.mpr h⟩

/-- What is of its kind in the inbox is the item itself. -/
def Behind (S : Session) (item : InboxItem) : Prop :=
  ∀ other ∈ S.conn.inbox, other.ev = item.ev → other = item

theorem behind_iff {item : InboxItem} :
    Behind S item ↔ ∀ other ∈ ofKind item.ev S.conn.inbox, other = item := by
  simp [Behind, ofKind]

/-- An item that is heard as it arrives is in its place if it is behind nothing else. -/
theorem inOrder_heard {name : EventName} {item : InboxItem} {emitted arrived : List InboxItem}
    (h : ofKind name emitted ++ ofKind name S.held = ofKind name arrived)
    (hrest : item.ev = name → ofKind name S.rest = []) :
    ofKind name (emitted ++ [item]) ++ ofKind name S.held = ofKind name (arrived ++ [item]) ↔
      (item.ev = name → Behind S item) := by
  by_cases hev : item.ev = name
  · subst hev
    rw [Session.held, ofKind_append, hrest rfl, List.append_nil] at h
    rw [behind_iff, ← cons_eq_append_singleton_iff, Session.held, ofKind_append, ofKind_append,
      ofKind_append, hrest rfl, List.append_nil, ← h, ofKind_cons]
    simp [ofKind]
  · simp only [ofKind_append, ofKind_cons_ne hev, hev, false_imp_iff, iff_true]
    simpa [ofKind] using h

/-- So is one that is heard as it comes up. -/
theorem inOrder_heardAgain {S' : Session} {name : EventName} {item : InboxItem}
    {emitted arrived : List InboxItem}
    (h : ofKind name emitted ++ ofKind name S.held = ofKind name arrived)
    (hinbox : S'.conn.inbox = S.conn.inbox) (hrest : S.rest = item :: S'.rest) :
    ofKind name (emitted ++ [item]) ++ ofKind name S'.held = ofKind name arrived ↔
      (item.ev = name → Behind S item) := by
  rw [← h, Session.held, Session.held, hinbox, hrest]
  by_cases hev : item.ev = name
  · subst hev
    rw [behind_iff, ← cons_eq_append_singleton_iff]
    refine Iff.trans ?_ ((List.append_left_inj (ofKind item.ev S'.rest)).trans
      ⟨fun hsame _ => hsame, fun hsame => hsame rfl⟩)
    simp [ofKind]
  · simp only [ofKind_append, ofKind_cons_ne hev, hev, false_imp_iff, iff_true]
    simp [ofKind]

/-- **What keeps the order**: a step that delivers to a listener nothing that overtakes. -/
theorem inOrder_next_iff {D : Dispatch} {e : DispatchEvent} (hframed : Framed D) (h : InOrder D)
    (henabled : D.enabled e) :
    InOrder ((dispatch gcm decipher wire).next D e) ↔ NothingAhead decipher wire D e := by
  cases e with
  | turn => exact iff_of_true h trivial
  | session e =>
    show (∀ name, ofKind name (D.emitted ++
        (D.session.react gcm decipher wire e).2.filterMap SessionOutput.item) ++
      ofKind name (D.session.react gcm decipher wire e).1.held =
        ofKind name (D.arrived ++ (D.session.arrives decipher wire e).toList)) ↔
      ∀ item, D.session.arrives decipher wire e = some item ∨ D.session.comesUp e = some item →
        0 < D.session.listeners item.ev → Behind D.session item
    have hmoves : Moves D.session (D.session.react gcm decipher wire e).1 _ _ _ := moves_react henabled
    -- nobody listens for an item that is held
    have hdeaf : ∀ {item item' : InboxItem}, D.session.listeners item.ev = 0 → item = item' →
        0 < D.session.listeners item'.ev → Behind D.session item' := by
      rintro item _ hnone rfl hlistens
      rw [hnone] at hlistens
      exact absurd hlistens (Nat.lt_irrefl 0)
    cases hmoves with
    | still arrives comesUp emitted inbox rest =>
      simp only [arrives, comesUp, emitted, Session.held, inbox, rest]
      simpa [InOrder, Session.held] using h
    | @heard item arrives comesUp listens emitted inbox rest =>
      have hheld : (D.session.react gcm decipher wire e).1.held = D.session.held := by
        simp only [Session.held, inbox, rest]
      simp only [arrives, comesUp, emitted, hheld, Option.toList_some]
      have hrest : ∀ name, item.ev = name → ofKind name D.session.rest = [] := by
        rintro _ rfl
        exact rest_of_arrives hframed henabled arrives
      rw [forall_congr' fun name => inOrder_heard (h name) (hrest name)]
      constructor
      · rintro hbehind item' (heq | hnone) -
        · cases heq
          exact hbehind _ rfl
        · cases hnone
      · exact fun hbehind name _ => hbehind item (.inl rfl) listens
    | @kept item arrives comesUp listens emitted inbox rest =>
      simp only [arrives, comesUp, emitted, Session.held, inbox, rest, Option.toList_some,
        List.append_nil]
      refine iff_of_true (fun name => ?_) ?_
      · have hname := h name
        rw [Session.held, ofKind_append, ← List.append_assoc] at hname
        by_cases hev : item.ev = name
        · subst hev
          rw [rest_of_arrives hframed henabled arrives, List.append_nil] at hname
          simp only [ofKind_append, rest_of_arrives hframed henabled arrives, List.append_nil,
            ← hname, List.append_assoc]
        · simp only [ofKind_append, ofKind_cons_ne hev, ← hname]
          simp [ofKind]
      · rintro item' (heq | hnone)
        · exact hdeaf listens (Option.some.inj heq)
        · cases hnone
    | @heardAgain item arrives comesUp listens emitted inbox rest =>
      simp only [arrives, comesUp, emitted, Option.toList_none, List.append_nil]
      rw [forall_congr' fun name => inOrder_heardAgain (h name) inbox rest]
      constructor
      · rintro hbehind item' (hnone | heq) -
        · cases hnone
        · cases heq
          exact hbehind _ rfl
      · exact fun hbehind name _ => hbehind item (.inr rfl) listens
    | @keptAgain item arrives comesUp listens emitted inbox rest =>
      simp only [arrives, comesUp, emitted, Session.held, inbox, Option.toList_none, List.append_nil]
      refine iff_of_true (fun name => ?_) ?_
      · rw [← h name, Session.held, rest, List.append_assoc]
        rfl
      · rintro item' (hnone | heq)
        · cases hnone
        · exact hdeaf listens (Option.some.inj heq)
    | taken arrives comesUp emitted inbox before rest =>
      simp only [arrives, comesUp, emitted, Session.held, inbox, rest]
      simpa [InOrder, Session.held, before] using h

/-- **Nothing is lost or emitted twice**, in whatever order. -/
theorem once_next {D : Dispatch} {e : DispatchEvent}
    (h : (D.emitted ++ D.session.held).Perm D.arrived) (henabled : D.enabled e) :
    (((dispatch gcm decipher wire).next D e).emitted ++
      ((dispatch gcm decipher wire).next D e).session.held).Perm
        ((dispatch gcm decipher wire).next D e).arrived := by
  cases e with
  | turn => exact h
  | session e =>
    show (D.emitted ++ (D.session.react gcm decipher wire e).2.filterMap SessionOutput.item ++
      (D.session.react gcm decipher wire e).1.held).Perm
        (D.arrived ++ (D.session.arrives decipher wire e).toList)
    have hmoves : Moves D.session (D.session.react gcm decipher wire e).1 _ _ _ := moves_react henabled
    rw [List.perm_iff_count] at h ⊢
    intro a
    have hcount := h a
    simp only [Session.held, List.count_append] at hcount ⊢
    cases hmoves with
    | still arrives comesUp emitted inbox rest =>
      rw [arrives, emitted, inbox, rest]
      simpa using hcount
    | heard arrives comesUp listens emitted inbox rest =>
      rw [arrives, emitted, inbox, rest]
      simp only [Option.toList_some]
      omega
    | kept arrives comesUp listens emitted inbox rest =>
      rw [arrives, emitted, inbox, rest]
      simp only [Option.toList_some, List.count_append, List.count_nil]
      omega
    | heardAgain arrives comesUp listens emitted inbox rest =>
      rw [rest, ← List.singleton_append, List.count_append] at hcount
      rw [arrives, emitted, inbox]
      simp only [Option.toList_none, List.count_nil]
      omega
    | keptAgain arrives comesUp listens emitted inbox rest =>
      rw [rest, ← List.singleton_append, List.count_append] at hcount
      rw [arrives, emitted, inbox]
      simp only [Option.toList_none, List.count_append, List.count_nil]
      omega
    | taken arrives comesUp emitted inbox before rest =>
      rw [before] at hcount
      rw [arrives, emitted, inbox, rest]
      simp only [Option.toList_none, List.count_nil] at hcount ⊢
      omega

theorem delivers_once {role : ConnectionRole} {es : List DispatchEvent}
    (h : (dispatch gcm decipher wire).Valid (.new role) es) :
    (((dispatch gcm decipher wire).exec (.new role) es).emitted ++
      ((dispatch gcm decipher wire).exec (.new role) es).session.held).Perm
        ((dispatch gcm decipher wire).exec (.new role) es).arrived :=
  Machine.exec_invariant (I := fun D : Dispatch => (D.emitted ++ D.session.held).Perm D.arrived)
    (fun _ _ hperm henabled => once_next hperm henabled) h (List.Perm.refl _)

/-- **Nothing is emitted that nobody hears.** -/
theorem heard_of_emitted {D : Dispatch} {e : DispatchEvent} (henabled : D.enabled e) {item : InboxItem}
    (h : .emitted item ∈ (dispatch gcm decipher wire).out D e) : 0 < D.session.listeners item.ev := by
  cases e with
  | turn => cases h
  | session e =>
    have hmem : item ∈ (D.session.react gcm decipher wire e).2.filterMap SessionOutput.item :=
      List.mem_filterMap.mpr ⟨_, h, rfl⟩
    have hmoves : Moves D.session (D.session.react gcm decipher wire e).1 _ _ _ := moves_react henabled
    cases hmoves with
    | still arrives comesUp emitted | kept arrives comesUp listens emitted
    | keptAgain arrives comesUp listens emitted | taken arrives comesUp emitted =>
      rw [emitted] at hmem
      cases hmem
    | heard arrives comesUp listens emitted | heardAgain arrives comesUp listens emitted =>
      rw [emitted, List.mem_singleton] at hmem
      rw [hmem]
      exact listens

/-! ### What is held is flushed -/

/-- The listeners and the queued calls of `#flush` are the same. -/
structure Same (S S' : Session) : Prop where
  listeners : S'.listeners = S.listeners
  flushes : S'.flushes = S.flushes

theorem Same.refl : Same S S := ⟨rfl, rfl⟩

theorem same_fail (S : Session) (e : ConnectionError) : Same S (S.fail e).1 := by
  unfold Session.fail
  split
  · exact Same.refl
  · split <;> exact ⟨rfl, rfl⟩

theorem same_close (S : Session) (code : ℕ) (reason : String) : Same S (S.close code reason).1 := by
  unfold Session.close
  split <;> exact ⟨rfl, rfl⟩

theorem same_deliver (S : Session) (item : InboxItem) :
    Same S (S.deliver item).1 ∧ (S.deliver item).1.calls = S.calls := by
  unfold Session.deliver
  split <;> exact ⟨⟨rfl, rfl⟩, rfl⟩

theorem same_onMessage {data : Bytes} {isBinary : Bool} : Same S
    (S.onMessage decipher wire data isBinary fun e S => S.fail e).1 := by
  unfold Session.onMessage
  split
  · next conn e hreceive =>
    have hsame := same_fail { S with conn := conn } e
    exact ⟨hsame.listeners, hsame.flushes⟩
  · exact ⟨rfl, rfl⟩
  · next conn item hreceive =>
    have hsame := (same_deliver { S with conn := conn } item).1
    exact ⟨hsame.listeners, hsame.flushes⟩

/-- How often the calls have to go on. -/
def Call.toGo : Call → ℕ
  | .draining early => early.length + 1
  | .flushing held => held.length + 1
  | .failing => 1

def toGo (calls : List Call) : ℕ := (calls.map Call.toGo).sum

variable (decipher wire) in
/-- A call that goes on comes to an end, and queues nothing. -/
theorem goOn_less {call : Call} {calls : List Call} (hcalls : S.calls = call :: calls) :
    Same S (S.goOn decipher wire).1 ∧ toGo (S.goOn decipher wire).1.calls < toGo S.calls := by
  unfold Session.goOn
  simp only [hcalls]
  cases call with
  | failing =>
    have hsame := same_close { S with calls := calls } 1002 "protocol error"
    refine ⟨⟨hsame.listeners, hsame.flushes⟩, ?_⟩
    rw [(close_keeps { S with calls := calls } 1002 "protocol error").2.1]
    simp [toGo, Call.toGo]
  | draining early =>
    cases early with
    | nil => exact ⟨⟨rfl, rfl⟩, by simp [toGo, Call.toGo]⟩
    | cons frame early =>
      unfold Session.onMessage
      dsimp only
      split
      · exact ⟨⟨rfl, rfl⟩, by simp [toGo, Call.toGo]⟩
      · exact ⟨⟨rfl, rfl⟩, by simp [toGo, Call.toGo]⟩
      · next conn item hreceive =>
        obtain ⟨hsame, hleft⟩ := same_deliver { S with conn := conn, calls := .draining early :: calls } item
        refine ⟨⟨hsame.listeners, hsame.flushes⟩, ?_⟩
        rw [hleft]
        simp [toGo, Call.toGo]
  | flushing held =>
    cases held with
    | nil => exact ⟨⟨rfl, rfl⟩, by simp [toGo, Call.toGo]⟩
    | cons item held =>
      obtain ⟨hsame, hleft⟩ := same_deliver { S with calls := .flushing held :: calls } item
      refine ⟨⟨hsame.listeners, hsame.flushes⟩, ?_⟩
      rw [hleft]
      simp [toGo, Call.toGo]

theorem same_goOn (S : Session) : Same S (S.goOn decipher wire).1 := by
  cases hcalls : S.calls with
  | nil =>
    unfold Session.goOn
    rw [hcalls]
    exact Same.refl
  | cons call calls => exact (goOn_less decipher wire hcalls).1

/-- Whoever could hear what is held will be told by a `#flush`. -/
def Alert (S : Session) : Prop := ∀ item ∈ S.conn.inbox, 0 < S.listeners item.ev → 0 < S.flushes

theorem alert_same {D : Dispatch} {e : SessionEvent} (h : Alert D.session)
    (henabled : D.enabled (.session e))
    (hsame : Same D.session (D.session.react gcm decipher wire e).1) :
    Alert (D.session.react gcm decipher wire e).1 := by
  intro item hitem hlistens
  rw [hsame.listeners] at hlistens
  rw [hsame.flushes]
  have hmoves : Moves D.session (D.session.react gcm decipher wire e).1 _ _ _ := moves_react henabled
  cases hmoves with
  | still arrives comesUp emitted inbox | heard arrives comesUp listens emitted inbox
  | heardAgain arrives comesUp listens emitted inbox =>
    rw [inbox] at hitem
    exact h item hitem hlistens
  | kept arrives comesUp listens emitted inbox | keptAgain arrives comesUp listens emitted inbox =>
    rw [inbox, List.mem_append, List.mem_singleton] at hitem
    obtain hold | rfl := hitem
    · exact h item hold hlistens
    · rw [listens] at hlistens
      exact absurd hlistens (Nat.lt_irrefl 0)
  | taken arrives comesUp emitted inbox =>
    rw [inbox] at hitem
    cases hitem

theorem alert_react {D : Dispatch} {e : SessionEvent} (h : Alert D.session)
    (henabled : D.enabled (.session e)) : Alert (D.session.react gcm decipher wire e).1 := by
  cases e with
  | on name =>
    intro item hitem hlistens
    show 0 < if name = .handshake ∨ name = .message then _ else _
    by_cases hname : item.ev = name
    · rw [if_pos (by subst hname; cases item <;> simp [InboxItem.ev])]
      exact Nat.succ_pos _
    · have hflushes := h item hitem (by simpa [Session.react, Function.update_of_ne hname] using hlistens)
      split
      · exact Nat.succ_pos _
      · exact hflushes
  | off name =>
    intro item hitem hlistens
    refine h item hitem ?_
    have hless : 0 < Function.update D.session.listeners name (D.session.listeners name - 1) item.ev :=
      hlistens
    by_cases hname : item.ev = name
    · subst hname
      rw [Function.update_self] at hless
      omega
    · rwa [Function.update_of_ne hname] at hless
  | flush =>
    intro item hitem
    cases hitem
  | unwound => exact henabled.elim
  | frame data isBinary => exact alert_same h henabled same_onMessage
  | returned => exact alert_same h henabled (same_goOn _)
  | failed e => exact alert_same h henabled (same_fail _ e)
  | close code reason => exact alert_same h henabled (same_close _ code reason)
  | transportClosed code reason => exact alert_same h henabled ⟨rfl, rfl⟩
  | upgrade keys =>
    refine alert_same h henabled ?_
    simp only [Session.react]
    split <;> exact ⟨rfl, rfl⟩
  | send body =>
    refine alert_same h henabled ?_
    simp only [Session.react]
    split <;> exact ⟨rfl, rfl⟩
  | sendHandshake msg =>
    refine alert_same h henabled ?_
    simp only [Session.react]
    split <;> exact Same.refl

/-- **At rest nothing is held for a listener.** -/
theorem flushed_of_alert (h : Alert S) (hrest : AtRest S) : ∀ item ∈ S.held, S.listeners item.ev = 0 := by
  intro item hitem
  have hinbox : item ∈ S.conn.inbox := by simpa [Session.held, Session.rest, hrest.1] using hitem
  by_contra hlistens
  have hqueued := h item hinbox (Nat.pos_of_ne_zero hlistens)
  rw [hrest.2] at hqueued
  exact absurd hqueued (Nat.lt_irrefl 0)

/-- The calls that are left go on until none is. -/
theorem calls_settle : ∀ (n : ℕ) (D : Dispatch), toGo D.session.calls ≤ n →
    ∃ es, (∀ e ∈ es, DispatchEvent.own e = true) ∧ (dispatch gcm decipher wire).Valid D es ∧
      ((dispatch gcm decipher wire).exec D es).session.calls = [] ∧
      ((dispatch gcm decipher wire).exec D es).session.flushes = D.session.flushes := by
  intro n
  induction n with
  | zero =>
    intro D hless
    refine ⟨[], by simp, trivial, ?_, rfl⟩
    cases hcalls : D.session.calls with
    | nil => exact hcalls
    | cons call calls =>
      rw [hcalls] at hless
      cases call <;> simp [toGo, Call.toGo] at hless
  | succ n ih =>
    intro D hless
    cases hcalls : D.session.calls with
    | nil => exact ⟨[], by simp, trivial, hcalls, rfl⟩
    | cons call calls =>
      obtain ⟨hsame, hfewer⟩ := goOn_less decipher wire hcalls
      obtain ⟨es, hown, hvalid, hnil, hflushes⟩ :=
        ih ((dispatch gcm decipher wire).next D (.session .returned)) (by
          show toGo (D.session.goOn decipher wire).1.calls ≤ n
          omega)
      exact ⟨.session .returned :: es, List.forall_mem_cons.mpr ⟨rfl, hown⟩, ⟨trivial, hvalid⟩, hnil,
        hflushes.trans hsame.flushes⟩

/-- **A connection comes to rest** when nobody else does anything. -/
theorem settles : ∀ (flushes : ℕ) (D : Dispatch), D.session.flushes = flushes →
    ∃ es, (∀ e ∈ es, DispatchEvent.own e = true) ∧ (dispatch gcm decipher wire).Valid D es ∧
      AtRest ((dispatch gcm decipher wire).exec D es).session := by
  intro flushes
  induction flushes with
  | zero =>
    intro D hzero
    obtain ⟨es, hown, hvalid, hnil, hflushes⟩ := calls_settle _ D (Nat.le_refl _)
    exact ⟨es, hown, hvalid, hnil, hflushes.trans hzero⟩
  | succ flushes ih =>
    intro D hqueued
    obtain ⟨es, hown, hvalid, hnil, hflushes⟩ := calls_settle _ D (Nat.le_refl _)
    have hone : ((dispatch gcm decipher wire).exec D es).session.flushes = flushes + 1 :=
      hflushes.trans hqueued
    obtain ⟨es', hown', hvalid', hrest⟩ :=
      ih ((dispatch gcm decipher wire).next ((dispatch gcm decipher wire).exec D es) (.session .flush)) (by
        show ((dispatch gcm decipher wire).exec D es).session.flushes - 1 = flushes
        rw [hone, Nat.add_sub_cancel])
    refine ⟨es ++ .session .flush :: es', ?_, ?_, ?_⟩
    · exact List.forall_mem_append.mpr ⟨hown, List.forall_mem_cons.mpr ⟨rfl, hown'⟩⟩
    · refine (Machine.along_append ..).mpr ⟨hvalid, ⟨?_, hnil⟩, hvalid'⟩
      rw [hone]
      exact Nat.succ_pos _
    · rw [Machine.exec_append]
      exact hrest

/-! ### Exactly when -/

/-- What holds of every run. -/
structure Sound (D : Dispatch) : Prop where
  framed : Framed D
  alert : Alert D.session

theorem sound_new (role : ConnectionRole) : Sound (.new role) :=
  ⟨framed_new role, fun _ hitem => by cases hitem⟩

theorem sound_next {D : Dispatch} {e : DispatchEvent} (h : Sound D) (henabled : D.enabled e) :
    Sound ((dispatch gcm decipher wire).next D e) := by
  refine ⟨framed_next h.framed henabled, ?_⟩
  cases e with
  | turn => exact h.alert
  | session e => exact alert_react h.alert henabled

theorem delivers_step {D : Dispatch} {e : DispatchEvent} (h : Sound D) (henabled : D.enabled e) :
    InOrder ((dispatch gcm decipher wire).next D e) ↔ Delivers gcm decipher wire D e := by
  have hsound : Sound ((dispatch gcm decipher wire).next D e) := sound_next h henabled
  constructor
  · intro hinOrder
    exact ⟨hinOrder, hsound.framed.reads, fun item => heard_of_emitted henabled,
      flushed_of_alert hsound.alert, settles _ _ rfl⟩
  · exact Delivers.inOrder

/-- **Exactly when a connection delivers in order.**  What has arrived has been emitted or is held, once.  In
every state of a run the events of each kind have been emitted in the order of arrival, to somebody who
listens, and the rest is held for whoever stays, if and only if nothing is delivered to a listener while
something else of its kind is held. -/
theorem delivers_iff (role : ConnectionRole) (es : List DispatchEvent)
    (hvalid : (dispatch gcm decipher wire).Valid (.new role) es) :
    (((dispatch gcm decipher wire).exec (.new role) es).emitted ++
        ((dispatch gcm decipher wire).exec (.new role) es).session.held).Perm
          ((dispatch gcm decipher wire).exec (.new role) es).arrived ∧
      ((dispatch gcm decipher wire).Along (Delivers gcm decipher wire) (.new role) es ↔
        (dispatch gcm decipher wire).Along (NothingAhead decipher wire) (.new role) es) := by
  refine ⟨delivers_once hvalid, ?_⟩
  rw [← Machine.along_next_iff (I := Sound) (J := InOrder) (fun _ _ h henabled => sound_next h henabled)
    (fun _ _ h hinOrder henabled => inOrder_next_iff h.framed hinOrder henabled) hvalid (sound_new role)
    (fun name => rfl)]
  exact (Machine.along_congr (I := Sound) (fun _ _ h henabled => sound_next h henabled)
    (fun _ _ h henabled => delivers_step h henabled) hvalid (sound_new role)).symm

/-! ### An early frame is overtaken -/

section

variable (decipher wire)

instance decidableNothingAhead : ∀ (D : Dispatch) (e : DispatchEvent),
    Decidable (NothingAhead decipher wire D e)
  | _, .turn => isTrue trivial
  | D, .session e =>
    decidable_of_iff (∀ item ∈ (D.session.arrives decipher wire e).toList ++ (D.session.comesUp e).toList,
      0 < D.session.listeners item.ev → ∀ other ∈ D.session.conn.inbox,
        other.ev = item.ev → other = item) (by simp [NothingAhead])

end

def pong (seq : ℕ) : Envelope := ⟨1, 0, seq, "p", .pong 7 0⟩

/-- `pong` as JSON. -/
def pongText (seq : ℕ) : Bytes := utf8ToBytes ("\x7b\"v\":1,\"epoch\":0,\"seq\":" ++ toString seq ++
  ",\"from\":\"p\",\"body\":\x7b\"type\":\"pong\",\"nonce\":7,\"sentAt\":0\x7d\x7d")

def rejectText : Bytes :=
  utf8ToBytes "\x7b\"type\":\"handshake_reject\",\"reason\":\"room_closing\"\x7d"

/-- What the host seals as its frame `seq`. -/
def pongSealing (seq : ℕ) : Sealing :=
  let h := header .serverToClient seq
  ⟨lateKeys.s2c.key, nonce lateKeys.s2c.nonceSalt (h.drop 2), h, pongText seq⟩

def pongFrame (seq : ℕ) : Bytes := frameOf default (pongSealing seq)

def pongCipher : Decipher := ideal default [pongSealing 0, pongSealing 1]

/-- JSON, as far as the runs below need it. -/
def pongWire : Wire ℕ where
  parse raw :=
    if raw = pongText 0 then some 0 else if raw = pongText 1 then some 1
    else if raw = rejectText then some 2 else none
  handshakeMessageSchema obj :=
    if obj = 2 then .ok (.handshakeReject .roomClosing) else .error "Invalid input"
  envelopeSchema obj := if obj = 2 then .error "Invalid input" else .ok (pong obj)
  ofHandshake _ := rejectText
  ofEnvelope envelope := pongText envelope.seq

/-- An early frame waits for the keys; in the turn in which it came, the listener of a handshake message
upgrades the connection and listens for envelopes. -/
def earlyRun : List DispatchEvent :=
  [.session (.on .handshake), .session .flush, .session .returned, .turn,
    .session (.frame (pongFrame 0) true), .session (.frame rejectText false),
    .session (.upgrade lateKeys), .session .returned, .session .returned, .session (.on .message)]

/-- The next frame comes in the same turn, ahead of the `#flush`. -/
theorem early_overtaken :
    (dispatch default pongCipher pongWire).Valid (.new .peer)
        (earlyRun ++ [.session (.frame (pongFrame 1) true)]) ∧
      ¬ (dispatch default pongCipher pongWire).Along (Delivers default pongCipher pongWire) (.new .peer)
        (earlyRun ++ [.session (.frame (pongFrame 1) true)]) := by
  refine ⟨by decide +kernel, fun h => ?_⟩
  have hlast := (Machine.along_iff_split.mp h earlyRun _ [] rfl).inOrder .message
  revert hlast
  decide +kernel

/-- In the next turn it is behind it. -/
theorem delivers_iff_nextTurn : (dispatch default pongCipher pongWire).Along
    (Delivers default pongCipher pongWire) (.new .peer)
      (earlyRun ++ [.session .flush, .session .returned, .session .returned, .turn,
        .session (.frame (pongFrame 1) true)]) :=
  (delivers_iff .peer _ (by decide +kernel)).2.mpr (by decide +kernel)

end Dispatch

end ScreenSharing.Net
