import ScreenSharing.App.RoomSession

/-!
# The handlers of the main process

`enterRoom` and `leaveRoom` keep the one active session in a module variable.  A call is a coroutine
(`Call`), and between two of its segments any other call may run: leaving a session may take
arbitrarily long, and entering the room may succeed or fail at any time.  Sessions are numbered in the
order in which the handlers make them.

`teardown` clears the variable before it awaits the departure of the old session, so a second call
that comes meanwhile finds nothing to tear down, and the two attach a session each.
`exclusive_iff_unattached` says that the handlers have one live session at a time, the one that the
variable refers to, exactly when no call attaches a session over another one.
-/

namespace ScreenSharing.App

open Lib

/-- What an IPC call awaits. -/
inductive Call
  /-- `teardown()`, in `enterRoom` -/
  | tearingDown (request : EnterRoomRequest)
  /-- `s.enter(…)` -/
  | entering (s : ℕ)
  /-- `discard(s)`, with the message of what `enter` threw -/
  | discarding (message : String)
  /-- `teardown()`, in `leaveRoom` -/
  | leaving
  | settled
  deriving DecidableEq

/-- The state of the handlers. -/
structure Handlers where
  /-- the module variable -/
  session : Option ℕ
  /-- how many sessions have been made -/
  made : ℕ
  /-- the sessions whose events go to the renderer -/
  attached : List ℕ
  /-- the sessions on which `leave()` has been called -/
  left : List ℕ
  calls : List Call
  deriving DecidableEq

inductive IpcOutput
  /-- `IPC.onUpdate` and `IPC.onMedia` -/
  | update (snapshot : SessionSnapshot)
  | media (body : Body)
  | enter (s : ℕ) (nickname : String)
  | leave (s : ℕ)
  | sendMedia (s : ℕ) (body : Body)
  /-- the promise of a call settles -/
  | result (call : ℕ) (result : IpcResult SessionSnapshot)
  | snapshot (snapshot : SessionSnapshot)

def idleSnapshot : SessionSnapshot := ⟨.idle, false, "", "", 0, [], [], 2, none⟩

namespace Handlers

def new : Handlers := ⟨none, 0, [], [], []⟩

variable (h : Handlers)

/-- `s.removeAllListeners()`. -/
def silence (s : ℕ) : Handlers := { h with attached := h.attached.filter (· ≠ s) }

/-- `attach`, of a new session. -/
def attach (s : ℕ) : Handlers × List IpcOutput :=
  ({ h with session := some s, attached := h.attached ++ [s] }, [.update RoomSession.begin.snapshot])

/-- `teardown`, up to its await. -/
def teardown : Handlers × List IpcOutput :=
  match h.session with
  | some s => ({ h.silence s with session := none, left := h.left ++ [s] }, [.leave s])
  | none => (h, [])

/-- `discard`, up to its await. -/
def discard (s : ℕ) : Handlers × List IpcOutput :=
  ({ h.silence s with
      session := if h.session = some s then none else h.session
      left := h.left ++ [s] },
    [.leave s])

def await (call : ℕ) (point : Call) : Handlers := { h with calls := h.calls.set call point }

/-- `enterRoom`, up to its first await; `nickname` is that of the raw request. -/
def enterRoom (nickname : Option String) : Handlers × List IpcOutput :=
  match enterRoomRequestSchema nickname with
  | none =>
    ({ h with calls := h.calls ++ [.settled] },
      [.result h.calls.length (.error "pedido inválido")])
  | some request =>
    let (h₁, outputs) := h.teardown
    ({ h₁ with calls := h.calls ++ [.tearingDown request] }, outputs)

/-- `leaveRoom`, up to its await. -/
def leaveRoom : Handlers × List IpcOutput :=
  let (h₁, outputs) := h.teardown
  ({ h₁ with calls := h.calls ++ [.leaving] }, outputs)

/-- What a call awaits, other than `enter`, settles. -/
def resume (call : ℕ) : Handlers × List IpcOutput :=
  match h.calls[call]? with
  | some (.tearingDown request) =>
    let s := h.made
    let (h₁, outputs) := { h with made := h.made + 1 }.attach s
    (h₁.await call (.entering s), outputs ++ [.enter s request.nickname])
  | some (.discarding message) => (h.await call .settled, [.result call (.error message)])
  | some .leaving =>
    (h.await call .settled, [.update idleSnapshot, .result call (.ok idleSnapshot)])
  | _ => (h, [])

/-- `s.enter(…)` returns; `snapshot` is what the session shows then. -/
def entered (call : ℕ) (snapshot : SessionSnapshot) : Handlers × List IpcOutput :=
  match h.calls[call]? with
  | some (.entering _) => (h.await call .settled, [.result call (.ok snapshot)])
  | _ => (h, [])

/-- `s.enter(…)` throws. -/
def threw (call : ℕ) (message : String) : Handlers × List IpcOutput :=
  match h.calls[call]? with
  | some (.entering s) =>
    let (h₁, outputs) := h.discard s
    (h₁.await call (.discarding message), outputs)
  | _ => (h, [])

/-- A session emits `update` or `media`. -/
def emits (s : ℕ) (output : IpcOutput) : List IpcOutput := if s ∈ h.attached then [output] else []

/-- `getSnapshot`; `shown` is what the active session shows. -/
def getSnapshot (shown : SessionSnapshot) : List IpcOutput :=
  [.snapshot (if h.session.isSome then shown else idleSnapshot)]

/-- `sendMedia`; `body` is the raw request, if it is a media body. -/
def sendMedia (body : Option Body) : List IpcOutput :=
  match body, h.session with
  | some body, some s => [.sendMedia s body]
  | _, _ => []

end Handlers

/-! ### The machine -/

inductive IpcEvent
  | enterRoom (nickname : Option String)
  | leaveRoom
  | resume (call : ℕ)
  | entered (call : ℕ) (snapshot : SessionSnapshot)
  | threw (call : ℕ) (message : String)
  | update (s : ℕ) (snapshot : SessionSnapshot)
  | media (s : ℕ) (body : Body)
  | getSnapshot (shown : SessionSnapshot)
  | sendMedia (body : Option Body)
  deriving DecidableEq

def Handlers.step (h : Handlers) : IpcEvent → Handlers × List IpcOutput
  | .enterRoom nickname => h.enterRoom nickname
  | .leaveRoom => h.leaveRoom
  | .resume call => h.resume call
  | .entered call snapshot => h.entered call snapshot
  | .threw call message => h.threw call message
  | .update s snapshot => (h, h.emits s (.update snapshot))
  | .media s body => (h, h.emits s (.media body))
  | .getSnapshot shown => (h, h.getSnapshot shown)
  | .sendMedia body => (h, h.sendMedia body)

/-- Any event may come at any time; what no call awaits changes nothing. -/
def handlers : Machine Handlers IpcEvent IpcOutput where
  enabled _ _ := True
  step := Handlers.step

instance (h : Handlers) (e : IpcEvent) : Decidable (handlers.enabled h e) :=
  inferInstanceAs (Decidable True)

/-! ### Live sessions -/

variable {h h' : Handlers} {e : IpcEvent}

namespace Handlers

/-- The handlers have made the session, and not called `leave()` on it. -/
def Live (h : Handlers) (s : ℕ) : Prop := s < h.made ∧ s ∉ h.left

instance (h : Handlers) (s : ℕ) : Decidable (h.Live s) := inferInstanceAs (Decidable (_ ∧ _))

/-- At most one session is live, and it is the one that the module variable refers to. -/
def Exclusive (h : Handlers) : Prop :=
  (∀ s t, h.Live s → h.Live t → s = t) ∧ ∀ s, h.Live s → h.session = some s

/-- A call of `enterRoom` that goes on behind its teardown finds no session. -/
def Unattached (h : Handlers) : IpcEvent → Prop
  | .resume call => ∀ request, h.calls[call]? = some (.tearingDown request) → h.session = none
  | _ => True

/-- What the handlers keep in every run. -/
structure Kept (h : Handlers) : Prop where
  session : ∀ s ∈ h.session, h.Live s
  left : ∀ s ∈ h.left, s < h.made
  calls : ∀ s, .entering s ∈ h.calls → s < h.made

end Handlers

open Handlers

/-- Sessions have been left, and the variable refers to a live one, if to any. -/
structure Lets (h h' : Handlers) : Prop where
  made : h'.made = h.made
  left : ∀ s ∈ h.left, s ∈ h'.left
  session : h'.session = h.session ∨ h'.session = none ∧ ∀ s ∈ h.session, s ∈ h'.left

theorem exclusive_iff : h.Exclusive ↔ ∀ s, h.Live s → h.session = some s := by
  refine ⟨fun hex => hex.2, fun hall => ⟨fun s t hs ht => ?_, hall⟩⟩
  exact Option.some.inj ((hall s hs).symm.trans (hall t ht))

theorem Lets.exclusive (hlets : Lets h h') (hex : h.Exclusive) : h'.Exclusive := by
  refine exclusive_iff.mpr fun s hs => ?_
  have hold : h.Live s := ⟨hlets.made ▸ hs.1, fun hleft => hs.2 (hlets.left s hleft)⟩
  have hsession := hex.2 s hold
  obtain hsame | ⟨-, hleft⟩ := hlets.session
  · exact hsame.trans hsession
  · exact absurd (hleft s hsession) hs.2

theorem kept_new : Handlers.new.Kept :=
  ⟨by simp [Handlers.new], by simp [Handlers.new], by simp [Handlers.new]⟩

theorem Lets.refl : Lets h h := ⟨rfl, fun _ hs => hs, .inl rfl⟩

/-- A step that leaves sessions only of those that have been made. -/
theorem Lets.kept (hlets : Lets h h') (hkept : h.Kept) (hleft : ∀ s ∈ h'.left, s < h.made)
    (hnew : ∀ s ∈ h'.session, s ∉ h'.left) (hcalls : ∀ s, .entering s ∈ h'.calls → s < h.made) :
    h'.Kept := by
  refine ⟨fun s hs => ⟨?_, hnew s hs⟩, ?_, ?_⟩
  · rw [hlets.made]
    obtain hsame | ⟨hnone, -⟩ := hlets.session
    · rw [hsame] at hs
      exact (hkept.session s hs).1
    · rw [hnone] at hs
      cases hs
  · rw [hlets.made]
    exact hleft
  · rw [hlets.made]
    exact hcalls

/-! ### The segments of the calls -/

theorem lets_teardown : Lets h h.teardown.1 := by
  unfold teardown
  cases hsession : h.session with
  | none => exact Lets.refl
  | some s =>
    refine ⟨rfl, fun _ hs => List.mem_append_left _ hs, .inr ⟨rfl, fun t ht => ?_⟩⟩
    rw [hsession] at ht
    cases ht
    exact List.mem_append_right _ (List.mem_singleton_self _)

theorem kept_teardown (hkept : h.Kept) : h.teardown.1.Kept := by
  unfold teardown
  cases hsession : h.session with
  | none => exact hkept
  | some s =>
    refine ⟨by simp, fun t ht => ?_, hkept.calls⟩
    obtain hold | hnew := List.mem_append.mp ht
    · exact hkept.left t hold
    · rw [List.mem_singleton.mp hnew]
      exact (hkept.session s hsession).1

theorem lets_discard (s : ℕ) : Lets h (h.discard s).1 := by
  refine ⟨rfl, fun _ hs => List.mem_append_left _ hs, ?_⟩
  show (if h.session = some s then none else h.session) = h.session ∨ _
  split
  · next hsession =>
    refine .inr ⟨if_pos hsession, fun t ht => ?_⟩
    rw [hsession] at ht
    cases ht
    exact List.mem_append_right _ (List.mem_singleton_self _)
  · exact .inl rfl

theorem kept_discard (hkept : h.Kept) {s : ℕ} (hs : s < h.made) : (h.discard s).1.Kept := by
  refine (lets_discard s).kept hkept (fun t ht => ?_) (fun t ht hmem => ?_) hkept.calls
  · obtain hold | hnew := List.mem_append.mp ht
    · exact hkept.left t hold
    · rw [List.mem_singleton.mp hnew]
      exact hs
  · have hsession : (if h.session = some s then none else h.session) = some t := ht
    split at hsession
    · cases hsession
    · next hother =>
      obtain hold | hnew := List.mem_append.mp hmem
      · exact (hkept.session t hsession).2 hold
      · rw [List.mem_singleton.mp hnew] at hsession
        exact hother hsession

/-- A call reaches an await that is not that of `enter`. -/
theorem Handlers.Kept.recall (hkept : h.Kept) {calls : List Call}
    (hcalls : ∀ s, .entering s ∈ calls → .entering s ∈ h.calls) : { h with calls := calls }.Kept :=
  ⟨hkept.session, hkept.left, fun s hs => hkept.calls s (hcalls s hs)⟩

theorem Lets.recall (hlets : Lets h h') (calls : List Call) : Lets h { h' with calls := calls } :=
  ⟨hlets.made, hlets.left, hlets.session⟩

theorem entering_of_append {calls : List Call} {point : Call} (hpoint : ∀ s, point ≠ .entering s)
    (s : ℕ) (hmem : .entering s ∈ calls ++ [point]) : .entering s ∈ calls := by
  obtain hold | hnew := List.mem_append.mp hmem
  · exact hold
  · exact absurd (List.mem_singleton.mp hnew).symm (hpoint s)

theorem entering_of_set {calls : List Call} {call : ℕ} {point : Call}
    (hpoint : ∀ s, point ≠ .entering s) (s : ℕ) (hmem : .entering s ∈ calls.set call point) :
    .entering s ∈ calls := by
  obtain hold | hnew := List.mem_or_eq_of_mem_set hmem
  · exact hold
  · exact absurd hnew.symm (hpoint s)

/-- A call of `enterRoom` goes on behind its teardown. -/
def Attaches (h : Handlers) (e : IpcEvent) : Prop :=
  ∃ call request, e = .resume call ∧ h.calls[call]? = some (.tearingDown request)

theorem teardown_calls : h.teardown.1.calls = h.calls := by
  unfold teardown
  split <;> rfl

/-- **A step that attaches no session** at most leaves some. -/
theorem lets_step (hkept : h.Kept) (he : ¬ Attaches h e) :
    (h.step e).1.Kept ∧ Lets h (h.step e).1 := by
  cases e with
  | enterRoom nickname =>
    simp only [step, enterRoom]
    split
    · exact ⟨hkept.recall (entering_of_append (by simp)), Lets.refl.recall _⟩
    · refine ⟨(kept_teardown hkept).recall ?_, lets_teardown.recall _⟩
      rw [teardown_calls]
      exact entering_of_append (by simp)
  | leaveRoom =>
    refine ⟨(kept_teardown hkept).recall ?_, lets_teardown.recall _⟩
    rw [teardown_calls]
    exact entering_of_append (by simp)
  | resume call =>
    simp only [step, resume]
    split
    · next request hcall => exact absurd ⟨call, request, rfl, hcall⟩ he
    · exact ⟨hkept.recall (entering_of_set (by simp)), Lets.refl.recall _⟩
    · exact ⟨hkept.recall (entering_of_set (by simp)), Lets.refl.recall _⟩
    · exact ⟨hkept, Lets.refl⟩
  | entered call snapshot =>
    simp only [step, entered]
    split
    · exact ⟨hkept.recall (entering_of_set (by simp)), Lets.refl.recall _⟩
    · exact ⟨hkept, Lets.refl⟩
  | threw call message =>
    simp only [step, threw]
    split
    · next s hcall =>
      have hs := hkept.calls s (List.mem_of_getElem? hcall)
      exact ⟨(kept_discard hkept hs).recall (entering_of_set (by simp)), (lets_discard s).recall _⟩
    · exact ⟨hkept, Lets.refl⟩
  | update s snapshot => exact ⟨hkept, Lets.refl⟩
  | media s body => exact ⟨hkept, Lets.refl⟩
  | getSnapshot shown => exact ⟨hkept, Lets.refl⟩
  | sendMedia body => exact ⟨hkept, Lets.refl⟩

/-- **A step that attaches a session.** -/
theorem resume_attaches {call : ℕ} {request : EnterRoomRequest}
    (hcall : h.calls[call]? = some (.tearingDown request)) :
    (h.step (.resume call)).1.made = h.made + 1 ∧
      (h.step (.resume call)).1.session = some h.made ∧
      (h.step (.resume call)).1.left = h.left ∧
      (h.step (.resume call)).1.calls = h.calls.set call (.entering h.made) := by
  simp only [step, resume, hcall]
  exact ⟨rfl, rfl, rfl, rfl⟩

theorem kept_attaches (hkept : h.Kept) {call : ℕ} {request : EnterRoomRequest}
    (hcall : h.calls[call]? = some (.tearingDown request)) : (h.step (.resume call)).1.Kept := by
  obtain ⟨hmade, hsession, hleft, hcalls⟩ := resume_attaches hcall
  refine ⟨fun s hs => ?_, fun s hs => ?_, fun s hs => ?_⟩
  · rw [hsession] at hs
    cases hs
    refine ⟨by omega, fun hmem => ?_⟩
    rw [hleft] at hmem
    exact absurd (hkept.left _ hmem) (Nat.lt_irrefl _)
  · rw [hleft] at hs
    have hlt := hkept.left s hs
    omega
  · rw [hcalls] at hs
    obtain hold | hnew := List.mem_or_eq_of_mem_set hs
    · have hlt := hkept.calls s hold
      omega
    · cases hnew
      omega

theorem kept_next (hkept : h.Kept) (_ : handlers.enabled h e) : (handlers.next h e).Kept := by
  by_cases he : Attaches h e
  · obtain ⟨call, request, rfl, hcall⟩ := he
    exact kept_attaches hkept hcall
  · exact (lets_step hkept he).1

/-- A session attached over another one leaves two of them live. -/
theorem exclusive_attaches_iff (hkept : h.Kept) (hex : h.Exclusive) {call : ℕ}
    {request : EnterRoomRequest} (hcall : h.calls[call]? = some (.tearingDown request)) :
    (h.step (.resume call)).1.Exclusive ↔ h.session = none := by
  obtain ⟨hmade, hsession, hleft, -⟩ := resume_attaches hcall
  have hlive : ∀ s, (h.step (.resume call)).1.Live s ↔ s < h.made + 1 ∧ s ∉ h.left := by
    intro s
    rw [Live, hmade, hleft]
  rw [exclusive_iff]
  constructor
  · intro hall
    cases hold : h.session with
    | none => rfl
    | some s =>
      obtain ⟨hlt, hnot⟩ := hkept.session s hold
      have hnew := hall s ((hlive s).mpr ⟨by omega, hnot⟩)
      rw [hsession] at hnew
      have heq := Option.some.inj hnew
      omega
  · intro hnone s hs
    obtain ⟨hlt, hnot⟩ := (hlive s).mp hs
    rw [hsession]
    by_cases hold : s < h.made
    · have hsome := hex.2 s ⟨hold, hnot⟩
      rw [hnone] at hsome
      cases hsome
    · rw [show s = h.made by omega]

theorem exclusive_next_iff (hkept : h.Kept) (hex : h.Exclusive) (_ : handlers.enabled h e) :
    (handlers.next h e).Exclusive ↔ h.Unattached e := by
  by_cases he : Attaches h e
  · obtain ⟨call, request, rfl, hcall⟩ := he
    refine (exclusive_attaches_iff hkept hex hcall).trans ⟨fun hnone _ _ => hnone, fun hall => ?_⟩
    exact hall request hcall
  · refine ⟨fun _ => ?_, fun _ => (lets_step hkept he).2.exclusive hex⟩
    cases e with
    | resume call => exact fun request hcall => absurd ⟨call, request, rfl, hcall⟩ he
    | _ => trivial

theorem exclusive_new : Handlers.new.Exclusive :=
  exclusive_iff.mpr fun _ hs => absurd hs.1 (Nat.not_lt_zero _)

/-- **One live session at a time**: in every state of a run, exactly when every call of `enterRoom`
that goes on behind its teardown finds no session in the module variable. -/
theorem exclusive_iff_unattached (es : List IpcEvent) :
    Handlers.new.Exclusive ∧ handlers.Along (fun h e => (handlers.next h e).Exclusive) .new es ↔
      handlers.Along Unattached .new es := by
  have hvalid : handlers.Valid .new es := Machine.along_true _ _
  have hiff := Machine.along_next_iff (Q := Unattached) (fun _ _ hkept he => kept_next hkept he)
    (fun _ _ hkept hex he => exclusive_next_iff hkept hex he) hvalid kept_new exclusive_new
  exact ⟨fun hall => hiff.mp hall.2, fun hall => ⟨exclusive_new, hiff.mpr hall⟩⟩

/-! ### Two calls at once -/

/-- While the first session is being left, a second call attaches its session, and then the first. -/
def twoCalls : List IpcEvent :=
  [.enterRoom (some "ana"), .resume 0, .entered 0 idleSnapshot, .enterRoom (some "ana"),
    .enterRoom (some "bia"), .resume 2, .resume 1]

theorem twoCalls_orphan :
    ¬ handlers.Along (fun h e => (handlers.next h e).Exclusive) .new twoCalls := by
  intro hall
  have hlast := Machine.along_iff_split.mp hall (twoCalls.take 6) (.resume 1) [] rfl
  exact absurd (hlast.1 1 2 (by decide) (by decide)) (by decide)

end ScreenSharing.App
