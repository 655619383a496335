import ScreenSharing.App.Standing

/-!
# After the end of a membership

Once `leave` has been called, whatever was under way gives up before it touches the phase, and the
loops of `enter` end.  The other three ways to `left` do not stop a change of host: the session still
listens to its client, and a `host-transfer` that it hears then is acted on.

`Revives` is the step in which such a change comes to its end.  `left_terminal_iff` says that a session
that has been in the room keeps the phase `left` exactly when no step revives it.
-/

namespace ScreenSharing.App

open Lib RoomSession

variable {s : RoomSession} {e : SessionEvent}

/-! ### `left` -/

/-- A change of host that `leave` has not cancelled comes to its end: the server of a successor
listens, or the client of a survivor has been admitted. -/
def Revives (s : RoomSession) (e : SessionEvent) : Bool :=
  !s.leaving && match e, s.transfer with
    | .transferListening, some (.listening _) => true
    | .transferConnected, some (.connected ..) => true
    | _, _ => false

/-- The phase `left` stays, in every state of the run. -/
def LeftIsTerminal (s : RoomSession) (es : List SessionEvent) : Prop :=
  session.Along (fun s e => s.phase = .left → (session.next s e).phase = .left) s es

/-- No change of host comes to its end on a session that has left. -/
def NeverRevived (s : RoomSession) (es : List SessionEvent) : Prop :=
  session.Along (fun s e => s.phase = .left → Revives s e = false) s es

theorem transferFailed_left (h : s.phase = .left) (message : String) :
    (s.transferFailed message).1.phase = .left := by
  unfold transferFailed
  split
  · rfl
  · rfl
  · split
    · exact h
    · rfl
  · exact h

/-- **A change of host and `left`**: only its good end changes the phase. -/
theorem ofTransfer_left (h : s.phase = .left) (he : e.ofTransfer = true) :
    (s.step e).1.phase = .left ↔ Revives s e = false := by
  cases e with
  | transferListening =>
    simp only [step, transferListening, Revives]
    cases s.transfer with
    | none => simp [h]
    | some flow => cases flow <;> cases s.leaving <;> simp [h]
  | transferConnected =>
    simp only [step, transferConnected, Revives]
    cases s.transfer with
    | none => simp [h]
    | some flow => cases flow <;> cases s.leaving <;> simp [h]
  | transferOpened =>
    simp only [step, transferOpened, Revives]
    split
    · split <;> simp [h, startServer]
    · simp [h]
  | transferClaimed claimed =>
    simp only [step, transferClaimed, Revives]
    split
    · split
      · simp [h]
      · split <;> simp [h, startClient, roomEnded]
    · simp [h]
  | transferJoined welcome =>
    simp only [step, transferJoined, Revives]
    split
    · split
      · simp [transferFailed_left h]
      · simp [h, fill]
    · simp [h]
  | transferFailed message => simp [step, Revives, transferFailed_left h]
  | transferClosed =>
    simp only [step, transferClosed, Revives]
    split <;> simp [h]
  | _ => cases he

/-- **The phase and one step**, on a session that has left the room it was in. -/
theorem left_next_iff (hentry : s.entry = .done) (h : s.phase = .left) (he : session.enabled s e) :
    (session.next s e).phase = .left ↔ Revives s e = false := by
  show (s.step e).1.phase = .left ↔ _
  by_cases htransfer : e.ofTransfer = true
  · exact ofTransfer_left h htransfer
  have hstill : Revives s e = false := by
    cases e with
    | transferListening | transferConnected => exact absurd rfl htransfer
    | _ => simp [Revives]
  have hleft : (s.step e).1.phase = .left := by
    obtain hofEntry | hofTransfer | ⟨client, successorPeerId, epoch, rfl⟩ | hstill := step_cases s e
    · rw [step_ofEntry hentry he hofEntry]
      exact h
    · exact absurd hofTransfer htransfer
    · obtain hsame | hleft := onHostTransfer_phase (s := s) successorPeerId epoch
      · exact hsame.trans h
      · exact hleft
    · exact hstill.left h
  simp [hleft, hstill]

/-- **When `left` is terminal**: in every run of a session that has been in the room, exactly when no
change of host that `leave` has not cancelled comes to its end after the session has left. -/
theorem left_terminal_iff {pre es : List SessionEvent} (h : session.Valid .begin (pre ++ es))
    (hpresent : (session.exec .begin pre).phase.present = true) :
    LeftIsTerminal (session.exec .begin pre) es ↔ NeverRevived (session.exec .begin pre) es := by
  obtain ⟨hpre, hes⟩ := (session.along_append _ _ _ _).mp h
  have hentry := entered_of_present (arriving_exec hpre) hpresent
  refine Machine.along_congr (I := fun s => s.entry = .done) (fun _ _ h he => done_next h he)
    (fun s e hdone he => ?_) hes hentry
  exact forall_congr' fun hleft => left_next_iff hdone hleft he

/-! ### A host that comes back -/

/-- A peer loses its host, and hears it again when it hands the room on. -/
def opts : EnterOptions := ⟨"ana", none, none, none⟩

def enters : List SessionEvent :=
  [.enter opts, .entryOpened "p_00000000",
    .entryJoined ⟨"p_00000001", 0, defaultRoomParams, [], []⟩, .entryConnected]

def returns : List SessionEvent :=
  [.client 0 .hostLost, .client 0 (.hostTransfer "p_00000001" 1), .transferOpened,
    .transferListening]

instance (s : RoomSession) (es : List SessionEvent) : Decidable (LeftIsTerminal s es) :=
  inferInstanceAs (Decidable (session.Along _ s es))

instance (s : RoomSession) (es : List SessionEvent) : Decidable (NeverRevived s es) :=
  inferInstanceAs (Decidable (session.Along _ s es))

theorem returns_revive : session.Valid .begin (enters ++ returns) ∧
    (session.exec .begin enters).phase.present = true ∧
    ¬ LeftIsTerminal (session.exec .begin enters) returns := by decide

theorem left_terminal_iff_returns : session.Valid .begin (enters ++ returns) ∧
    (LeftIsTerminal (session.exec .begin enters) returns ↔
      NeverRevived (session.exec .begin enters) returns) :=
  ⟨by decide, left_terminal_iff (by decide) (by decide)⟩

end ScreenSharing.App
