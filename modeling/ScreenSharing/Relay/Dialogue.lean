import Mathlib.Data.List.Induction
import ScreenSharing.Relay.Serving

/-!
# What the server says on one connection

Whatever the network and the timers deliver, the server says very little on one connection.  Before a
HELLO there is no frame.  A HELLO is answered once, with READY or with REJECT; REJECT is the only frame
of its connection and comes with a close frame.  After a close frame there is nothing.  `Dialogue` is
this language, and `said_dialogue` says that every run of the server keeps to it on every connection.

The relay itself would go on: it sends to a socket that it has told to close, and a HELLO that comes in
after a close frame has gone out is still a HELLO for it.  What keeps the dialogue is that a WebSocket
which is not open lets nothing through, so `Stage` relates what was said to where the connection is,
and `turn` lists what one event can do to one connection.

The last part is the idle timer: it cuts a connection off if and only if an earlier ping has had no
answer.
-/

namespace ScreenSharing.Relay

open Lib

variable {L : RelayLimits} {rt : JsonRuntime} {S : RelayHttpServer} {out : List Written}
  {R : ServerState} {effects : List Effect}

/-! ### Answers to a HELLO -/

/-- READY and REJECT. -/
def Frame.isAnswer : Frame → Bool
  | .ready _ _ | .reject _ => true
  | _ => false

/-- Only a HELLO is answered, and only to the socket that has said it. -/
theorem hello_of_answer {R : State} {e : Event} {dest : Socket} {frame : Frame}
    (hsent : Effect.send dest frame ∈ (react L R e).2) (hanswer : frame.isAnswer = true) :
    ∃ hello now token, e = .hello dest hello now token := by
  cases e with
  | hello socket hello now token =>
    change _ ∈ (onHello L now token socket hello R).2 at hsent
    have hout := onHello_outcome L now token socket hello R
    generalize onHello L now token socket hello R = res at hout hsent
    cases hout with
    | refused reason hrooms hatt =>
      have heq : dest = socket ∧ frame = .reject reason := by simpa [kick] using hsent
      rw [heq.1]
      exact ⟨hello, now, token, rfl⟩
    | claimed hfresh hrole hroom hclaim hproto =>
      rw [claimHandoff_effects] at hsent
      rcases List.mem_cons.mp hsent with heq | hrest
      · cases heq
        exact ⟨hello, now, token, rfl⟩
      · obtain ⟨entry, -, heffect⟩ := List.mem_flatMap.mp hrest
        rcases List.mem_pair.mp heffect with heq | heq <;> cases heq <;> cases hanswer
    | created hfresh hrole hroom hrooms hatt =>
      cases List.mem_singleton.mp hsent
      exact ⟨hello, now, token, rfl⟩
    | joined hfresh hrole hroom hrooms hatt =>
      rcases List.mem_pair.mp hsent with heq | heq
      · cases heq
        exact ⟨hello, now, token, rfl⟩
      · cases heq
        cases hanswer
  | message socket data now =>
    change _ ∈ (onMessage now socket data R).2 at hsent
    have hout := onMessage_outcome now socket data R
    generalize onMessage now socket data R = res at hout hsent
    cases hout with
    | ignored | handedOff | kicked => simp at hsent
    | ponged | toPeer | toHost =>
      cases List.mem_singleton.mp hsent
      cases hanswer
  | close socket =>
    change _ ∈ (onClose socket R).2 at hsent
    have hout := onClose_outcome socket R
    generalize onClose socket R = res at hout hsent
    cases hout with
    | unattached | detached => simp at hsent
    | toredown =>
      obtain ⟨peer, -, heffect⟩ := List.mem_flatMap.mp hsent
      rcases List.mem_pair.mp heffect with heq | heq <;> cases heq
      cases hanswer
    | left =>
      cases List.mem_singleton.mp hsent
      cases hanswer
  | sweep now =>
    obtain ⟨peer, heq | heq⟩ := sweepRooms_effects now _ R _ hsent <;> cases heq
    cases hanswer

/-- The answer to a HELLO, with what else the relay says to the same connection at that moment. -/
inductive Reply : List Said → Prop
  | rejected (reason : RejectReason) :
      Reply [.frame (.reject reason), .close 1008 reason.text]
  | served (connId : Option ℕ) (token : Option String) (frames : List Frame)
      (hframes : ∀ frame ∈ frames, frame.isAnswer = false) :
      Reply (.frame (.ready connId token) :: frames.map .frame)

/-- Calls that only send what is no answer. -/
theorem addressed_sends (id : ℕ) (calls : List Effect)
    (hcalls : ∀ effect ∈ calls, ∃ dest frame, effect = .send dest frame ∧ frame.isAnswer = false) :
    ∃ frames : List Frame, addressed id calls = frames.map .frame ∧
      ∀ frame ∈ frames, frame.isAnswer = false := by
  induction calls with
  | nil => exact ⟨[], rfl, fun frame h => by cases h⟩
  | cons effect calls ih =>
    obtain ⟨frames, heq, hframes⟩ := ih fun effect h => hcalls effect (List.mem_cons_of_mem _ h)
    obtain ⟨dest, frame, rfl, hframe⟩ := hcalls effect List.mem_cons_self
    rw [addressed_cons, heq]
    unfold addressedOf
    dsimp only
    split
    · refine ⟨frame :: frames, rfl, fun frame' hmem => ?_⟩
      rcases List.mem_cons.mp hmem with rfl | hrest
      · exact hframe
      · exact hframes frame' hrest
    · exact ⟨frames, rfl, hframes⟩

/-- **A HELLO has one answer.** -/
theorem reply_of_hello (R : State) (socket : Socket) (hello : Hello) (now : ℕ) (token : String) :
    Reply (addressed socket.id (onHello L now token socket hello R).2) := by
  have hready : ∀ (connId : Option ℕ) (token : Option String) (rest : List Effect),
      (∀ effect ∈ rest, ∃ dest frame, effect = .send dest frame ∧ frame.isAnswer = false) →
      Reply (addressed socket.id (.send socket (.ready connId token) :: rest)) := by
    intro connId token rest hrest
    obtain ⟨frames, heq, hframes⟩ := addressed_sends socket.id rest hrest
    rw [addressed_cons, heq]
    unfold addressedOf
    dsimp only
    rw [if_pos rfl]
    exact .served connId token frames hframes
  have hout := onHello_outcome L now token socket hello R
  generalize onHello L now token socket hello R = res at hout
  cases hout with
  | refused reason hrooms hatt =>
    have heq : addressed socket.id (kick socket reason) =
        [.frame (.reject reason), .close 1008 reason.text] := by
      simp [kick, addressed, addressedOf]
    rw [heq]
    exact .rejected reason
  | claimed hfresh hrole hroom hclaim hproto =>
    rw [claimHandoff_effects]
    refine hready _ _ _ fun effect hmem => ?_
    obtain ⟨entry, -, heffect⟩ := List.mem_flatMap.mp hmem
    rcases List.mem_pair.mp heffect with rfl | rfl
    · exact ⟨_, _, rfl, rfl⟩
    · exact ⟨_, _, rfl, rfl⟩
  | created hfresh hrole hroom hrooms hatt =>
    exact hready _ _ [] fun effect hmem => by cases hmem
  | joined hfresh hrole hroom hrooms hatt =>
    refine hready _ _ _ fun effect hmem => ?_
    cases List.mem_singleton.mp hmem
    exact ⟨_, _, rfl, rfl⟩

/-! ### What one event can do to one connection -/

/-- The turn of one connection: what it becomes, and what is said on it. -/
inductive Turn (c c' : Connection) (xs : List Said) : Prop
  /-- nothing is said -/
  | silent (hun : Unheard c c') (hxs : xs = [])
  /-- the handler closes it -/
  | dismissed (code : ℕ) (reason : String) (hopen : c.readyState = .opened)
      (hshut : c'.readyState ≠ .opened) (hxs : xs = [.close code reason])
  /-- it has said HELLO -/
  | greeted (hello : Hello) (now : ℕ) (token : String) (ys : List Said)
      (hfresh : c.greeted = false) (hreply : Reply ys)
      (hc' : c' = ({ c with greeted := true } : Connection).hears ys)
      (hxs : xs = ({ c with greeted := true } : Connection).utters ys)
  /-- the relay calls its socket on some other occasion -/
  | called (c₁ : Connection) (ys : List Said) (hfollows : Follows c c₁)
      (hgreeted : c₁.greeted = c.greeted)
      (hframes : ∀ frame, .frame frame ∈ ys → c.greeted = true ∧ frame.isAnswer = false)
      (hc' : c' = c₁.hears ys) (hxs : xs = c₁.utters ys)

theorem mem_addressed {id : ℕ} {frame : Frame} {calls : List Effect}
    (h : Said.frame frame ∈ addressed id calls) :
    ∃ dest : Socket, dest.id = id ∧ Effect.send dest frame ∈ calls := by
  obtain ⟨effect, hmem, heq⟩ := List.mem_filterMap.mp h
  cases effect with
  | send dest frame' =>
    unfold addressedOf at heq
    dsimp only at heq
    split at heq
    · next hid =>
      cases heq
      exact ⟨dest, hid, hmem⟩
    · cases heq
  | close socket code reason =>
    unfold addressedOf at heq
    dsimp only at heq
    split at heq <;> cases heq

/-- What the relay sends to a connection, unless the connection has just said HELLO. -/
theorem Serves.called (h : Serves S out R effects) {e : Event} (henabled : Enabled R e) {id : ℕ}
    {c : Connection} (hc : S.connections.get id = some c)
    (hother : ∀ socket hello now token, e = .hello socket hello now token → socket.id ≠ id)
    {frame : Frame} (hmem : .frame frame ∈ addressed id (react L S.relay e).2) :
    c.greeted = true ∧ frame.isAnswer = false := by
  obtain ⟨dest, hdest, hsent⟩ := mem_addressed hmem
  have hanswer : frame.isAnswer = false := by
    by_contra hanswer
    rw [Bool.not_eq_false] at hanswer
    obtain ⟨hello, now, token, heq⟩ := hello_of_answer hsent hanswer
    exact hother dest hello now token heq hdest
  refine ⟨?_, hanswer⟩
  have hnext : dest ∈ ((server L).next R e).greeted := by
    have hsent' : Effect.send dest frame ∈ (react L R.relay e).2 := by
      rw [h.relay]
      exact hsent
    exact greeted_of_sent h.kept.toSeated henabled hsent'
  have hgreeted : dest ∈ R.greeted := by
    cases e with
    | hello socket hello now token =>
      refine (List.mem_cons.mp hnext).resolve_left ?_
      rintro rfl
      exact hother dest hello now token rfl hdest
    | _ => exact hnext
  obtain ⟨c', hc', -, hgreeted'⟩ := (h.greeted dest).mp hgreeted
  rw [hdest, hc] at hc'
  cases hc'
  exact hgreeted'

/-- A connection that the event is not about. -/
theorem turn_other (h : Serves S out R effects) {e : Event} (henabled : Enabled R e) {id : ℕ}
    {c : Connection} (hc : S.connections.get id = some c)
    (hother : ∀ socket hello now token, e = .hello socket hello now token → socket.id ≠ id)
    {cs : InsertionMap ℕ Connection} {c₁ : Connection} (hc₁ : cs.get id = some c₁)
    (hfollows : Follows c c₁) (hgreeted : c₁.greeted = c.greeted) :
    ∃ c', (perform (react L S.relay e).2 cs).1.get id = some c' ∧
      Turn c c' (said id (perform (react L S.relay e).2 cs).2) := by
  refine ⟨c₁.hears (addressed id (react L S.relay e).2), ?_, .called c₁ _ hfollows hgreeted
    (fun frame hmem => h.called henabled hc hother hmem) rfl ?_⟩
  · rw [perform_get, hc₁]
    rfl
  · rw [perform_said, hc₁]
    rfl

theorem turn_silent {id : ℕ} {c : Connection} {S' : RelayHttpServer} {out' : List Written}
    (hc' : S'.connections.get id = some c) (hsaid : said id out' = []) :
    ∃ c', S'.connections.get id = some c' ∧ Turn c c' (said id out') :=
  ⟨c, hc', .silent (.refl c) hsaid⟩

/-- A step of one connection alone, seen from any connection. -/
theorem turn_update {id id₀ : ℕ} {c c₀ : Connection} (hc : S.connections.get id = some c)
    (hc₀ : S.connections.get id₀ = some c₀) {result : Connection × List Written}
    (hself : Turn c₀ result.1 (said id₀ result.2))
    (hother : id ≠ id₀ → said id result.2 = []) :
    ∃ c', (S.update id₀ result).1.connections.get id = some c' ∧
      Turn c c' (said id (S.update id₀ result).2) := by
  by_cases hid : id = id₀
  · subst hid
    rw [hc] at hc₀
    cases hc₀
    exact ⟨result.1, InsertionMap.get_set_self .., hself⟩
  · exact turn_silent ((InsertionMap.get_set_ne _ _ hid).trans hc) (hother hid)

/-- `ws.close`, as a turn. -/
theorem turn_close {id id₀ : ℕ} {c c₀ : Connection} (hc : S.connections.get id = some c)
    (hc₀ : S.connections.get id₀ = some c₀) (code : ℕ) (reason : String) :
    ∃ c', (S.update id₀ (c₀.close id₀ code reason)).1.connections.get id = some c' ∧
      Turn c c' (said id (S.update id₀ (c₀.close id₀ code reason)).2) := by
  refine turn_update hc hc₀ ?_ fun hid => ?_
  · rw [close_said]
    by_cases hopen : c₀.readyState = .opened
    · rw [if_pos ⟨rfl, hopen⟩]
      refine .dismissed code reason hopen ?_ rfl
      rw [close_fst]
      exact onClosing_not_opened c₀
    · rw [if_neg fun hboth => hopen hboth.2]
      exact .silent (unheard_close ..) rfl
  · rw [close_said, if_neg fun hboth => hid hboth.1.symm]

theorem turn_message (h : Serves S out R effects) {id id₀ : ℕ} {c : Connection} (data : Bytes)
    (isBinary : Bool) (now : ℕ) (token : String) (hc : S.connections.get id = some c)
    (hlive : S.Live id₀) :
    ∃ c', (serve L rt S (.message id₀ data isBinary now token)).1.connections.get id = some c' ∧
      Turn c c' (said id (serve L rt S (.message id₀ data isBinary now token)).2) := by
  obtain ⟨c₀, hc₀, hnotclosed⟩ := hlive
  have hserve : serve L rt S (.message id₀ data isBinary now token) =
      onWsMessage L rt id₀ data isBinary now token c₀ S := by simp only [serve, hc₀]
  rw [hserve]
  have hnotgone : c₀.socket ∉ R.gone := fun hgone => hnotclosed ((h.gone_iff hc₀).mp hgone)
  unfold onWsMessage
  by_cases hbinary : isBinary = true
  · by_cases hgreeted : c₀.greeted = true
    · simp only [hbinary, hgreeted, Bool.not_true, Bool.false_eq_true, if_false]
      have henabled : Enabled R (.message c₀.socket data now) :=
        ⟨(h.greeted_iff hc₀).mpr hgreeted, hnotgone⟩
      exact turn_other (L := L) h henabled hc (fun _ _ _ _ heq => by cases heq) hc
        ⟨rfl, fun hopen => hopen⟩ rfl
    · simp only [hbinary, hgreeted, Bool.not_true, Bool.not_false, Bool.false_eq_true, if_false,
        if_true]
      obtain ⟨r, hr⟩ := Wire.decodeHello_total rt data
      rw [hr]
      cases r with
      | none => exact turn_close hc hc₀ 1008 "bad hello"
      | some hello =>
        have hident := h.ident id₀ c₀ hc₀
        by_cases hid : id = id₀
        · -- the HELLO is its own
          subst hid
          rw [hc] at hc₀
          cases hc₀
          have hget : (S.connections.set id { c with greeted := true }).get id =
              some { c with greeted := true } := InsertionMap.get_set_self ..
          have hreply := reply_of_hello (L := L) S.relay c.socket hello now token
          rw [hident] at hreply
          refine ⟨_, ?_, .greeted hello now token _ (Bool.not_eq_true _ ▸ hgreeted) hreply
            rfl ?_⟩
          · show (perform _ (S.connections.set id { c with greeted := true })).1.get id = _
            rw [perform_get, hget]
            rfl
          · show said id (perform _ (S.connections.set id { c with greeted := true })).2 = _
            rw [perform_said, hget]
            rfl
        · have henabled : Enabled R (.hello c₀.socket hello now token) :=
            ⟨fun hmem => hgreeted ((h.greeted_iff hc₀).mp hmem), hnotgone⟩
          refine turn_other (L := L) h henabled hc (fun socket hello' now' token' heq => ?_)
            ((InsertionMap.get_set_ne _ _ hid).trans hc) ⟨rfl, fun hopen => hopen⟩ rfl
          cases heq
          rw [hident]
          exact Ne.symm hid
  · rw [Bool.not_eq_true] at hbinary
    simp only [hbinary, Bool.not_false, if_true]
    exact turn_close hc hc₀ 1003 "binary only"

/-- **What one event can do to one connection.** -/
theorem turn (h : Serves S out R effects) {e : WsEvent} (hdeliverable : Deliverable S e) {id : ℕ}
    {c : Connection} (hc : S.connections.get id = some c) :
    ∃ c', (serve L rt S e).1.connections.get id = some c' ∧
      Turn c c' (said id (serve L rt S e).2) := by
  have hone : ∀ {id₀} {f : Connection → Connection × List Written}, S.Live id₀ →
      (∀ c, Unheard c (f c).1) → (∀ id' c, said id' (f c).2 = []) →
      (∀ c, S.connections.get id₀ = some c → serve L rt S e = S.update id₀ (f c)) →
      ∃ c', (serve L rt S e).1.connections.get id = some c' ∧
        Turn c c' (said id (serve L rt S e).2) := by
    intro id₀ f hlive hun hsaid hserve
    obtain ⟨c₀, hc₀, -⟩ := hlive
    rw [hserve c₀ hc₀]
    exact turn_update hc hc₀ (.silent (hun c₀) (hsaid id₀ c₀)) fun _ => hsaid id c₀
  cases e with
  | connection id₀ forwardedFor remoteAddress =>
    have hne : id ≠ id₀ := by
      rintro rfl
      rw [hdeliverable.2] at hc
      cases hc
    exact turn_silent ((InsertionMap.get_set_ne _ _ hne).trans hc) rfl
  | message id₀ data isBinary now token =>
    exact turn_message h data isBinary now token hc hdeliverable
  | pong id₀ =>
    exact hone (f := fun c => ({ c with alive := true }, [])) hdeliverable
      (fun c => ⟨⟨rfl, fun hopen => hopen⟩, rfl, Iff.rfl⟩) (fun _ _ => rfl)
      fun c hc => by simp only [serve, hc]
  | idle id₀ =>
    exact hone (f := Connection.onIdle id₀) hdeliverable (unheard_onIdle id₀)
      (fun id' c => said_onIdle id' id₀ c) fun c hc => by simp only [serve, hc]
  | closing id₀ =>
    exact hone (f := fun c => (c.onClosing, [])) hdeliverable unheard_onClosing (fun _ _ => rfl)
      fun c hc => by simp only [serve, hc]
  | error id₀ =>
    exact hone (f := Connection.terminate id₀) hdeliverable (unheard_terminate id₀)
      (fun id' c => said_terminate id' id₀ c) fun c hc => by simp only [serve, hc]
  | closed id₀ =>
    obtain ⟨c₀, hc₀, hnotclosed⟩ := hdeliverable
    have henabled : Enabled R (.close c₀.socket) := fun hgone =>
      hnotclosed ((h.gone_iff hc₀).mp hgone)
    have hserve : serve L rt S (.closed id₀) = RelayHttpServer.call
        { S with connections := S.connections.set id₀ { c₀ with readyState := .closed } }
        (react L S.relay (.close c₀.socket)) := by
      simp only [serve, hc₀]
      rfl
    rw [hserve]
    by_cases hid : id = id₀
    · subst hid
      rw [hc] at hc₀
      cases hc₀
      exact turn_other h henabled hc (fun _ _ _ _ heq => by cases heq)
        (InsertionMap.get_set_self ..) ⟨rfl, fun hopen => by cases hopen⟩ rfl
    · exact turn_other h henabled hc (fun _ _ _ _ heq => by cases heq)
        ((InsertionMap.get_set_ne _ _ hid).trans hc) ⟨rfl, fun hopen => hopen⟩ rfl
  | sweep now =>
    exact turn_other (e := .sweep now) h trivial hc (fun _ _ _ _ heq => by cases heq) hc
      ⟨rfl, fun hopen => hopen⟩ rfl
  | request url =>
    simp only [serve]
    split <;> exact turn_silent hc rfl
  | shutdown =>
    obtain ⟨hrel, hsaid⟩ := terminateAll_get S.connections.keys id S.connections
    rw [hc] at hrel
    show ∃ c', (terminateAll _ _).1.get id = some c' ∧ Turn c c' (said id (terminateAll _ _).2)
    rw [hsaid]
    generalize (terminateAll S.connections.keys S.connections).1.get id = o at hrel ⊢
    cases hrel with
    | some hun => exact ⟨_, rfl, .silent hun rfl⟩

/-! ### The dialogue -/

/-- READY, then other frames. -/
inductive Served : List Said → Prop
  | intro (connId : Option ℕ) (token : Option String) (frames : List Frame)
      (hframes : ∀ frame ∈ frames, frame.isAnswer = false) :
      Served (.frame (.ready connId token) :: frames.map .frame)

/-- What is said on a connection, from first to last. -/
inductive Dialogue : List Said → Prop
  | silent : Dialogue []
  | dismissed (code : ℕ) (reason : String) : Dialogue [.close code reason]
  | rejected (reason : RejectReason) :
      Dialogue [.frame (.reject reason), .close 1008 reason.text]
  | served {xs : List Said} (h : Served xs) : Dialogue xs
  | ended {xs : List Said} (h : Served xs) (code : ℕ) (reason : String) :
      Dialogue (xs ++ [.close code reason])

/-- Where the dialogue is: before the HELLO, after it, or over. -/
inductive Stage (c : Connection) (xs : List Said) : Prop
  | waiting (hopen : c.readyState = .opened) (hfresh : c.greeted = false) (hxs : xs = [])
  | serving (hopen : c.readyState = .opened) (hgreeted : c.greeted = true) (hxs : Served xs)
  | finished (hshut : c.readyState ≠ .opened) (hxs : Dialogue xs)

theorem Stage.dialogue {c : Connection} {xs : List Said} (h : Stage c xs) : Dialogue xs := by
  cases h with
  | waiting hopen hfresh hxs =>
    rw [hxs]
    exact .silent
  | serving hopen hgreeted hxs => exact .served hxs
  | finished hshut hxs => exact hxs

theorem Served.append {xs : List Said} (h : Served xs) {frames : List Frame}
    (hframes : ∀ frame ∈ frames, frame.isAnswer = false) : Served (xs ++ frames.map .frame) := by
  obtain ⟨connId, token, frames₀, hframes₀⟩ := h
  rw [List.cons_append, ← List.map_append]
  refine .intro connId token _ fun frame hmem => ?_
  rcases List.mem_append.mp hmem with h₀ | h₁
  · exact hframes₀ frame h₀
  · exact hframes frame h₁

/-- On an open connection the relay's calls come through up to the first close. -/
theorem utters_shape (ys : List Said) : ∀ {c : Connection}, c.readyState = .opened →
    ∃ frames : List Frame, (∀ frame ∈ frames, .frame frame ∈ ys) ∧
      ((c.utters ys = frames.map .frame ∧ (c.hears ys).readyState = .opened) ∨
        ((c.hears ys).readyState ≠ .opened ∧
          ∃ code reason, c.utters ys = frames.map .frame ++ [.close code reason])) := by
  induction ys with
  | nil => exact fun hopen => ⟨[], (fun _ h => by cases h), .inl ⟨rfl, hopen⟩⟩
  | cons y ys ih =>
    intro c hopen
    cases y with
    | frame frame =>
      obtain ⟨frames, hmem, hshape⟩ := ih (c := c) hopen
      refine ⟨frame :: frames, fun frame' h => ?_, ?_⟩
      · rcases List.mem_cons.mp h with rfl | hrest
        · exact List.mem_cons_self
        · exact List.mem_cons_of_mem _ (hmem frame' hrest)
      · rw [Connection.utters, if_pos hopen]
        rcases hshape with ⟨hutters, hstill⟩ | ⟨hshut, code, reason, hutters⟩
        · exact .inl ⟨by rw [show c.hear (.frame frame) = c from rfl, hutters]; rfl, hstill⟩
        · exact .inr ⟨hshut, code, reason, by
            rw [show c.hear (.frame frame) = c from rfl, hutters]; rfl⟩
    | close code reason =>
      obtain ⟨hnil, hshut⟩ := utters_of_not_opened ys (onClosing_not_opened c)
      refine ⟨[], (fun _ h => by cases h), .inr ⟨hshut, code, reason, ?_⟩⟩
      rw [Connection.utters, if_pos hopen, show c.hear (.close code reason) = c.onClosing from rfl, hnil]
      rfl

/-- Frames let the connection be. -/
theorem hears_frames (frames : List Frame) (c : Connection) :
    c.hears (frames.map .frame) = c := by
  induction frames with
  | nil => rfl
  | cons frame frames ih => exact ih

/-- **One turn goes on with the dialogue.** -/
theorem stage_turn {c c' : Connection} {xs ys : List Said} (h : Stage c xs) (hturn : Turn c c' ys) :
    Stage c' (xs ++ ys) := by
  cases hturn with
  | silent hun hys =>
    rw [hys, List.append_nil]
    by_cases hopen' : c'.readyState = .opened
    · cases h with
      | waiting hopen hfresh hxs => exact .waiting hopen' (hun.greeted.trans hfresh) hxs
      | serving hopen hgreeted hxs => exact .serving hopen' (hun.greeted.trans hgreeted) hxs
      | finished hshut hxs => exact absurd (hun.opened hopen') hshut
    · exact .finished hopen' h.dialogue
  | dismissed code reason hopen hshut hys =>
    rw [hys]
    refine .finished hshut ?_
    cases h with
    | waiting hopen hfresh hxs =>
      rw [hxs]
      exact .dismissed code reason
    | serving hopen hgreeted hxs => exact .ended hxs code reason
    | finished hshut' hxs => exact absurd hopen hshut'
  | greeted hello now token zs hfresh hreply hc' hys =>
    subst hc' hys
    cases h with
    | waiting hopen hfresh' hxs =>
      rw [hxs, List.nil_append]
      have hopen₁ : ({ c with greeted := true } : Connection).readyState = .opened := hopen
      cases hreply with
      | rejected reason =>
        have hutters : ({ c with greeted := true } : Connection).utters
            [.frame (.reject reason), .close 1008 reason.text] =
            [.frame (.reject reason), .close 1008 reason.text] := by
          simp [Connection.utters, Connection.hear, hopen]
        rw [hutters]
        exact .finished (onClosing_not_opened _) (.rejected reason)
      | served connId token frames hframes =>
        have hsame : ({ c with greeted := true } : Connection).hears
            (.frame (.ready connId token) :: frames.map .frame) = { c with greeted := true } :=
          hears_frames (.ready connId token :: frames) _
        rw [utters_of_opened _ (by rw [hsame]; exact hopen), hsame]
        exact .serving hopen rfl (.intro connId token frames hframes)
    | serving hopen hgreeted hxs =>
      rw [hfresh] at hgreeted
      cases hgreeted
    | finished hshut hxs =>
      have hshut₁ : ({ c with greeted := true } : Connection).readyState ≠ .opened := hshut
      obtain ⟨hnil, hshut₂⟩ := utters_of_not_opened zs hshut₁
      rw [hnil, List.append_nil]
      exact .finished hshut₂ hxs
  | called c₁ zs hfollows hgreeted hframes hc' hys =>
    subst hc' hys
    by_cases hopen₁ : c₁.readyState = .opened
    · obtain ⟨frames, hmem, hshape⟩ := utters_shape zs hopen₁
      have hno : ∀ frame ∈ frames, c.greeted = true ∧ frame.isAnswer = false :=
        fun frame h => hframes frame (hmem frame h)
      cases h with
      | waiting hopen hfresh hxs =>
        -- the relay does not know the socket yet, so it sends no frames
        have hnil : frames = [] := by
          cases frames with
          | nil => rfl
          | cons frame frames =>
            have := (hno frame List.mem_cons_self).1
            rw [hfresh] at this
            cases this
        subst hnil
        rw [hxs, List.nil_append]
        rcases hshape with ⟨hutters, hstill⟩ | ⟨hshut, code, reason, hutters⟩
        · exact .waiting hstill (by rw [hears_greeted, hgreeted, hfresh]) hutters
        · rw [hutters]
          exact .finished hshut (.dismissed code reason)
      | serving hopen hgreeted' hxs =>
        have hserved := hxs.append fun frame h => (hno frame h).2
        rcases hshape with ⟨hutters, hstill⟩ | ⟨hshut, code, reason, hutters⟩
        · rw [hutters]
          exact .serving hstill (by rw [hears_greeted, hgreeted, hgreeted']) hserved
        · rw [hutters, ← List.append_assoc]
          exact .finished hshut (.ended hserved code reason)
      | finished hshut hxs => exact absurd (hfollows.opened hopen₁) hshut
    · obtain ⟨hnil, hshut⟩ := utters_of_not_opened zs hopen₁
      rw [hnil, List.append_nil]
      exact .finished hshut h.dialogue

theorem get_update_none {id id₀ : ℕ} {c₀ : Connection} (hc₀ : S.connections.get id₀ = some c₀)
    (hnone : S.connections.get id = none) (c₁ : Connection) :
    (S.connections.set id₀ c₁).get id = none := by
  refine (InsertionMap.get_set_ne _ _ ?_).trans hnone
  rintro rfl
  rw [hc₀] at hnone
  cases hnone

theorem get_perform_none {id : ℕ} {cs : InsertionMap ℕ Connection} (calls : List Effect)
    (hnone : cs.get id = none) : (perform calls cs).1.get id = none := by
  rw [perform_get, hnone]
  rfl

/-- Only a connection event makes a connection. -/
theorem new_of_next {e : WsEvent} (hdeliverable : Deliverable S e) {id : ℕ} {c' : Connection}
    (hnone : S.connections.get id = none)
    (hc' : (serve L rt S e).1.connections.get id = some c') :
    ∃ forwardedFor remoteAddress, e = .connection id forwardedFor remoteAddress ∧
      c' = ⟨⟨id, clientIp forwardedFor remoteAddress⟩, false, true, .opened⟩ := by
  -- every other event keeps the connections that there are
  have hold : ∀ {id₀ : ℕ} {f : Connection → RelayHttpServer × List Written}, S.Live id₀ →
      (∀ c, S.connections.get id₀ = some c → serve L rt S e = f c) →
      (∀ c, S.connections.get id₀ = some c → (f c).1.connections.get id = none) → False := by
    intro id₀ f hlive hserve hf
    obtain ⟨c₀, hc₀, -⟩ := hlive
    rw [hserve c₀ hc₀, hf c₀ hc₀] at hc'
    cases hc'
  cases e with
  | connection id₀ forwardedFor remoteAddress =>
    change (S.connections.set id₀ _).get id = some c' at hc'
    rw [InsertionMap.get_set] at hc'
    split at hc'
    · next hid =>
      cases hc'
      rw [hid]
      exact ⟨forwardedFor, remoteAddress, rfl, rfl⟩
    · rw [hnone] at hc'
      cases hc'
  | message id₀ data isBinary now token =>
    refine (hold (f := fun c => onWsMessage L rt id₀ data isBinary now token c S) hdeliverable
      (fun c hc => by simp only [serve, hc]) fun c hc => ?_).elim
    unfold onWsMessage
    split
    · exact get_update_none hc hnone _
    · split
      · split
        · exact get_perform_none _ (get_update_none hc hnone _)
        · exact get_update_none hc hnone _
      · exact get_perform_none _ hnone
  | pong id₀ =>
    exact (hold (f := fun c => S.update id₀ ({ c with alive := true }, [])) hdeliverable
      (fun c hc => by simp only [serve, hc]) fun c hc => get_update_none hc hnone _).elim
  | idle id₀ =>
    exact (hold (f := fun c => S.update id₀ (c.onIdle id₀)) hdeliverable
      (fun c hc => by simp only [serve, hc]) fun c hc => get_update_none hc hnone _).elim
  | closing id₀ =>
    exact (hold (f := fun c => S.update id₀ (c.onClosing, [])) hdeliverable
      (fun c hc => by simp only [serve, hc]) fun c hc => get_update_none hc hnone _).elim
  | error id₀ =>
    exact (hold (f := fun c => S.update id₀ (c.terminate id₀)) hdeliverable
      (fun c hc => by simp only [serve, hc]) fun c hc => get_update_none hc hnone _).elim
  | closed id₀ =>
    exact (hold (f := fun c => RelayHttpServer.call
        { S with connections := S.connections.set id₀ { c with readyState := .closed } }
        (onClose c.socket S.relay)) hdeliverable
      (fun c hc => by simp only [serve, hc])
      fun c hc => get_perform_none _ (get_update_none hc hnone _)).elim
  | sweep now =>
    change (perform _ S.connections).1.get id = some c' at hc'
    rw [get_perform_none _ hnone] at hc'
    cases hc'
  | request url =>
    have hsame : (serve L rt S (.request url)).1 = S := by
      simp only [serve]
      split <;> rfl
    rw [hsame, hnone] at hc'
    cases hc'
  | shutdown =>
    have hrel := (terminateAll_get S.connections.keys id S.connections).1
    change (terminateAll _ _).1.get id = some c' at hc'
    rw [hnone, hc'] at hrel
    cases hrel

/-- **Every run keeps to the dialogue on every connection.**  What the server says on one connection
is nothing, or one close frame, or REJECT and its close frame, or one READY with other frames after it
and at most one close frame at the end. -/
theorem said_dialogue (L : RelayLimits) (rt : JsonRuntime) (es : List WsEvent) (id : ℕ)
    (hvalid : (serving L rt).Valid .start es) :
    Dialogue (said id ((serving L rt).trace .start es)) := by
  have hrun := Machine.simulation (M := serving L rt) (N := server L) (f := calls rt)
    (G := Deliverable) (H := Enabled)
    (R := fun S out R effects => Serves S out R effects ∧
      ∀ id c, S.connections.get id = some c → Stage c (said id out))
    (fun S out R effects e h hdeliverable => by
      have hgoes : GoesOn L rt S out R effects e (calls rt S e) := serves_next h.1 hdeliverable
      obtain ⟨henabled, hserves⟩ := hgoes
      refine ⟨henabled, hserves, fun id c' hc' => ?_⟩
      rw [said_append]
      cases hc : S.connections.get id with
      | none =>
        obtain ⟨forwardedFor, remoteAddress, rfl, rfl⟩ := new_of_next hdeliverable hc hc'
        rw [h.1.unsaid id hc]
        exact .waiting rfl rfl rfl
      | some c =>
        have hone : ∃ c₂, (serve L rt S e).1.connections.get id = some c₂ ∧
            Turn c c₂ (said id (serve L rt S e).2) := turn h.1 hdeliverable hc
        obtain ⟨c₂, hc₂, hturn⟩ := hone
        cases hc'.symm.trans hc₂
        exact stage_turn (h.2 id c hc) hturn)
    hvalid ⟨serves_start, fun id c hc => by cases hc⟩
  obtain ⟨-, hserves, hstage⟩ := hrun
  rw [List.nil_append] at hserves hstage
  cases hc : ((serving L rt).exec .start es).connections.get id with
  | none =>
    rw [hserves.unsaid id hc]
    exact .silent
  | some c => exact (hstage id c hc).dialogue

theorem said_dialogue_servedRun :
    Dialogue (said 2 ((serving defaultLimits helloRuntime).trace .start servedRun)) :=
  said_dialogue defaultLimits helloRuntime servedRun 2 (by decide +kernel)

/-! ### The idle timer -/

@[simp] theorem hears_alive (xs : List Said) : ∀ c : Connection, (c.hears xs).alive = c.alive := by
  induction xs with
  | nil => exact fun _ => rfl
  | cons x xs ih =>
    intro c
    refine (ih _).trans ?_
    cases x with
    | frame => rfl
    | close =>
      show c.onClosing.alive = c.alive
      unfold Connection.onClosing
      split <;> rfl

theorem terminate_alive (id : ℕ) (c : Connection) : (c.terminate id).1.alive = c.alive := by
  unfold Connection.terminate
  split <;> rfl

theorem close_alive (id code : ℕ) (reason : String) (c : Connection) :
    (c.close id code reason).1.alive = c.alive := by
  unfold Connection.close
  split <;> rfl

theorem onIdle_alive (id : ℕ) (c : Connection) : (c.onIdle id).1.alive = false := by
  unfold Connection.onIdle
  split
  · next halive =>
    rw [terminate_alive]
    simpa using halive
  · rfl

/-- The `alive` flag of connection `id` after an event. -/
def aliveAfter (id : ℕ) (alive : Bool) : WsEvent → Bool
  | .pong id' => if id' = id then true else alive
  | .idle id' => if id' = id then false else alive
  | _ => alive

theorem alive_update {id id₀ : ℕ} {c c' : Connection} (hc : S.connections.get id = some c)
    {result : Connection × List Written}
    (hc' : (S.update id₀ result).1.connections.get id = some c') :
    c'.alive = if id₀ = id then result.1.alive else c.alive := by
  change (S.connections.set id₀ result.1).get id = some c' at hc'
  rw [InsertionMap.get_set] at hc'
  split at hc'
  · next hid =>
    cases hc'
    rw [if_pos hid.symm]
  · next hid =>
    cases hc.symm.trans hc'
    rw [if_neg (Ne.symm hid)]

theorem alive_perform {id : ℕ} {c c' : Connection} {cs : InsertionMap ℕ Connection}
    (calls : List Effect) (hc : cs.get id = some c) (hc' : (perform calls cs).1.get id = some c') :
    c'.alive = c.alive := by
  rw [perform_get, hc] at hc'
  cases hc'
  exact hears_alive _ c

/-- Setting a connection whose flag is what it was. -/
theorem alive_set {id id₀ : ℕ} {c c₀ : Connection} (c₁ : Connection) {cs : InsertionMap ℕ Connection}
    (hc : cs.get id = some c) (hc₀ : cs.get id₀ = some c₀) (halive : c₁.alive = c₀.alive) :
    ∃ c₂, (cs.set id₀ c₁).get id = some c₂ ∧ c₂.alive = c.alive := by
  rw [InsertionMap.get_set]
  split
  · next hid =>
    rw [hid, hc₀] at hc
    cases hc
    exact ⟨c₁, rfl, halive⟩
  · exact ⟨c, hc, rfl⟩

theorem alive_message {id id₀ : ℕ} {c c' : Connection} {data : Bytes} {isBinary : Bool} {now : ℕ}
    {token : String} (hc : S.connections.get id = some c)
    (hc' : (serve L rt S (.message id₀ data isBinary now token)).1.connections.get id = some c') :
    c'.alive = c.alive := by
  cases hc₀ : S.connections.get id₀ with
  | none =>
    simp only [serve, hc₀, hc] at hc'
    cases hc'
    rfl
  | some c₀ =>
    simp only [serve, hc₀] at hc'
    have hclose : ∀ {code reason}, (S.update id₀ (c₀.close id₀ code reason)).1.connections.get id =
        some c' → c'.alive = c.alive := by
      intro code reason hget
      rw [alive_update hc hget, close_alive]
      split
      · next hid =>
        subst hid
        cases hc.symm.trans hc₀
        rfl
      · rfl
    unfold onWsMessage at hc'
    split at hc'
    · exact hclose hc'
    · split at hc'
      · split at hc'
        · obtain ⟨c₂, hc₂, halive⟩ := alive_set { c₀ with greeted := true } hc hc₀ rfl
          exact (alive_perform _ hc₂ hc').trans halive
        · exact hclose hc'
      · exact alive_perform _ hc hc'

theorem terminateAll_alive (ids : List ℕ) (id : ℕ) : ∀ {cs : InsertionMap ℕ Connection} {c c'},
    cs.get id = some c → (terminateAll ids cs).1.get id = some c' → c'.alive = c.alive := by
  induction ids with
  | nil =>
    intro cs c c' hc hc'
    cases hc.symm.trans hc'
    rfl
  | cons id₀ ids ih =>
    intro cs c c' hc hc'
    rw [terminateAll] at hc'
    cases hc₀ : cs.get id₀ with
    | none =>
      rw [hc₀] at hc'
      exact ih hc hc'
    | some c₀ =>
      rw [hc₀] at hc'
      obtain ⟨c₂, hc₂, halive⟩ := alive_set _ hc hc₀ (terminate_alive id₀ c₀)
      exact (ih hc₂ hc').trans halive

/-- **The flag follows the ticks and the pongs.** -/
theorem alive_next {e : WsEvent} (hdeliverable : Deliverable S e) {id : ℕ} {c c' : Connection}
    (hc : S.connections.get id = some c)
    (hc' : (serve L rt S e).1.connections.get id = some c') :
    c'.alive = aliveAfter id c.alive e := by
  have hone : ∀ {id₀} {f : Connection → Connection × List Written}, S.Live id₀ →
      (∀ c, S.connections.get id₀ = some c → serve L rt S e = S.update id₀ (f c)) →
      ∃ c₀, S.connections.get id₀ = some c₀ ∧
        c'.alive = if id₀ = id then (f c₀).1.alive else c.alive := by
    intro id₀ f hlive hserve
    obtain ⟨c₀, hc₀, -⟩ := hlive
    rw [hserve c₀ hc₀] at hc'
    exact ⟨c₀, hc₀, alive_update hc hc'⟩
  -- an event of a connection that lets its flag alone
  have hsame : ∀ {id₀} {f : Connection → Connection × List Written}, S.Live id₀ →
      (∀ c, S.connections.get id₀ = some c → serve L rt S e = S.update id₀ (f c)) →
      (∀ c, (f c).1.alive = c.alive) → c'.alive = c.alive := by
    intro id₀ f hlive hserve halive
    obtain ⟨c₀, hc₀, heq⟩ := hone hlive hserve
    rw [heq, halive]
    split
    · next hid =>
      subst hid
      cases hc.symm.trans hc₀
      rfl
    · rfl
  cases e with
  | connection id₀ forwardedFor remoteAddress =>
    change (S.connections.set id₀ _).get id = some c' at hc'
    have hne : id ≠ id₀ := by
      rintro rfl
      rw [hdeliverable.2] at hc
      cases hc
    rw [InsertionMap.get_set_ne _ _ hne] at hc'
    cases hc.symm.trans hc'
    rfl
  | message id₀ data isBinary now token => exact alive_message hc hc'
  | pong id₀ =>
    obtain ⟨c₀, -, heq⟩ := hone (f := fun c => ({ c with alive := true }, [])) hdeliverable
      fun c hc => by simp only [serve, hc]
    exact heq
  | idle id₀ =>
    obtain ⟨c₀, -, heq⟩ := hone (f := Connection.onIdle id₀) hdeliverable
      fun c hc => by simp only [serve, hc]
    rw [onIdle_alive] at heq
    exact heq
  | closing id₀ =>
    exact hsame (f := fun c => (c.onClosing, [])) hdeliverable
      (fun c hc => by simp only [serve, hc])
      fun c => (congrArg Connection.alive (close_fst id₀ 0 "" c)).symm.trans (close_alive id₀ 0 "" c)
  | error id₀ =>
    exact hsame (f := Connection.terminate id₀) hdeliverable (fun c hc => by simp only [serve, hc])
      (terminate_alive id₀)
  | closed id₀ =>
    obtain ⟨c₀, hc₀, -⟩ := hdeliverable
    simp only [serve, hc₀] at hc'
    obtain ⟨c₂, hc₂, halive⟩ := alive_set { c₀ with readyState := .closed } hc hc₀ rfl
    exact (alive_perform _ hc₂ hc').trans halive
  | sweep now => exact alive_perform _ hc hc'
  | request url =>
    have hsame : (serve L rt S (.request url)).1 = S := by
      simp only [serve]
      split <;> rfl
    rw [hsame] at hc'
    cases hc.symm.trans hc'
    rfl
  | shutdown => exact terminateAll_alive _ id hc hc'

/-- A tick whose ping has had no answer. -/
def Unanswered (id : ℕ) (es : List WsEvent) : Prop :=
  ∃ pre post, es = pre ++ .idle id :: post ∧ .pong id ∉ post

theorem unanswered_snoc {id : ℕ} {es : List WsEvent} {e : WsEvent} :
    Unanswered id (es ++ [e]) ↔ e = .idle id ∨ (Unanswered id es ∧ e ≠ .pong id) := by
  constructor
  · rintro ⟨pre, post, heq, hpong⟩
    rcases List.eq_nil_or_concat' post with rfl | ⟨post, e', rfl⟩
    · exact .inl (List.singleton_injective (List.append_inj_right' heq rfl))
    · rw [← List.cons_append, ← List.append_assoc] at heq
      obtain ⟨hes, he⟩ := List.append_inj' heq rfl
      cases he
      refine .inr ⟨⟨pre, post, hes, fun h => hpong (List.mem_append_left _ h)⟩, ?_⟩
      rintro rfl
      exact hpong (List.mem_append_right _ (List.mem_singleton_self _))
  · rintro (rfl | ⟨⟨pre, post, rfl, hpong⟩, hne⟩)
    · exact ⟨es, [], rfl, List.not_mem_nil⟩
    · refine ⟨pre, post ++ [e], by simp, fun h => ?_⟩
      rcases List.mem_append.mp h with hold | hnew
      · exact hpong hold
      · exact hne (List.mem_singleton.mp hnew).symm

/-- The flag of a connection after a run, and the ticks of a connection that is not there. -/
theorem alive_exec (es : List WsEvent) (hvalid : (serving L rt).Valid .start es) (id : ℕ) :
    (((serving L rt).exec .start es).connections.get id = none → ¬ Unanswered id es) ∧
      ∀ c, ((serving L rt).exec .start es).connections.get id = some c →
        (c.alive = false ↔ Unanswered id es) := by
  induction es using List.reverseRecOn with
  | nil =>
    refine ⟨fun _ => ?_, fun c hc => by cases hc⟩
    rintro ⟨pre, post, heq, -⟩
    cases List.append_eq_nil_iff.mp heq.symm |>.2
  | append_singleton es e ih =>
    obtain ⟨hes, hdeliverable, -⟩ := (Machine.along_append ..).mp hvalid
    obtain ⟨hnone, hsome⟩ := ih hes
    rw [Machine.exec_append, unanswered_snoc]
    show ((serve L rt _ e).1.connections.get id = none → _) ∧
      ∀ c, (serve L rt _ e).1.connections.get id = some c → _
    cases hc : ((serving L rt).exec .start es).connections.get id with
    | none =>
      have hquiet : ¬ Unanswered id es := hnone hc
      have hidle : e ≠ .idle id := by
        rintro rfl
        obtain ⟨c, hget, -⟩ := hdeliverable
        rw [hc] at hget
        cases hget
      refine ⟨fun _ h => h.elim hidle fun hboth => hquiet hboth.1, fun c' hc' => ?_⟩
      obtain ⟨forwardedFor, remoteAddress, rfl, rfl⟩ := new_of_next hdeliverable hc hc'
      simp [hquiet]
    | some c =>
      refine ⟨fun hgone => ?_, fun c' hc' => ?_⟩
      · obtain ⟨-, hserves⟩ := serves_exec L rt hes
        obtain ⟨c', hc', -⟩ := turn (L := L) (e := e) hserves hdeliverable hc
        rw [hgone] at hc'
        cases hc'
      · rw [alive_next hdeliverable hc hc', ← hsome c hc]
        cases e with
        | pong id₀ => by_cases hid : id₀ = id <;> simp [aliveAfter, hid]
        | idle id₀ => by_cases hid : id₀ = id <;> simp [aliveAfter, hid]
        | _ => simp [aliveAfter]

/-- **The idle timer cuts off the unanswered.**  A tick terminates its connection if and only if there
was an earlier tick since which the connection has sent no pong. -/
theorem idle_terminates_iff (L : RelayLimits) (rt : JsonRuntime) (es : List WsEvent) (id : ℕ)
    (hvalid : (serving L rt).Valid .start (es ++ [.idle id])) :
    .terminate id ∈ (serving L rt).out ((serving L rt).exec .start es) (.idle id) ↔
      ∃ pre post, es = pre ++ .idle id :: post ∧ .pong id ∉ post := by
  obtain ⟨hes, hdeliverable, -⟩ := (Machine.along_append ..).mp hvalid
  obtain ⟨c, hc, hnotclosed⟩ := hdeliverable
  have hout : (serving L rt).out ((serving L rt).exec .start es) (.idle id) = (c.onIdle id).2 := by
    show (serve L rt _ (.idle id)).2 = _
    simp only [serve, hc]
    rfl
  rw [hout]
  refine Iff.trans ?_ ((alive_exec es hes id).2 c hc)
  unfold Connection.onIdle
  cases halive : c.alive with
  | false => simp [Connection.terminate, hnotclosed]
  | true =>
    by_cases hopen : c.readyState = .opened
    · simp [hopen]
    · simp [hopen]

theorem idle_terminates_servedRun :
    .terminate 2 ∈ (serving defaultLimits helloRuntime).out
        ((serving defaultLimits helloRuntime).exec .start (servedRun.take 5)) (.idle 2) ↔
      ∃ pre post, servedRun.take 5 = pre ++ .idle 2 :: post ∧ .pong 2 ∉ post :=
  idle_terminates_iff defaultLimits helloRuntime (servedRun.take 5) 2 (by decide +kernel)

end ScreenSharing.Relay
