import ScreenSharing.Mirror.Client

/-!
# How a client reads its link

`Reads` says what a client has made of the bodies that have arrived, in their order.  It skips what comes
before the first answer to its join; from a `joined` on, everything is in the inbox or has changed the
mirror.  What comes right behind the `joined` is in the inbox until the flush that `connect` queues with its
listener, and nothing overtakes it, since no frame arrives while the microtasks run.
-/

namespace ScreenSharing.Mirror

open Lib Signaling

variable {cfg : ClientConfig} {k : Client} {arrived : List Body}

/-- What a `joined` body tells the client. -/
def welcome : Body → Option Welcome
  | .joined peerId _ epoch _ roster streams => some ⟨peerId, epoch, roster, streams⟩
  | _ => none

/-- The bodies that end the wait of `#waitForJoined`. -/
def Answers : Body → Prop
  | .joined .. | .rejected _ | .bye _ => True
  | _ => False

theorem answers_of_welcome {body : Body} {w : Welcome} (h : welcome body = some w) : Answers body := by
  cases body with
  | joined => trivial
  | _ => cases h

/-- The first answer among the bodies is this one, and these come behind it. -/
structure Opened (arrived : List Body) (w : Welcome) (rest : List Body) : Prop where
  split : ∃ skipped first, arrived = skipped ++ first :: rest ∧ welcome first = some w ∧
    ∀ body ∈ skipped, ¬ Answers body

theorem Opened.snoc {w : Welcome} {rest : List Body} (h : Opened arrived w rest) (body : Body) :
    Opened (arrived ++ [body]) w (rest ++ [body]) := by
  obtain ⟨skipped, first, rfl, hfirst, hskipped⟩ := h.split
  exact ⟨skipped, first, by simp, hfirst, hskipped⟩

/-- What a client has made of the bodies that have arrived. -/
def Reads (k : Client) (arrived : List Body) : Prop :=
  match k.stage with
  | .waiting => k.inbox = [] ∧ ∀ body ∈ arrived, ¬ Answers body
  | .resolved w => .resume ∈ k.queue ∧ Opened arrived w k.inbox
  | .connected => (k.inbox ≠ [] → k.draining = true ∧ .flush ∈ k.queue) ∧
      ∃ w seen, Opened arrived w (seen ++ k.inbox) ∧ k.roster = seen.foldl rosterAfter w.roster ∧
        k.streams = seen.foldl streamsAfter w.streams
  | .rejected _ | .ended => True

theorem reads_waiting (hstage : k.stage = .waiting) : Reads k arrived ↔
    k.inbox = [] ∧ ∀ body ∈ arrived, ¬ Answers body := by
  unfold Reads
  rw [hstage]

theorem reads_resolved {w : Welcome} (hstage : k.stage = .resolved w) : Reads k arrived ↔
    .resume ∈ k.queue ∧ Opened arrived w k.inbox := by
  unfold Reads
  rw [hstage]

theorem reads_connected (hstage : k.stage = .connected) : Reads k arrived ↔
    (k.inbox ≠ [] → k.draining = true ∧ .flush ∈ k.queue) ∧
      ∃ w seen, Opened arrived w (seen ++ k.inbox) ∧ k.roster = seen.foldl rosterAfter w.roster ∧
        k.streams = seen.foldl streamsAfter w.streams := by
  unfold Reads
  rw [hstage]

/-- A client that has given up reads nothing. -/
theorem reads_of_gaveUp (h : k.gaveUp = true) : Reads k arrived := by
  unfold Client.gaveUp at h
  unfold Reads
  split at h
  · next hstage =>
    rw [hstage]
    trivial
  · next hstage =>
    rw [hstage]
    trivial
  · cases h

theorem reads_start : Reads .start [] := ⟨rfl, fun _ h => by cases h⟩

/-! ### A frame -/

/-- **A body arrives**, outside the microtasks. -/
theorem reads_deliver (h : Reads k arrived) (hturn : k.draining = false) (body : Body) :
    Reads (k.deliver body).1 (arrived ++ [body]) := by
  cases hstage : k.stage with
  | waiting =>
    obtain ⟨hinbox, hskipped⟩ := (reads_waiting hstage).mp h
    rw [deliver_waiting hstage]
    have hstill : ¬ Answers body → Reads k (arrived ++ [body]) := by
      refine fun hbody => (reads_waiting hstage).mpr ⟨hinbox, fun other hother => ?_⟩
      rcases List.mem_append.mp hother with hother | hother
      · exact hskipped other hother
      · rw [List.mem_singleton.mp hother]
        exact hbody
    cases body with
    | joined peerId joinSeq epoch roomParams roster streams =>
      have hopened : Opened (arrived ++ [.joined peerId joinSeq epoch roomParams roster streams])
          ⟨peerId, epoch, roster, streams⟩ k.inbox :=
        ⟨arrived, _, by rw [hinbox], rfl, hskipped⟩
      exact ⟨List.mem_append_right _ (List.mem_singleton_self _), hopened⟩
    | rejected reason => exact reads_of_gaveUp rfl
    | bye reason => exact reads_of_gaveUp rfl
    | _ => exact hstill id
  | resolved w =>
    obtain ⟨hresume, hopened⟩ := (reads_resolved hstage).mp h
    rw [deliver_deaf (by simp [hstage]) (by simp [hstage])]
    exact (reads_resolved (k := { k with inbox := k.inbox ++ [body] }) hstage).mpr
      ⟨hresume, hopened.snoc body⟩
  | connected =>
    obtain ⟨hheld, w, seen, hopened, hroster, hstreams⟩ := (reads_connected hstage).mp h
    rw [deliver_connected hstage]
    have hinbox : k.inbox = [] := by
      by_contra hne
      have hdraining := (hheld hne).1
      rw [hturn] at hdraining
      cases hdraining
    obtain ⟨hroster', hstreams', hstage', hinbox', -, -⟩ := onMessage_fields (k := k) body
    rw [hinbox, List.append_nil] at hopened
    rw [hinbox] at hinbox'
    refine (reads_connected (hstage'.trans hstage)).mpr
      ⟨fun hne => absurd hinbox' hne, w, seen ++ [body], ?_, ?_, ?_⟩
    · rw [hinbox', List.append_nil]
      exact hopened.snoc body
    · rw [hroster', hroster, List.foldl_append]
      rfl
    · rw [hstreams', hstreams, List.foldl_append]
      rfl
  | rejected message =>
    rw [deliver_deaf (by simp [hstage]) (by simp [hstage])]
    exact reads_of_gaveUp (by simp [Client.gaveUp, hstage])
  | ended =>
    rw [deliver_deaf (by simp [hstage]) (by simp [hstage])]
    exact reads_of_gaveUp (by simp [Client.gaveUp, hstage])

/-! ### The microtasks -/

/-- The flush of the inbox, taken off the queue. -/
theorem reads_flush (h : Reads k arrived) {queue : List Microtask} (hqueue : k.queue = .flush :: queue)
    {k' : Client} (hk' : k' = ({ k with queue := queue } : Client).flush.1) :
    Reads { k' with draining := !k'.queue.isEmpty } arrived := by
  have hdeaf : k.stage ≠ .waiting → k.stage ≠ .connected → k' = { k with queue := queue } := by
    intro hwaiting hconnected
    rw [hk']
    exact (deliverAll_deaf k.inbox (k := { k with queue := queue, inbox := [] }) hwaiting hconnected).trans
      (by simp)
  have hgone : k.gaveUp = true → Reads { k' with draining := !k'.queue.isEmpty } arrived := by
    intro hgaveUp
    refine reads_of_gaveUp ?_
    rw [hdeaf (fun hst => by simp [Client.gaveUp, hst] at hgaveUp)
      (fun hst => by simp [Client.gaveUp, hst] at hgaveUp)]
    exact hgaveUp
  cases hstage : k.stage with
  | waiting =>
    obtain ⟨hinbox, hskipped⟩ := (reads_waiting hstage).mp h
    have hk : k' = { k with queue := queue } := by
      rw [hk', Client.flush]
      dsimp only
      rw [hinbox]
      rfl
    rw [hk]
    exact (reads_waiting (k := { k with queue := queue, draining := !queue.isEmpty }) hstage).mpr
      ⟨hinbox, hskipped⟩
  | connected =>
    obtain ⟨-, w, seen, hopened, hroster, hstreams⟩ := (reads_connected hstage).mp h
    obtain ⟨hroster', hstreams', hstage', hinbox', -⟩ := deliverAll_connected k.inbox
      (k := { k with queue := queue, inbox := [] }) hstage
    have hinbox : k'.inbox = [] := by
      rw [hk']
      exact hinbox'
    refine (reads_connected (k := { k' with draining := !k'.queue.isEmpty }) ?_).mpr
      ⟨fun hne => absurd hinbox hne, w, seen ++ k.inbox, ?_, ?_, ?_⟩
    · rw [hk']
      exact hstage'
    · rw [show ({ k' with draining := !k'.queue.isEmpty } : Client).inbox = [] from hinbox,
        List.append_nil]
      exact hopened
    · rw [List.foldl_append, ← hroster, hk']
      exact hroster'
    · rw [List.foldl_append, ← hstreams, hk']
      exact hstreams'
  | resolved w =>
    obtain ⟨hresume, hopened⟩ := (reads_resolved hstage).mp h
    have hmem : Microtask.resume ∈ queue := by
      rw [hqueue] at hresume
      simpa using hresume
    rw [hdeaf (by simp [hstage]) (by simp [hstage])]
    exact (reads_resolved (k := { k with queue := queue, draining := !queue.isEmpty }) hstage).mpr
      ⟨hmem, hopened⟩
  | rejected message => exact hgone (by simp [Client.gaveUp, hstage])
  | ended => exact hgone (by simp [Client.gaveUp, hstage])

/-- The continuation of `connect`, taken off the queue. -/
theorem reads_resume (h : Reads k arrived) {queue : List Microtask}
    (hqueue : k.queue = .resume :: queue) (nonce : ℤ) (now : ℚ) {k' : Client}
    (hk' : k' = (({ k with queue := queue } : Client).resume cfg nonce now).1) :
    Reads { k' with draining := !k'.queue.isEmpty } arrived := by
  have hstill : (∀ w, k.stage ≠ .resolved w) → (∀ message, k.stage ≠ .rejected message) →
      k' = { k with queue := queue } := by
    intro hresolved hrejected
    rw [hk', Client.resume]
    split
    · next w hst => exact absurd hst (hresolved w)
    · next message hst => exact absurd hst (hrejected message)
    · rfl
  cases hstage : k.stage with
  | waiting =>
    rw [hstill (by simp [hstage]) (by simp [hstage])]
    exact (reads_waiting (k := { k with queue := queue, draining := !queue.isEmpty }) hstage).mpr
      ((reads_waiting hstage).mp h)
  | resolved w =>
    obtain ⟨-, hopened⟩ := (reads_resolved hstage).mp h
    by_cases hepoch : w.epoch < cfg.minEpoch
    · refine reads_of_gaveUp ?_
      rw [hk', Client.resume]
      simp only [hstage, if_pos hepoch]
      rfl
    · have hk : k' = { k with
          stage := .connected, queue := queue ++ [.flush], peerId := w.peerId, roster := w.roster
          streams := w.streams, epoch := w.epoch
          heartbeat := some (Client.firstPing cfg nonce now).1, timer := true } := by
        rw [hk', Client.resume]
        simp only [hstage, if_neg hepoch]
      rw [hk]
      refine (reads_connected rfl).mpr ⟨fun _ => ⟨?_, ?_⟩, w, [], hopened, rfl, rfl⟩
      · simp
      · simp
  | connected =>
    obtain ⟨hheld, hopened⟩ := (reads_connected hstage).mp h
    rw [hstill (by simp [hstage]) (by simp [hstage])]
    refine (reads_connected (k := { k with queue := queue, draining := !queue.isEmpty }) hstage).mpr
      ⟨fun hne => ?_, hopened⟩
    have hmem := (hheld hne).2
    rw [hqueue] at hmem
    have hflush : Microtask.flush ∈ queue := by simpa using hmem
    refine ⟨?_, hflush⟩
    show (!queue.isEmpty) = true
    cases queue with
    | nil => cases hflush
    | cons => rfl
  | rejected message =>
    refine reads_of_gaveUp ?_
    rw [hk', Client.resume]
    simp only [hstage]
    rfl
  | ended =>
    rw [hstill (by simp [hstage]) (by simp [hstage])]
    exact reads_of_gaveUp (by simp [Client.gaveUp, hstage])

/-- **A microtask.** -/
theorem reads_runTask (h : Reads k arrived) (nonce : ℤ) (now : ℚ) :
    Reads (k.runTask cfg nonce now).1 arrived := by
  unfold Client.runTask
  cases hqueue : k.queue with
  | nil => exact h
  | cons task queue =>
    cases task with
    | flush => exact reads_flush h hqueue rfl
    | resume => exact reads_resume h hqueue nonce now rfl

/-! ### Timers -/

theorem reads_expire (h : Reads k arrived) : Reads k.expire arrived := by
  unfold Client.expire
  split
  · exact reads_of_gaveUp rfl
  · exact h

theorem reads_tick (h : Reads k arrived) (nonce : ℤ) (now : ℚ) :
    Reads (k.tick nonce now).1 arrived := by
  unfold Client.tick
  split
  · exact h
  · next heartbeat _ =>
    dsimp only
    split <;> exact h

/-! ### A client that has read everything -/

/-- **A client with nothing left to do** has in its mirror all that came behind the answer. -/
theorem read_up (h : Reads k arrived) (hidle : k.queue = []) (hgoes : k.gaveUp = false)
    {body : Body} (hmem : body ∈ arrived) (hanswers : Answers body) :
    k.stage = .connected ∧ ∃ w rest, Opened arrived w rest ∧
      k.roster = rest.foldl rosterAfter w.roster ∧ k.streams = rest.foldl streamsAfter w.streams := by
  cases hstage : k.stage with
  | waiting => exact absurd hanswers (((reads_waiting hstage).mp h).2 body hmem)
  | resolved w =>
    have hresume := ((reads_resolved hstage).mp h).1
    rw [hidle] at hresume
    cases hresume
  | connected =>
    obtain ⟨hheld, w, seen, hopened, hroster, hstreams⟩ := (reads_connected hstage).mp h
    have hinbox : k.inbox = [] := by
      by_contra hne
      have hflush := (hheld hne).2
      rw [hidle] at hflush
      cases hflush
    rw [hinbox, List.append_nil] at hopened
    exact ⟨rfl, w, seen, hopened, hroster, hstreams⟩
  | rejected message => simp [Client.gaveUp, hstage] at hgoes
  | ended => simp [Client.gaveUp, hstage] at hgoes

end ScreenSharing.Mirror
