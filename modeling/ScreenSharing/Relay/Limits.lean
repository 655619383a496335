import ScreenSharing.Lib.SlidingWindow
import ScreenSharing.Relay.Runs

/-!
# The relay's resource limits

A HELLO that creates a room or joins one has passed two tests: a count (rooms, peers of the room) and
a sliding window of attempts for its ip.  `HelloVerdict` lists what a HELLO can come to together with
the tests it has passed or failed.  Along a run whose clock does not go back, the hits kept for an ip
count like the log of all attempts that were ever allowed (`Counts`), and that log is capped; sweeps
and refused attempts only forget what has left the window.

A claim of a pending handoff passes none of these tests, and adds no room and no peer.

`limits_hold` puts the bounds together with the fact that a sweep which tears down no room is
invisible to every later HELLO.
-/

namespace ScreenSharing.Relay

open Lib SlidingWindow

variable {L : RelayLimits} {R R' : State} {S S' : ServerState} {now clock : ℕ} {ip : String}
  {kind : RateKind} {e : Event}

/-! ### The window of an ip -/

/-- The hits kept for an ip. -/
def hits (R : State) (ip : String) (kind : RateKind) : List ℕ :=
  ((R.rate.get ip).getD ⟨[], []⟩).hits kind

theorem hits_put (b : RateBucket) (ts : List ℕ) (kind kind' : RateKind) :
    (b.put ts kind).hits kind' = if kind' = kind then ts else b.hits kind' := by
  cases kind <;> cases kind' <;> rfl

/-- An attempt is allowed when fewer attempts than the cap count. -/
theorem allow_verdict : (allow L now ip kind R).2 =
    decide ((fresh L.rateWindowMs now (hits R ip kind)).length < L.cap kind) := by
  unfold allow fresh hits
  dsimp only
  split
  · next h => rw [decide_eq_false (Nat.not_lt.mpr h)]
  · next h => rw [decide_eq_true (Nat.lt_of_not_le h)]

/-- An attempt prunes its own window, and records itself there if it is allowed. -/
theorem hits_allow (ip' : String) (kind' : RateKind) :
    hits (allow L now ip kind R).1 ip' kind' =
      if ip' = ip ∧ kind' = kind then
        fresh L.rateWindowMs now (hits R ip kind) ++
          if (allow L now ip kind R).2 then [now] else []
      else hits R ip' kind' := by
  have hset : ∀ ts, hits { R with
      rate := R.rate.set ip (((R.rate.get ip).getD ⟨[], []⟩).put ts kind) } ip' kind' =
        if ip' = ip ∧ kind' = kind then ts else hits R ip' kind' := by
    intro ts
    unfold hits
    dsimp only
    rw [InsertionMap.get_set]
    by_cases hip : ip' = ip
    · rw [if_pos hip, Option.getD_some, hits_put, hip]
      by_cases hkind : kind' = kind
      · rw [if_pos hkind, if_pos ⟨rfl, hkind⟩]
      · rw [if_neg hkind, if_neg fun h => hkind h.2]
    · rw [if_neg hip, if_neg fun h => hip h.1]
  unfold allow
  dsimp only
  split
  · rw [hset, if_neg Bool.false_ne_true, List.append_nil]
    rfl
  · rw [hset, if_pos rfl]
    rfl

theorem sweepRate_get (bs : List (String × RateBucket)) : ∀ R : State,
    (bs.map Prod.fst).Nodup → (∀ e ∈ bs, R.rate.get e.1 = some e.2) →
    ∀ ip, (sweepRate L now bs R).rate.get ip = R.rate.get ip ∨
      ((sweepRate L now bs R).rate.get ip = none ∧
        ∃ b, R.rate.get ip = some b ∧ idle L now b = true) := by
  induction bs with
  | nil => exact fun R _ _ ip => .inl rfl
  | cons e bs ih =>
    obtain ⟨ip₀, b₀⟩ := e
    intro R hnodup hbs ip
    rw [List.map_cons, List.nodup_cons] at hnodup
    rw [sweepRate]
    by_cases hidle : idle L now b₀ = true
    · rw [if_pos hidle]
      -- the rest of the loop does not meet the key again
      have hrest : ∀ e ∈ bs, (R.rate.delete ip₀).get e.1 = some e.2 := by
        intro e he
        have hne : e.1 ≠ ip₀ := fun heq => hnodup.1 (List.mem_map.mpr ⟨e, he, heq⟩)
        rw [InsertionMap.get_delete_ne _ hne]
        exact hbs e (List.mem_cons_of_mem _ he)
      have hloop := ih { R with rate := R.rate.delete ip₀ } hnodup.2 hrest ip
      by_cases hip : ip = ip₀
      · subst hip
        refine .inr ⟨?_, b₀, hbs _ List.mem_cons_self, hidle⟩
        rcases hloop with heq | ⟨hnone, -⟩
        · rw [heq]
          exact InsertionMap.get_delete_self _ _
        · exact hnone
      · have hget : ({ R with rate := R.rate.delete ip₀ } : State).rate.get ip = R.rate.get ip :=
          InsertionMap.get_delete_ne _ hip
        rw [hget] at hloop
        exact hloop
    · rw [if_neg hidle]
      exact ih R hnodup.2 (fun e he => hbs e (List.mem_cons_of_mem _ he)) ip

/-- A sweep forgets windows in which nothing counts any more, and no others. -/
theorem hits_sweep (ip : String) (kind : RateKind) :
    hits (sweep L now R).1 ip kind = hits R ip kind ∨
      (hits (sweep L now R).1 ip kind = [] ∧
        fresh L.rateWindowMs now (hits R ip kind) = []) := by
  have hrate : (sweepRooms now R.rooms.values R).1.rate = R.rate := (sweepRooms_keeps _ _ _).2
  have hloop := @sweepRate_get L now R.rate.entries
    (sweepRooms now R.rooms.values R).1 R.rate.nodup
    (fun e he => by rw [hrate]; exact (InsertionMap.mem_entries _ _ _).mp he) ip
  rw [hrate] at hloop
  have hsweep : (sweep L now R).1.rate =
      (sweepRate L now R.rate.entries (sweepRooms now R.rooms.values R).1).rate := by
    unfold sweep
    dsimp only
    rw [hrate]
  unfold hits
  rw [hsweep]
  rcases hloop with heq | ⟨hnone, b, hb, hidle⟩
  · exact .inl (by rw [heq])
  · rw [hnone, hb]
    refine .inr ⟨by cases kind <;> rfl, ?_⟩
    rw [fresh_eq_nil]
    simp only [idle, Bool.and_eq_true, List.all_eq_true, decide_eq_true_eq] at hidle
    cases kind with
    | creates => exact hidle.1
    | joins => exact hidle.2

/-! ### What a HELLO comes to -/

/-- The outcomes of `onHello`, each with the tests that were passed or failed on the way. -/
inductive HelloVerdict (L : RelayLimits) (now : ℕ) (token : String) (socket : Socket)
    (hello : Hello) (R : State) : State × List Effect → Prop
  /-- refused before any window is consulted -/
  | declined (reason : RejectReason) (hreason : reason ≠ .rateLimited) :
      HelloVerdict L now token socket hello R (R, kick socket reason)
  | limited (kind : RateKind) (hlimited : (allow L now socket.ip kind R).2 = false) :
      HelloVerdict L now token socket hello R
        ((allow L now socket.ip kind R).1, kick socket .rateLimited)
  /-- the attempt counts although the room is there already -/
  | exists (hallowed : (allow L now socket.ip .creates R).2 = true) :
      HelloVerdict L now token socket hello R
        ((allow L now socket.ip .creates R).1, kick socket .roomExists)
  | claimed (room : Room) (hroom : R.rooms.get hello.roomId = some room) :
      HelloVerdict L now token socket hello R (claimHandoff token socket room R)
  | created (hroom : R.rooms.get hello.roomId = none) (hsize : R.rooms.size < L.maxRooms)
      (hallowed : (allow L now socket.ip .creates R).2 = true) :
      HelloVerdict L now token socket hello R
        (⟨R.rooms.set hello.roomId ⟨hello.roomId, token, socket, .empty, 1, none⟩,
            R.attached.set socket ⟨.host, hello.roomId, none⟩,
            (allow L now socket.ip .creates R).1.rate⟩,
          [.send socket (.ready none (some token))])
  | joined (room : Room) (hroom : R.rooms.get hello.roomId = some room)
      (hsize : room.peers.size < L.maxPeersPerRoom)
      (hallowed : (allow L now socket.ip .joins R).2 = true) :
      HelloVerdict L now token socket hello R
        (⟨R.rooms.set hello.roomId
              { room with
                  peers := room.peers.set room.nextConnId socket, nextConnId := room.nextConnId + 1 },
            R.attached.set socket ⟨.peer, hello.roomId, some room.nextConnId⟩,
            (allow L now socket.ip .joins R).1.rate⟩,
          [.send socket (.ready (some room.nextConnId) none),
            .send room.host (.peerUp room.nextConnId)])

variable {token : String} {socket : Socket} {hello : Hello}

theorem createRoom_verdict :
    HelloVerdict L now token socket hello R (createRoom L now token socket hello R) := by
  unfold createRoom
  split
  · exact .declined .serverFull (fun h => by cases h)
  · next hsize =>
    dsimp only
    cases hallowed : (allow L now socket.ip .creates R).2 with
    | false => exact .limited .creates hallowed
    | true =>
      rw [Bool.not_true, if_neg Bool.false_ne_true, allow_rooms, allow_attached]
      split
      · exact .exists hallowed
      · next hnew =>
        rw [Bool.not_eq_true, InsertionMap.has_eq_false] at hnew
        exact .created hnew (Nat.lt_of_not_le hsize) hallowed

theorem peerHello_verdict :
    HelloVerdict L now token socket hello R (peerHello L now socket hello R) := by
  unfold peerHello
  split
  · exact .declined .noSuchRoom (fun h => by cases h)
  · next room hroom =>
    split
    · exact .declined .roomFull (fun h => by cases h)
    · next hsize =>
      dsimp only
      cases hallowed : (allow L now socket.ip .joins R).2 with
      | false => exact .limited .joins hallowed
      | true =>
        rw [Bool.not_true, if_neg Bool.false_ne_true, allow_rooms, allow_attached]
        exact .joined room hroom (Nat.lt_of_not_le hsize) hallowed

/-- **Every outcome of a HELLO, with its tests.** -/
theorem onHello_verdict (L : RelayLimits) (now : ℕ) (token : String) (socket : Socket)
    (hello : Hello) (R : State) :
    HelloVerdict L now token socket hello R (onHello L now token socket hello R) := by
  unfold onHello
  split
  · exact .declined .badHello (fun h => by cases h)
  · split
    · exact .declined .protoMismatch (fun h => by cases h)
    · split
      · unfold hostHello
        split
        · next existing hroom =>
          split
          · exact .claimed existing hroom
          · exact createRoom_verdict
        · exact createRoom_verdict
      · exact peerHello_verdict

/-! ### Counts -/

/-- The two counts are within their limits. -/
structure WithinLimits (L : RelayLimits) (R : State) : Prop where
  rooms : R.rooms.size ≤ L.maxRooms
  peers : ∀ r room, R.rooms.get r = some room → room.peers.size ≤ L.maxPeersPerRoom

theorem withinLimits_new : WithinLimits L new := ⟨Nat.zero_le _, fun r room h => by cases h⟩

/-- A room that is there is replaced by one with no more peers than allowed. -/
theorem WithinLimits.replace (h : WithinLimits L R) {r : String} {room room' : Room}
    (hroom : R.rooms.get r = some room) (hpeers : room'.peers.size ≤ L.maxPeersPerRoom)
    (hrooms : R'.rooms = R.rooms.set r room') : WithinLimits L R' := by
  constructor
  · rw [hrooms, InsertionMap.size_set_of_get hroom]
    exact h.rooms
  · rw [hrooms]
    exact InsertionMap.forall_get_set h.peers hpeers

theorem WithinLimits.congr (h : WithinLimits L R) (hrooms : R'.rooms = R.rooms) :
    WithinLimits L R' := ⟨by rw [hrooms]; exact h.rooms, by rw [hrooms]; exact h.peers⟩

/-- Some rooms are gone. -/
theorem WithinLimits.delete (h : WithinLimits L R) {r : String}
    (hrooms : R'.rooms = R.rooms.delete r) : WithinLimits L R' := by
  constructor
  · rw [hrooms]
    exact Nat.le_trans (InsertionMap.size_delete_le _ _) h.rooms
  · intro r₁ room₁ hget
    rw [hrooms] at hget
    exact h.peers r₁ room₁ (InsertionMap.get_of_get_delete hget).1

theorem withinLimits_sweepRooms (rooms : List Room) : ∀ R : State, WithinLimits L R →
    WithinLimits L (sweepRooms now rooms R).1 := by
  induction rooms with
  | nil => exact fun R h => h
  | cons room rooms ih =>
    intro R h
    rw [sweepRooms]
    split
    · exact ih _ (h.delete rfl)
    · exact ih R h

theorem withinLimits_react (hwf : Wf S) (h : WithinLimits L S.relay) (e : Event) :
    WithinLimits L (react L S.relay e).1 := by
  cases e with
  | hello socket hello now token =>
    have hverdict := onHello_verdict L now token socket hello S.relay
    show WithinLimits L (onHello L now token socket hello S.relay).1
    generalize onHello L now token socket hello S.relay = res at hverdict
    cases hverdict with
    | declined => exact h
    | limited => exact h.congr (allow_rooms ..)
    | «exists» => exact h.congr (allow_rooms ..)
    | claimed room hroom =>
      have hrooms : (claimHandoff token socket room S.relay).1.rooms =
          S.relay.rooms.set hello.roomId
            { room with host := socket, handoffDeadline := none, hostToken := token } := by
        rw [← hwf.roomId _ room hroom]
        rfl
      have hpeers := h.peers _ room hroom
      exact h.replace hroom (by exact hpeers) hrooms
    | created hroom hsize =>
      constructor
      · show (S.relay.rooms.set _ _).size ≤ _
        rw [InsertionMap.size_set_of_free hroom]
        exact hsize
      · exact InsertionMap.forall_get_set h.peers (Nat.zero_le _)
    | joined room hroom hsize =>
      exact h.replace hroom (Nat.le_trans (InsertionMap.size_set_le _ _ _) hsize) rfl
  | message socket data now =>
    have hout := onMessage_outcome now socket data S.relay
    show WithinLimits L (onMessage now socket data S.relay).1
    generalize onMessage now socket data S.relay = res at hout
    cases hout with
    | kicked hatt hrole hroom hkick hpeer =>
      exact h.replace hroom (Nat.le_trans (InsertionMap.size_delete_le _ _)
        (h.peers _ _ hroom)) rfl
    | handedOff hatt hrole hroom =>
      have hpeers := h.peers _ _ hroom
      exact h.replace hroom (by exact hpeers) rfl
    | _ => exact h
  | close socket =>
    have hout := onClose_outcome socket S.relay
    show WithinLimits L (onClose socket S.relay).1
    generalize onClose socket S.relay = res at hout
    cases hout with
    | toredown => exact h.delete rfl
    | left hatt hrole hconn hroom =>
      exact h.replace hroom (Nat.le_trans (InsertionMap.size_delete_le _ _)
        (h.peers _ _ hroom)) rfl
    | unattached => exact h
    | detached => exact h.congr rfl
  | sweep now =>
    have hrooms := @withinLimits_sweepRooms L now S.relay.rooms.values S.relay h
    exact hrooms.congr (sweepRate_rooms ..)

/-- **The counts never exceed their limits.** -/
theorem withinLimits_exec (L : RelayLimits) (es : List Event) :
    WithinLimits L ((server L).exec init es).relay := by
  have hinv : Wf ((server L).exec init es) ∧ WithinLimits L ((server L).exec init es).relay := by
    refine Machine.exec_invariant (G := fun _ _ => True)
      (I := fun S => Wf S ∧ WithinLimits L S.relay) (fun S e hI _ => ?_) ?_
      ⟨wf_init, withinLimits_new⟩
    · refine ⟨wf_next hI.1 e, ?_⟩
      rw [next_relay]
      exact withinLimits_react hI.1 hI.2 e
    · exact Machine.along_true _ _
  exact hinv.2

/-! ### Windows -/

/-- The time at which an event is processed, if it looks at the clock. -/
def Event.time : Event → Option ℕ
  | .hello _ _ now _ => some now
  | .message _ _ now => some now
  | .close _ => none
  | .sweep now => some now

/-- Does the event create a room for a socket of this ip, or accept a join from it?  A claim creates
no room: there is one. -/
def grants (L : RelayLimits) (S : ServerState) (ip : String) : RateKind → Event → Bool
  | .creates, .hello socket hello now token =>
    socket.ip = ip && !S.relay.rooms.has hello.roomId &&
      ((server L).next S (.hello socket hello now token)).relay.rooms.has hello.roomId
  | .joins, .hello socket hello now token =>
    socket.ip = ip && !S.relay.attached.has socket &&
      (((server L).next S (.hello socket hello now token)).relay.attached.get socket).map
        Attached.role = some .peer
  | _, _ => false

/-- The times at which rooms were created for an ip, or joins accepted from it. -/
def granted (L : RelayLimits) (ip : String) (kind : RateKind) : ServerState → List Event → List ℕ
  | _, [] => []
  | S, e :: es =>
    (if grants L S ip kind e then e.time.toList else []) ++
      granted L ip kind ((server L).next S e) es

/-- The hits kept for each ip count like a log that is capped and holds all that was granted. -/
def Counts (L : RelayLimits) (clock : ℕ) (R : State) (given : String → RateKind → List ℕ) : Prop :=
  ∀ ip kind, ∃ log, Keeps L.rateWindowMs clock (hits R ip kind) log ∧
    Capped L.rateWindowMs (L.cap kind) log ∧ (given ip kind).Sublist log

variable {given : String → RateKind → List ℕ}

theorem Counts.later (h : Counts L clock R given) (hle : clock ≤ now) (hrate : R'.rate = R.rate) :
    Counts L now R' given := by
  intro ip kind
  obtain ⟨log, hkeeps, hcapped, hgiven⟩ := h ip kind
  have hhits : hits R' ip kind = hits R ip kind := by
    unfold hits
    rw [hrate]
  exact ⟨log, by rw [hhits]; exact hkeeps.later hle, hcapped, hgiven⟩

/-- An attempt keeps the counts, and may be added to what was granted if it was allowed. -/
theorem Counts.allow (h : Counts L clock R given) (hle : clock ≤ now) (ip : String)
    (kind : RateKind) (given' : String → RateKind → List ℕ)
    (hother : ∀ ip' kind', ¬ (ip' = ip ∧ kind' = kind) → given' ip' kind' = given ip' kind')
    (hown : given' ip kind = given ip kind ∨
      ((Relay.allow L now ip kind R).2 = true ∧ given' ip kind = given ip kind ++ [now]))
    (hrate : R'.rate = (Relay.allow L now ip kind R).1.rate) : Counts L now R' given' := by
  intro ip' kind'
  have hhits : hits R' ip' kind' = hits (Relay.allow L now ip kind R).1 ip' kind' := by
    unfold hits
    rw [hrate]
  rw [hhits, hits_allow]
  by_cases hsame : ip' = ip ∧ kind' = kind
  · obtain ⟨rfl, rfl⟩ := hsame
    rw [if_pos ⟨rfl, rfl⟩]
    obtain ⟨log, hkeeps, hcapped, hgiven⟩ := h ip' kind'
    have hpruned := hkeeps.prune hle
    cases hallowed : (Relay.allow L now ip' kind' R).2 with
    | false =>
      rw [if_neg Bool.false_ne_true, List.append_nil]
      refine ⟨log, hpruned, hcapped, ?_⟩
      rcases hown with heq | ⟨hyes, -⟩
      · rw [heq]
        exact hgiven
      · rw [hallowed] at hyes
        cases hyes
    | true =>
      rw [if_pos rfl]
      have hroom : (fresh L.rateWindowMs now log).length < L.cap kind' := by
        rw [allow_verdict, decide_eq_true_eq, hkeeps now hle] at hallowed
        exact hallowed
      refine ⟨log ++ [now], hpruned.push now, hcapped.push hroom, ?_⟩
      rcases hown with heq | ⟨-, heq⟩
      · rw [heq]
        exact hgiven.trans (List.sublist_append_left _ _)
      · rw [heq]
        exact hgiven.append (List.Sublist.refl _)
  · rw [if_neg hsame, hother ip' kind' hsame]
    obtain ⟨log, hkeeps, hcapped, hgiven⟩ := h ip' kind'
    exact ⟨log, hkeeps.later hle, hcapped, hgiven⟩

theorem Counts.sweep (h : Counts L clock R given) (hle : clock ≤ now) :
    Counts L now (Relay.sweep L now R).1 given := by
  intro ip kind
  obtain ⟨log, hkeeps, hcapped, hgiven⟩ := h ip kind
  refine ⟨log, ?_, hcapped, hgiven⟩
  rcases @hits_sweep L R now ip kind with heq | ⟨hnil, hidle⟩
  · rw [heq]
    exact hkeeps.later hle
  · rw [hnil]
    exact hkeeps.forget hle hidle

/-- What is granted once an event has been processed. -/
def givenAfter (L : RelayLimits) (S : ServerState) (e : Event)
    (given : String → RateKind → List ℕ) (ip : String) (kind : RateKind) : List ℕ :=
  given ip kind ++ if grants L S ip kind e then e.time.toList else []

theorem givenAfter_of_not (h : grants L S ip kind e = false) :
    givenAfter L S e given ip kind = given ip kind := by
  unfold givenAfter
  rw [h, if_neg Bool.false_ne_true, List.append_nil]

/-- A HELLO grants nothing of a kind unless it changes what the kind is about. -/
theorem not_grants_creates (hrooms : (onHello L now token socket hello S.relay).1.rooms.has
    hello.roomId = S.relay.rooms.has hello.roomId) :
    grants L S ip .creates (.hello socket hello now token) = false := by
  have hnext : ((server L).next S (.hello socket hello now token)).relay.rooms.has hello.roomId =
      S.relay.rooms.has hello.roomId := hrooms
  simp only [grants, hnext]
  cases S.relay.rooms.has hello.roomId <;> simp

theorem not_grants_joins (hatt : (onHello L now token socket hello S.relay).1.attached.get socket =
    S.relay.attached.get socket) :
    grants L S ip .joins (.hello socket hello now token) = false := by
  have hnext : ((server L).next S (.hello socket hello now token)).relay.attached.get socket =
      S.relay.attached.get socket := hatt
  simp only [grants, hnext, InsertionMap.has]
  cases S.relay.attached.get socket <;> simp

/-- A host joins nobody. -/
theorem not_grants_host {r : String} (hatt : (onHello L now token socket hello
    S.relay).1.attached.get socket = some ⟨.host, r, none⟩) :
    grants L S ip .joins (.hello socket hello now token) = false := by
  have hnext : ((server L).next S (.hello socket hello now token)).relay.attached.get socket =
      some ⟨.host, r, none⟩ := hatt
  simp only [grants, hnext, Option.map_some]
  simp

theorem grants_other (hip : socket.ip ≠ ip) :
    grants L S ip kind (.hello socket hello now token) = false := by
  cases kind <;> simp [grants, hip]

/-- A HELLO that leaves rooms and attachments alone grants nothing. -/
theorem not_grants_refused
    (hrooms : (onHello L now token socket hello S.relay).1.rooms = S.relay.rooms)
    (hatt : (onHello L now token socket hello S.relay).1.attached = S.relay.attached) :
    grants L S ip kind (.hello socket hello now token) = false := by
  cases kind with
  | creates => exact not_grants_creates (by rw [hrooms])
  | joins => exact not_grants_joins (by rw [hatt])

theorem counts_hello (h : Counts L clock S.relay given) (hle : clock ≤ now) :
    Counts L now (onHello L now token socket hello S.relay).1
      (givenAfter L S (.hello socket hello now token) given) := by
  have hgiven : ∀ ip kind, grants L S ip kind (.hello socket hello now token) = false →
      givenAfter L S (.hello socket hello now token) given ip kind = given ip kind :=
    fun ip kind => givenAfter_of_not
  -- the attempt is recorded, and nothing is granted
  have hrefused : (onHello L now token socket hello S.relay).1.rooms = S.relay.rooms →
      (onHello L now token socket hello S.relay).1.attached = S.relay.attached →
      givenAfter L S (.hello socket hello now token) given = given := by
    intro hrooms hatt
    funext ip kind
    exact hgiven ip kind (not_grants_refused hrooms hatt)
  have hverdict := onHello_verdict L now token socket hello S.relay
  generalize hres : onHello L now token socket hello S.relay = res at hverdict hrefused ⊢
  cases hverdict with
  | declined =>
    rw [hrefused rfl rfl]
    exact h.later hle rfl
  | limited kind =>
    rw [hrefused (allow_rooms ..) (allow_attached ..)]
    exact h.allow hle socket.ip kind given (fun _ _ _ => rfl) (.inl rfl) rfl
  | «exists» =>
    rw [hrefused (allow_rooms ..) (allow_attached ..)]
    exact h.allow hle socket.ip .creates given (fun _ _ _ => rfl) (.inl rfl) rfl
  | claimed room hroom =>
    have hnone : givenAfter L S (.hello socket hello now token) given = given := by
      funext ip kind
      refine hgiven ip kind ?_
      cases kind with
      | creates =>
        -- the room of a claim is there before
        have hthere : S.relay.rooms.has hello.roomId = true :=
          (InsertionMap.has_iff _ _).mpr ⟨room, hroom⟩
        simp [grants, hthere]
      | joins =>
        refine not_grants_host (r := room.roomId) ?_
        rw [hres]
        exact InsertionMap.get_set_self _ _ _
    rw [hnone]
    exact h.later hle rfl
  | created hroom hsize hallowed =>
    refine h.allow hle socket.ip .creates _ (fun ip kind hne => hgiven ip kind ?_) ?_ rfl
    · by_cases hip : socket.ip = ip
      · cases kind with
        | creates => exact absurd ⟨hip.symm, rfl⟩ hne
        | joins =>
          refine not_grants_host (r := hello.roomId) ?_
          rw [hres]
          exact InsertionMap.get_set_self _ _ _
      · exact grants_other hip
    · cases hgrants : grants L S socket.ip .creates (.hello socket hello now token) with
      | false => exact .inl (hgiven _ _ hgrants)
      | true =>
        refine .inr ⟨hallowed, ?_⟩
        unfold givenAfter
        rw [hgrants]
        rfl
  | joined room hroom hsize hallowed =>
    refine h.allow hle socket.ip .joins _ (fun ip kind hne => hgiven ip kind ?_) ?_ rfl
    · by_cases hip : socket.ip = ip
      · cases kind with
        | joins => exact absurd ⟨hip.symm, rfl⟩ hne
        | creates =>
          have hthere : S.relay.rooms.has hello.roomId = true :=
            (InsertionMap.has_iff _ _).mpr ⟨room, hroom⟩
          simp [grants, hthere]
      · exact grants_other hip
    · cases hgrants : grants L S socket.ip .joins (.hello socket hello now token) with
      | false => exact .inl (hgiven _ _ hgrants)
      | true =>
        refine .inr ⟨hallowed, ?_⟩
        unfold givenAfter
        rw [hgrants]
        rfl

/-- Messages and closes do not touch the windows. -/
theorem onMessage_rate (now : ℕ) (socket : Socket) (data : Bytes) (R : State) :
    (onMessage now socket data R).1.rate = R.rate := by
  have hout := onMessage_outcome now socket data R
  generalize onMessage now socket data R = res at hout
  cases hout <;> rfl

theorem onClose_rate (socket : Socket) (R : State) : (onClose socket R).1.rate = R.rate := by
  have hout := onClose_outcome socket R
  generalize onClose socket R = res at hout
  cases hout <;> rfl

/-- **One event keeps the counts.** -/
theorem counts_next (h : Counts L clock S.relay given) (hle : clock ≤ e.time.getD clock) :
    Counts L (e.time.getD clock) ((server L).next S e).relay (givenAfter L S e given) := by
  have hquiet : (∀ ip kind, grants L S ip kind e = false) → givenAfter L S e given = given := by
    intro hnone
    funext ip kind
    exact givenAfter_of_not (hnone ip kind)
  rw [next_relay]
  cases e with
  | hello socket hello now token => exact counts_hello h hle
  | message socket data now =>
    rw [hquiet fun ip kind => by cases kind <;> rfl]
    exact h.later hle (onMessage_rate ..)
  | close socket =>
    rw [hquiet fun ip kind => by cases kind <;> rfl]
    exact h.later hle (onClose_rate ..)
  | sweep now =>
    rw [hquiet fun ip kind => by cases kind <;> rfl]
    exact h.sweep hle

/-- **A run keeps the counts.** -/
theorem counts_exec (es : List Event) : ∀ {S : ServerState} {clock : ℕ}
    {given : String → RateKind → List ℕ}, Counts L clock S.relay given → Forward Event.time clock es →
    ∃ now, Counts L now ((server L).exec S es).relay
      fun ip kind => given ip kind ++ granted L ip kind S es := by
  induction es with
  | nil =>
    intro S clock given h _
    exact ⟨clock, by simpa [granted] using h⟩
  | cons e es ih =>
    intro S clock given h hforward
    obtain ⟨now, hrest⟩ := ih (counts_next h hforward.1) hforward.2
    refine ⟨now, ?_⟩
    simpa only [givenAfter, granted, List.append_assoc, Machine.exec_cons] using hrest

/-- **Never more than the cap in a window.** -/
theorem capped_granted (L : RelayLimits) (es : List Event) (hclock : Forward Event.time 0 es) (ip : String)
    (kind : RateKind) : Capped L.rateWindowMs (L.cap kind) (granted L ip kind init es) := by
  have hinit : Counts L 0 init.relay fun _ _ => [] :=
    fun ip kind => ⟨[], by cases kind <;> exact Keeps.refl [], Capped.nil, List.Sublist.refl _⟩
  obtain ⟨now, hcounts⟩ := counts_exec es hinit hclock
  obtain ⟨log, -, hcapped, hgiven⟩ := hcounts ip kind
  exact hcapped.sublist hgiven

/-! ### Sweeps are invisible -/

/-- Two states that differ in their windows only. -/
structure SameRooms (R R' : State) : Prop where
  rooms : R'.rooms = R.rooms
  attached : R'.attached = R.attached

/-- The windows of two states came out of the same attempt, or were not touched. -/
def SameAttempt (L : RelayLimits) (now : ℕ) (ip : String) (R R' R₁ R₁' : State) : Prop :=
  (R₁.rate = R.rate ∧ R₁'.rate = R'.rate) ∨
    ∃ kind, R₁.rate = (allow L now ip kind R).1.rate ∧ R₁'.rate = (allow L now ip kind R').1.rate

/-- What two states make of one HELLO. -/
structure SameAnswer (L : RelayLimits) (now : ℕ) (ip : String) (R R' : State)
    (res res' : State × List Effect) : Prop where
  out : res'.2 = res.2
  same : SameRooms res.1 res'.1
  attempt : SameAttempt L now ip R R' res.1 res'.1

theorem createRoom_same (hsame : SameRooms R R')
    (hverdict : ∀ kind, (allow L now socket.ip kind R').2 = (allow L now socket.ip kind R).2) :
    SameAnswer L now socket.ip R R' (createRoom L now token socket hello R)
      (createRoom L now token socket hello R') := by
  unfold createRoom
  dsimp only
  rw [hverdict, allow_rooms, allow_rooms, allow_attached, allow_attached, hsame.rooms,
    hsame.attached]
  split
  · exact ⟨rfl, hsame, .inl ⟨rfl, rfl⟩⟩
  · have hrefused : SameRooms (allow L now socket.ip .creates R).1
        (allow L now socket.ip .creates R').1 :=
      ⟨by rw [allow_rooms, allow_rooms, hsame.rooms],
        by rw [allow_attached, allow_attached, hsame.attached]⟩
    split
    · exact ⟨rfl, hrefused, .inr ⟨.creates, rfl, rfl⟩⟩
    · split
      · exact ⟨rfl, hrefused, .inr ⟨.creates, rfl, rfl⟩⟩
      · exact ⟨rfl, ⟨rfl, rfl⟩, .inr ⟨.creates, rfl, rfl⟩⟩

theorem peerHello_same (hsame : SameRooms R R')
    (hverdict : ∀ kind, (allow L now socket.ip kind R').2 = (allow L now socket.ip kind R).2) :
    SameAnswer L now socket.ip R R' (peerHello L now socket hello R)
      (peerHello L now socket hello R') := by
  unfold peerHello
  rw [hsame.rooms]
  split
  · exact ⟨rfl, hsame, .inl ⟨rfl, rfl⟩⟩
  · split
    · exact ⟨rfl, hsame, .inl ⟨rfl, rfl⟩⟩
    · dsimp only
      rw [hverdict, allow_rooms, allow_rooms, allow_attached, allow_attached, hsame.rooms,
        hsame.attached]
      split
      · refine ⟨rfl, ⟨?_, ?_⟩, .inr ⟨.joins, rfl, rfl⟩⟩
        · rw [allow_rooms, allow_rooms, hsame.rooms]
        · rw [allow_attached, allow_attached, hsame.attached]
      · exact ⟨rfl, ⟨rfl, rfl⟩, .inr ⟨.joins, rfl, rfl⟩⟩

/-- **A HELLO is answered alike** where its window gives the same verdicts. -/
theorem onHello_same (hsame : SameRooms R R')
    (hverdict : ∀ kind, (allow L now socket.ip kind R').2 = (allow L now socket.ip kind R).2) :
    SameAnswer L now socket.ip R R' (onHello L now token socket hello R)
      (onHello L now token socket hello R') := by
  unfold onHello
  rw [hsame.attached]
  split
  · exact ⟨rfl, hsame, .inl ⟨rfl, rfl⟩⟩
  · split
    · exact ⟨rfl, hsame, .inl ⟨rfl, rfl⟩⟩
    · split
      · unfold hostHello
        rw [hsame.rooms]
        split
        · split
          · refine ⟨rfl, ⟨?_, ?_⟩, .inl ⟨rfl, rfl⟩⟩
            · simp only [claimHandoff, hsame.rooms]
            · simp only [claimHandoff, hsame.attached]
          · exact createRoom_same hsame hverdict
        · exact createRoom_same hsame hverdict
      · exact peerHello_same hsame hverdict

/-- The windows of two states count alike from `clock` on. -/
def CountAlike (L : RelayLimits) (clock : ℕ) (R R' : State) : Prop :=
  ∀ ip kind, Keeps L.rateWindowMs clock (hits R' ip kind) (hits R ip kind)

theorem CountAlike.verdict (h : CountAlike L clock R R') (hle : clock ≤ now) (ip : String)
    (kind : RateKind) : (allow L now ip kind R').2 = (allow L now ip kind R).2 := by
  rw [allow_verdict, allow_verdict, h ip kind now hle]

theorem CountAlike.later (h : CountAlike L clock R R') (hle : clock ≤ now) {R₁ R₁' : State}
    (hrate : R₁.rate = R.rate) (hrate' : R₁'.rate = R'.rate) : CountAlike L now R₁ R₁' := by
  intro ip kind
  have hkeeps := (h ip kind).later hle
  unfold hits at hkeeps ⊢
  rw [hrate, hrate']
  exact hkeeps

/-- The same attempt in two states that count alike. -/
theorem CountAlike.attempt (h : CountAlike L clock R R') (hle : clock ≤ now) {ip : String}
    {R₁ R₁' : State} (hattempt : SameAttempt L now ip R R' R₁ R₁') :
    CountAlike L now R₁ R₁' := by
  rcases hattempt with ⟨hrate, hrate'⟩ | ⟨kind, hrate, hrate'⟩
  · exact h.later hle hrate hrate'
  · intro ip' kind'
    have hhits : hits R₁ ip' kind' = hits (allow L now ip kind R).1 ip' kind' := by
      unfold hits
      rw [hrate]
    have hhits' : hits R₁' ip' kind' = hits (allow L now ip kind R').1 ip' kind' := by
      unfold hits
      rw [hrate']
    rw [hhits, hhits', hits_allow, hits_allow, h.verdict hle, h ip kind now hle]
    split
    · exact Keeps.refl _
    · exact (h ip' kind').later hle

theorem CountAlike.sweep (h : CountAlike L clock R R') (hle : clock ≤ now) :
    CountAlike L now R (Relay.sweep L now R').1 := by
  intro ip kind
  rcases @hits_sweep L R' now ip kind with heq | ⟨hnil, hidle⟩
  · rw [heq]
    exact (h ip kind).later hle
  · rw [hnil]
    exact (h ip kind).forget hle hidle

theorem CountAlike.symm (h : CountAlike L clock R R') : CountAlike L clock R' R :=
  fun ip kind now hle => (h ip kind now hle).symm

/-! Of the other entry points only the bucket loop of `sweep` looks at the windows. -/

theorem onMessage_windows (now : ℕ) (socket : Socket) (data : Bytes) (R : State)
    (rate : InsertionMap String RateBucket) :
    onMessage now socket data { R with rate := rate } =
      ({ (onMessage now socket data R).1 with rate := rate }, (onMessage now socket data R).2) := by
  unfold onMessage
  dsimp only
  split
  · rfl
  · split
    · rfl
    · split
      · rfl
      · split
        · unfold onHostMessage onKick onHandoff
          dsimp only
          repeat' split
          all_goals rfl
        · unfold onPeerMessage
          repeat' split
          all_goals rfl

theorem onClose_windows (socket : Socket) (R : State) (rate : InsertionMap String RateBucket) :
    onClose socket { R with rate := rate } =
      ({ (onClose socket R).1 with rate := rate }, (onClose socket R).2) := by
  unfold onClose
  dsimp only
  split
  · rfl
  · split
    · rfl
    · split
      · split <;> rfl
      · split <;> rfl

theorem sweepRooms_windows (rate : InsertionMap String RateBucket) (rooms : List Room) :
    ∀ R : State, sweepRooms now rooms { R with rate := rate } =
      ({ (sweepRooms now rooms R).1 with rate := rate }, (sweepRooms now rooms R).2) := by
  induction rooms with
  | nil => exact fun R => rfl
  | cons room rooms ih =>
    intro R
    rw [sweepRooms, sweepRooms]
    split
    · have hrest := ih (teardownRoom room R).1
      have htear : (teardownRoom room { R with rate := rate }).1 =
          { (teardownRoom room R).1 with rate := rate } := rfl
      dsimp only
      rw [htear, hrest]
      rfl
    · exact ih R

theorem SameRooms.eq (h : SameRooms R R') : R' = { R with rate := R'.rate } := by
  obtain ⟨rooms, attached, rate⟩ := R'
  obtain ⟨rfl, rfl⟩ := h
  rfl

theorem sweep_same (h : SameRooms R R') :
    (sweep L now R').2 = (sweep L now R).2 ∧
      SameRooms (sweep L now R).1 (sweep L now R').1 := by
  have hrooms := @sweepRooms_windows now R'.rate R.rooms.values R
  rw [← h.eq] at hrooms
  unfold sweep
  dsimp only
  rw [h.rooms, hrooms]
  refine ⟨rfl, ?_, ?_⟩
  · rw [sweepRate_rooms, sweepRate_rooms]
  · rw [sweepRate_attached, sweepRate_attached]

/-- Two states that differ in their windows, which count alike. -/
structure Alike (L : RelayLimits) (clock : ℕ) (R R' : State) : Prop where
  same : SameRooms R R'
  counts : CountAlike L clock R R'

/-- **Alike states stay alike over one event**, and hand back the same calls. -/
theorem Alike.react (h : Alike L clock R R') (hle : clock ≤ e.time.getD clock) :
    (Relay.react L R' e).2 = (Relay.react L R e).2 ∧
      Alike L (e.time.getD clock) (Relay.react L R e).1 (Relay.react L R' e).1 := by
  cases e with
  | hello socket hello now token =>
    have hanswer : SameAnswer L now socket.ip R R' (onHello L now token socket hello R)
        (onHello L now token socket hello R') := onHello_same h.same (h.counts.verdict hle socket.ip)
    exact ⟨hanswer.out, hanswer.same, h.counts.attempt hle hanswer.attempt⟩
  | message socket data now =>
    have hmsg := onMessage_windows now socket data R R'.rate
    rw [← h.same.eq] at hmsg
    show (onMessage now socket data R').2 = (onMessage now socket data R).2 ∧
      Alike L now (onMessage now socket data R).1 (onMessage now socket data R').1
    rw [hmsg]
    exact ⟨rfl, ⟨rfl, rfl⟩, h.counts.later hle (onMessage_rate ..) rfl⟩
  | close socket =>
    have hclose := onClose_windows socket R R'.rate
    rw [← h.same.eq] at hclose
    show (onClose socket R').2 = (onClose socket R).2 ∧
      Alike L clock (onClose socket R).1 (onClose socket R').1
    rw [hclose]
    exact ⟨rfl, ⟨rfl, rfl⟩, h.counts.later hle (onClose_rate ..) rfl⟩
  | sweep now =>
    have hone : CountAlike L now R (Relay.sweep L now R').1 := h.counts.sweep hle
    have hboth := hone.symm.sweep (Nat.le_refl now)
    exact ⟨(sweep_same h.same).1, (sweep_same h.same).2, hboth.symm⟩

/-- A sweep that tears down no room is invisible. -/
theorem Alike.sweep (h : Alike L clock R R') (hle : clock ≤ now)
    (hquiet : (Relay.sweep L now R').1.rooms = R'.rooms) :
    Alike L now R (Relay.sweep L now R').1 where
  same := ⟨hquiet.trans h.same.rooms, (sweep_attached ..).trans h.same.attached⟩
  counts := h.counts.sweep hle

/-- `es'` is `es` with sweeps inserted that tear down no room; the state is the one in which the
longer run arrives. -/
inductive SweepsInserted (L : RelayLimits) : ServerState → List Event → List Event → Prop
  | nil (S : ServerState) : SweepsInserted L S [] []
  | keep {S : ServerState} {es es' : List Event} (e : Event)
      (hrest : SweepsInserted L ((server L).next S e) es es') :
      SweepsInserted L S (e :: es) (e :: es')
  | sweep {S : ServerState} {es es' : List Event} (now : ℕ)
      (hquiet : ((server L).next S (.sweep now)).relay.rooms = S.relay.rooms)
      (hrest : SweepsInserted L ((server L).next S (.sweep now)) es es') :
      SweepsInserted L S es (.sweep now :: es')

def Event.isHello : Event → Bool
  | .hello .. => true
  | _ => false

/-- What each HELLO of the run is answered, in order. -/
def answers (L : RelayLimits) : ServerState → List Event → List (List Effect)
  | _, [] => []
  | S, e :: es =>
    (if e.isHello then [(server L).out S e] else []) ++ answers L ((server L).next S e) es

/-- **Inserted sweeps are invisible** to every later HELLO. -/
theorem answers_sweepsInserted {es es' : List Event} (hins : SweepsInserted L S' es es') :
    ∀ {S : ServerState} {clock : ℕ}, Alike L clock S.relay S'.relay → Forward Event.time clock es' →
      answers L S' es' = answers L S es := by
  induction hins with
  | nil => exact fun _ _ => rfl
  | keep e hrest ih =>
    intro S clock halike hforward
    obtain ⟨hout, hnext⟩ := halike.react hforward.1
    rw [← next_relay, ← next_relay] at hnext
    rw [answers, answers, ih hnext hforward.2, out_eq, out_eq, hout]
  | sweep now hquiet hrest ih =>
    intro S clock halike hforward
    have hnext := halike.sweep hforward.1 hquiet
    rw [answers, if_neg (by simp [Event.isHello]), List.nil_append]
    exact ih hnext hforward.2

/-- **The limits hold on every run** whose clock does not go back: the counts of rooms and of each
room's peers, the windows of each ip over every half-open interval, and sweeps that tear down no room
change no answer. -/
theorem limits_hold (L : RelayLimits) (es : List Event) (hclock : Forward Event.time 0 es) :
    ((server L).exec init es).relay.rooms.size ≤ L.maxRooms ∧
      (∀ r room, ((server L).exec init es).relay.rooms.get r = some room →
        room.peers.size ≤ L.maxPeersPerRoom) ∧
      (∀ ip kind start, ((granted L ip kind init es).filter fun t =>
        start ≤ t ∧ t < start + L.rateWindowMs).length ≤ L.cap kind) ∧
      ∀ es', SweepsInserted L init es es' → Forward Event.time 0 es' →
        answers L init es' = answers L init es := by
  have hlimits := withinLimits_exec L es
  refine ⟨hlimits.rooms, hlimits.peers, capped_granted L es hclock, ?_⟩
  intro es' hins hforward
  have hrefl : Alike L 0 init.relay init.relay := ⟨⟨rfl, rfl⟩, fun _ _ => Keeps.refl _⟩
  exact answers_sweepsInserted hins hrefl hforward

/-- Three sockets of one ip, the second of which asks too early. -/
def threeCreates : List Event :=
  [.hello ⟨1, "10.0.0.1"⟩ ⟨.host, "00000001", "app", relayProtocolVersion, none⟩ 3 "t1",
    .hello ⟨2, "10.0.0.1"⟩ ⟨.host, "00000002", "app", relayProtocolVersion, none⟩ 9 "t2",
    .hello ⟨3, "10.0.0.1"⟩ ⟨.host, "00000003", "app", relayProtocolVersion, none⟩ 13 "t3"]

theorem limits_hold_threeCreates :
    granted ⟨9, 9, 1, 1, 10⟩ "10.0.0.1" .creates init threeCreates = [3, 13] ∧
      ((granted ⟨9, 9, 1, 1, 10⟩ "10.0.0.1" .creates init threeCreates).filter fun t =>
        4 ≤ t ∧ t < 4 + 10).length ≤ 1 :=
  ⟨by decide +kernel,
    (limits_hold ⟨9, 9, 1, 1, 10⟩ threeCreates (by decide +kernel)).2.2.1 "10.0.0.1" .creates 4⟩

end ScreenSharing.Relay
