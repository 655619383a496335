import ScreenSharing.Relay.Dialogue
import ScreenSharing.Relay.Limits

/-!
# Nothing is left

When every connection has closed, is the registry of the relay empty?  Not at once: a room whose host
started a handoff outlives the host, and the windows of the rate limits outlive everybody.  Both are
bounded in time.  `Recent` is the bound, kept over every event: no deadline lies further ahead than the
grace period, and no hit lies ahead at all.

`relay_empties` puts it together: one sweep, late enough after the last event, leaves the relay as it
was when it started.
-/

namespace ScreenSharing.Relay

open Lib

variable {L : RelayLimits} {rt : JsonRuntime} {R R' : State} {clock now : ℕ}

/-- Deadlines are at most the grace period ahead of the clock, hits are not ahead of it. -/
structure Recent (clock : ℕ) (R : State) : Prop where
  deadline : ∀ r room, R.rooms.get r = some room →
    ∀ deadline ∈ room.handoffDeadline, deadline ≤ clock + handoffGraceMs
  hits : ∀ ip kind, ∀ t ∈ hits R ip kind, t ≤ clock

theorem recent_new : Recent 0 new where
  deadline r room h := by cases h
  hits ip kind t h := by cases kind <;> cases h

theorem Recent.later (h : Recent clock R) (hle : clock ≤ now) : Recent now R where
  deadline r room hroom deadline hdeadline :=
    Nat.le_trans (h.deadline r room hroom deadline hdeadline) (Nat.add_le_add_right hle _)
  hits ip kind t ht := Nat.le_trans (h.hits ip kind t ht) hle

theorem hits_congr (hrate : R'.rate = R.rate) (ip : String) (kind : RateKind) :
    Relay.hits R' ip kind = Relay.hits R ip kind := by
  unfold Relay.hits
  rw [hrate]

/-- Rooms may go and change their peers, the windows are what they were. -/
theorem Recent.of_rooms (h : Recent clock R) (hrate : R'.rate = R.rate)
    (hrooms : ∀ r room, R'.rooms.get r = some room →
      ∀ deadline ∈ room.handoffDeadline, deadline ≤ clock + handoffGraceMs) : Recent clock R' where
  deadline := hrooms
  hits ip kind t ht := h.hits ip kind t (by rwa [hits_congr hrate] at ht)

theorem recent_allow (h : Recent clock R) (ip : String) (kind : RateKind) :
    Recent clock (allow L clock ip kind R).1 where
  deadline := by
    rw [allow_rooms]
    exact h.deadline
  hits ip' kind' t ht := by
    rw [hits_allow] at ht
    split at ht
    · rcases List.mem_append.mp ht with hold | hnew
      · exact h.hits ip kind t (List.mem_of_mem_filter hold)
      · split at hnew
        · exact Nat.le_of_eq (List.mem_singleton.mp hnew)
        · cases hnew
    · exact h.hits ip' kind' t ht

theorem recent_hello (h : Recent clock R) (token : String) (socket : Socket) (hello : Hello) :
    Recent clock (onHello L clock token socket hello R).1 := by
  have hverdict := onHello_verdict L clock token socket hello R
  generalize onHello L clock token socket hello R = res at hverdict
  cases hverdict with
  | declined => exact h
  | limited kind => exact recent_allow h socket.ip kind
  | «exists» => exact recent_allow h socket.ip .creates
  | claimed room hroom =>
    exact h.of_rooms rfl (InsertionMap.forall_get_set h.deadline fun deadline hd => by cases hd)
  | created hroom hsize hallowed =>
    refine (recent_allow (L := L) h socket.ip .creates).of_rooms rfl ?_
    exact InsertionMap.forall_get_set h.deadline fun deadline hd => by cases hd
  | joined room hroom hsize hallowed =>
    refine (recent_allow (L := L) h socket.ip .joins).of_rooms rfl ?_
    exact InsertionMap.forall_get_set h.deadline (h.deadline _ room hroom)

theorem recent_message (h : Recent clock R) (socket : Socket) (data : Bytes) :
    Recent clock (onMessage clock socket data R).1 := by
  have hrate := onMessage_rate clock socket data R
  have hout := onMessage_outcome clock socket data R
  generalize onMessage clock socket data R = res at hout hrate
  cases hout with
  | ignored | ponged | toPeer | toHost => exact h
  | kicked hatt hrole hroom hkick hpeer =>
    have hkept := h.deadline _ _ hroom
    exact h.of_rooms rfl (InsertionMap.forall_get_set h.deadline hkept)
  | handedOff hatt hrole hroom hhost htype =>
    refine h.of_rooms rfl (InsertionMap.forall_get_set h.deadline fun deadline hd => ?_)
    cases hd
    exact Nat.le_refl _

theorem recent_close (h : Recent clock R) (socket : Socket) :
    Recent clock (onClose socket R).1 := by
  have hout := onClose_outcome socket R
  generalize onClose socket R = res at hout
  cases hout with
  | unattached | detached => exact h.of_rooms rfl h.deadline
  | toredown => exact h.of_rooms rfl (InsertionMap.forall_get_delete h.deadline)
  | left hatt hrole hconn hroom =>
    have hkept := h.deadline _ _ hroom
    exact h.of_rooms rfl (InsertionMap.forall_get_set h.deadline hkept)

/-- **One event at the time that the clock shows.** -/
theorem recent_next {S : ServerState} (hwf : Wf S) (h : Recent clock S.relay) {e : Event}
    (htime : e.time.getD clock = clock) : Recent clock ((server L).next S e).relay := by
  rw [next_relay]
  cases e with
  | hello socket hello now token =>
    have hnow : now = clock := htime
    subst hnow
    exact recent_hello h token socket hello
  | message socket data now =>
    have hnow : now = clock := htime
    subst hnow
    exact recent_message h socket data
  | close socket => exact recent_close h socket
  | sweep now =>
    refine ⟨fun r room hroom => h.deadline r room (get_of_get_sweep hwf hroom), fun ip kind t ht => ?_⟩
    rcases @hits_sweep L S.relay now ip kind with heq | ⟨hnil, -⟩
    · exact h.hits ip kind t (heq ▸ ht)
    · change t ∈ hits (sweep L now S.relay).1 ip kind at ht
      rw [hnil] at ht
      cases ht

/-! ### Runs of the server -/

def WsEvent.time : WsEvent → Option ℕ
  | .message _ _ _ now _ => some now
  | .sweep now => some now
  | _ => none

/-- A call of the relay happens when its event does. -/
theorem calls_time (S : RelayHttpServer) (e : WsEvent) (clock : ℕ) :
    ∀ call ∈ calls rt S e, call.time.getD (e.time.getD clock) = e.time.getD clock := by
  intro call hmem
  cases e with
  | message id data isBinary now token =>
    unfold calls at hmem
    dsimp only at hmem
    split at hmem
    · cases hmem
    · split at hmem
      · cases hmem
      · split at hmem
        · split at hmem
          · cases List.mem_singleton.mp hmem
            rfl
          · cases hmem
        · cases List.mem_singleton.mp hmem
          rfl
  | closed id =>
    unfold calls at hmem
    dsimp only at hmem
    split at hmem
    · cases List.mem_singleton.mp hmem
      rfl
    · cases hmem
  | sweep now =>
    cases List.mem_singleton.mp hmem
    rfl
  | _ => cases hmem

theorem recent_calls {es : List Event} : ∀ {S : ServerState}, Wf S → Recent clock S.relay →
    (∀ e ∈ es, e.time.getD clock = clock) → Recent clock ((server L).exec S es).relay := by
  induction es with
  | nil => exact fun _ h _ => h
  | cons e es ih =>
    intro S hwf h hes
    exact ih (wf_next hwf e) (recent_next hwf h (hes e List.mem_cons_self))
      fun e' he' => hes e' (List.mem_cons_of_mem _ he')

/-- **A run of the server keeps the bounds.** -/
theorem recent_exec (es : List WsEvent) : ∀ {S : RelayHttpServer} {out : List Written}
    {R : ServerState} {effects : List Effect} {clock : ℕ}, Serves S out R effects →
    Recent clock S.relay → (serving L rt).Valid S es → Forward WsEvent.time clock es →
    Recent (clockAfter WsEvent.time clock es) ((serving L rt).exec S es).relay := by
  induction es with
  | nil => exact fun _ h _ _ => h
  | cons e es ih =>
    intro S out R effects clock hserves h hvalid hforward
    obtain ⟨-, hnext⟩ : GoesOn L rt S out R effects e (calls rt S e) := serves_next hserves hvalid.1
    have hwf : Wf R := hserves.kept.toWf
    rw [← hserves.relay] at h
    have hrecent : Recent (e.time.getD clock) ((server L).exec R (calls rt S e)).relay :=
      recent_calls hwf (h.later hforward.1) (calls_time S e clock)
    rw [hnext.relay] at hrecent
    exact ih hnext hrecent hvalid.2 hforward.2

/-! ### The last sweep -/

theorem sweepRate_none (bs : List (String × RateBucket)) (ip : String) : ∀ R : State,
    R.rate.get ip = none → (sweepRate L now bs R).rate.get ip = none := by
  induction bs with
  | nil => exact fun _ h => h
  | cons b bs ih =>
    intro R h
    rw [sweepRate]
    refine ih _ ?_
    split
    · rw [InsertionMap.get_delete, h]
      split <;> rfl
    · exact h

/-- The loop deletes every idle bucket that it meets. -/
theorem sweepRate_idle {ip : String} {b : RateBucket} (hidle : idle L now b = true)
    (bs : List (String × RateBucket)) : ∀ R : State, (ip, b) ∈ bs →
      (sweepRate L now bs R).rate.get ip = none := by
  induction bs with
  | nil => exact fun _ h => by cases h
  | cons e bs ih =>
    intro R hmem
    rw [sweepRate]
    rcases List.mem_cons.mp hmem with heq | hrest
    · subst heq
      rw [if_pos hidle]
      exact sweepRate_none bs ip _ (InsertionMap.get_delete_self _ _)
    · exact ih _ hrest

theorem idle_of_recent (h : Recent clock R) {ip : String} {b : RateBucket}
    (hb : R.rate.get ip = some b) (hlate : clock + L.rateWindowMs ≤ now) : idle L now b = true := by
  have hbound : ∀ kind, ∀ t ∈ b.hits kind, t + L.rateWindowMs ≤ now := by
    intro kind t ht
    have hle := h.hits ip kind t (by unfold hits; rw [hb]; exact ht)
    exact Nat.le_trans (Nat.add_le_add_right hle _) hlate
  unfold idle
  rw [Bool.and_eq_true, List.all_eq_true, List.all_eq_true]
  exact ⟨fun t ht => decide_eq_true (hbound .creates t ht),
    fun t ht => decide_eq_true (hbound .joins t ht)⟩

/-- **Everybody gone, a late sweep leaves nothing.** -/
theorem sweep_empties {S : ServerState} (hkept : Kept S) (h : Recent clock S.relay)
    (hgone : ∀ socket ∈ S.greeted, socket ∈ S.gone) (hgrace : clock + handoffGraceMs ≤ now)
    (hwindow : clock + L.rateWindowMs ≤ now) : (sweep L now S.relay).1 = new := by
  have hrooms : (sweep L now S.relay).1.rooms = .empty := by
    refine InsertionMap.eq_empty fun r => ?_
    rw [sweep_rooms_get L now S.relay hkept.roomId]
    cases hroom : S.relay.rooms.get r with
    | none => rfl
    | some room =>
      have hhost := hgone _ (hkept.hostGreeted r room hroom)
      cases hdeadline : room.handoffDeadline with
      | none => exact absurd hhost (hkept.absent.hosts r room hroom hdeadline)
      | some deadline =>
        have hexpired : expired now room = true := by
          unfold expired
          rw [hdeadline]
          exact decide_eq_true (Nat.le_trans (h.deadline r room hroom deadline hdeadline) hgrace)
        dsimp only
        rw [if_pos hexpired]
  have hattached : (sweep L now S.relay).1.attached = .empty := by
    rw [sweep_attached]
    refine InsertionMap.eq_empty fun socket => ?_
    cases hatt : S.relay.attached.get socket with
    | none => rfl
    | some att =>
      rw [hkept.absent.attached socket (hgone socket (hkept.greeted socket att hatt))] at hatt
      cases hatt
  have hrate : (sweep L now S.relay).1.rate = .empty := by
    have hsame : (sweepRooms now S.relay.rooms.values S.relay).1.rate = S.relay.rate :=
      (sweepRooms_keeps _ _ _).2
    refine InsertionMap.eq_empty fun ip => ?_
    show (sweepRate L now _ _).rate.get ip = none
    rw [hsame]
    cases hb : S.relay.rate.get ip with
    | none =>
      refine sweepRate_none _ ip _ ?_
      rw [hsame, hb]
    | some b =>
      exact sweepRate_idle (idle_of_recent h hb hwindow) _ _ ((InsertionMap.mem_entries _ _ _).mpr hb)
  generalize (sweep L now S.relay).1 = R' at hrooms hattached hrate
  cases R'
  simp only at hrooms hattached hrate
  rw [hrooms, hattached, hrate]
  rfl

/-- **Nothing leaks.**  After every run at whose end all connections have closed, a sweep that comes the
grace period and a rate window after the last event leaves the relay as it was when it started. -/
theorem relay_empties (L : RelayLimits) (rt : JsonRuntime) (es : List WsEvent) (now : ℕ)
    (hvalid : (serving L rt).Valid .start (es ++ [.sweep now]))
    (hforward : Forward WsEvent.time 0 es)
    (hclosed : ∀ id c, ((serving L rt).exec .start es).connections.get id = some c →
      c.readyState = .closed)
    (hgrace : clockAfter WsEvent.time 0 es + handoffGraceMs ≤ now)
    (hwindow : clockAfter WsEvent.time 0 es + L.rateWindowMs ≤ now) :
    ((serving L rt).exec .start (es ++ [.sweep now])).relay = new := by
  obtain ⟨hes, -⟩ := (Machine.along_append ..).mp hvalid
  obtain ⟨-, hserves⟩ := serves_exec L rt hes
  have hrecent := recent_exec es serves_start recent_new hes hforward
  have hgone : ∀ socket ∈ ((server L).exec init (relayRun L rt es)).greeted,
      socket ∈ ((server L).exec init (relayRun L rt es)).gone := by
    intro socket hmem
    obtain ⟨c, hc, hsocket, -⟩ := (hserves.greeted socket).mp hmem
    exact (hserves.gone socket).mpr ⟨c, hc, hsocket, hclosed _ c hc⟩
  rw [← hserves.relay] at hrecent
  have hempty := sweep_empties hserves.kept hrecent hgone hgrace hwindow
  rw [hserves.relay] at hempty
  rw [Machine.exec_append]
  exact hempty

theorem relay_empties_servedRun :
    ((serving defaultLimits helloRuntime).exec .start (servedRun ++ [.sweep 70000])).relay = new := by
  refine relay_empties defaultLimits helloRuntime servedRun 70000 (by decide +kernel)
    (by decide +kernel) ?_ (by decide +kernel) (by decide +kernel)
  have hall : ∀ c ∈ ((serving defaultLimits helloRuntime).exec .start servedRun).connections.values,
      c.readyState = .closed := by decide +kernel
  exact fun id c hc => hall c ((InsertionMap.mem_values _ c).mpr ⟨id, hc⟩)

end ScreenSharing.Relay
