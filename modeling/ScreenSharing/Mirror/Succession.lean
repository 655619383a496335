import ScreenSharing.Election.Succession
import ScreenSharing.Mirror.Convergence

/-!
# Everybody finds the same successor

`transferHost` names the first in the order of succession of its own roster, and tells everybody attached.  A
client takes the frame when it has taken all that was sent before it, so that its mirror is the roster of the
host at that moment: it would have named the same successor (`successor_agreed`).  The host has one link for
each peer, and a client has the id of its link (`Identified`); so one client at most finds itself named.
-/

namespace ScreenSharing.Mirror

open Lib Signaling Host HostProcess Election

variable {L : Config} {cfg : ℕ → ClientConfig} {R : Room} {H : HostProcess} {c : ℕ}
  {ccfg : ClientConfig} {k : Client} {arrived : List Body}

/-! ### The id of a client -/

/-- A connected client has the id that its first `joined` gave it. -/
def Knows (k : Client) (arrived : List Body) : Prop :=
  k.stage = .connected → ∃ w rest, Opened arrived w rest ∧ k.peerId = w.peerId

theorem knows_start : Knows .start [] := nofun

theorem peerId_onMessage (body : Body) : (k.onMessage body).1.peerId = k.peerId := by
  cases body <;> rfl

theorem peerId_deliverAll (bodies : List Body) : ∀ {k : Client}, k.stage = .connected →
    (Client.deliverAll bodies k).1.peerId = k.peerId := by
  induction bodies with
  | nil => intro k _; rfl
  | cons body bodies ih =>
    intro k hstage
    have hnext : (k.onMessage body).1.stage = .connected := (onMessage_fields body).2.2.1.trans hstage
    show (Client.deliverAll bodies (k.deliver body).1).1.peerId = _
    rw [deliver_connected hstage, ih hnext, peerId_onMessage]

/-- A message leaves a client that is not connected so. -/
theorem stage_deliver (hstage : k.stage ≠ .connected) (body : Body) :
    (k.deliver body).1.stage ≠ .connected := by
  cases hst : k.stage with
  | connected => exact absurd hst hstage
  | waiting =>
    rw [deliver_waiting hst]
    show (k.onAnswer body).stage ≠ .connected
    unfold Client.onAnswer
    split
    · exact nofun
    · exact nofun
    · exact nofun
    · rw [hst]
      exact nofun
  | resolved w =>
    rw [deliver_deaf (by simp [hst]) (by simp [hst])]
    exact hstage
  | rejected message =>
    rw [deliver_deaf (by simp [hst]) (by simp [hst])]
    exact hstage
  | ended =>
    rw [deliver_deaf (by simp [hst]) (by simp [hst])]
    exact hstage

theorem stage_deliverAll (bodies : List Body) : ∀ {k : Client}, k.stage ≠ .connected →
    (Client.deliverAll bodies k).1.stage ≠ .connected := by
  induction bodies with
  | nil => intro k h; exact h
  | cons body bodies ih => intro k h; exact ih (stage_deliver h body)

theorem knows_deliver (h : Knows k arrived) (body : Body) : Knows (k.deliver body).1 (arrived ++ [body]) := by
  by_cases hstage : k.stage = .connected
  · intro _
    obtain ⟨w, rest, hopened, hpeer⟩ := h hstage
    refine ⟨w, rest ++ [body], hopened.snoc body, ?_⟩
    rw [deliver_connected hstage, peerId_onMessage, hpeer]
  · exact fun hafter => absurd hafter (stage_deliver hstage body)

theorem knows_runTask (h : Knows k arrived) (hreads : Reads k arrived) (nonce : ℤ) (now : ℚ) :
    Knows (k.runTask ccfg nonce now).1 arrived := by
  unfold Client.runTask
  cases hqueue : k.queue with
  | nil => exact h
  | cons task queue =>
    cases task with
    | flush =>
      show Knows { (Client.deliverAll k.inbox { k with queue := queue, inbox := [] }).1 with draining := _ } arrived
      by_cases hstage : k.stage = .connected
      · intro _
        obtain ⟨w, rest, hopened, hpeer⟩ := h hstage
        refine ⟨w, rest, hopened, ?_⟩
        exact (peerId_deliverAll k.inbox (k := { k with queue := queue, inbox := [] }) hstage).trans hpeer
      · intro hafter
        exact absurd hafter (stage_deliverAll k.inbox (k := { k with queue := queue, inbox := [] }) hstage)
    | resume =>
      show Knows { (({ k with queue := queue } : Client).resume ccfg nonce now).1 with draining := _ } arrived
      cases hstage : k.stage with
      | resolved w =>
        -- the continuation takes the id of the answer
        obtain ⟨-, hopened⟩ := (reads_resolved hstage).mp hreads
        intro hafter
        refine ⟨w, k.inbox, hopened, ?_⟩
        by_cases hepoch : w.epoch < ccfg.minEpoch
        · simp [Client.resume, hepoch] at hafter
        · simp [Client.resume, hepoch]
      | connected =>
        intro _
        obtain ⟨w, rest, hopened, hpeer⟩ := h hstage
        refine ⟨w, rest, hopened, ?_⟩
        simpa [Client.resume, hstage] using hpeer
      | waiting =>
        intro hafter
        simp [Client.resume] at hafter
      | rejected message =>
        intro hafter
        simp [Client.resume] at hafter
      | ended =>
        intro hafter
        simp [Client.resume] at hafter

theorem knows_expire (h : Knows k arrived) : Knows k.expire arrived := by
  unfold Client.expire
  split
  · exact nofun
  · exact h

theorem knows_tick (h : Knows k arrived) (nonce : ℤ) (now : ℚ) : Knows (k.tick nonce now).1 arrived := by
  unfold Client.tick
  split
  · exact h
  · dsimp only
    split <;> exact h

/-! ### The ids of the room -/

/-- A welcome goes out over the connection that was admitted under its id. -/
structure Identified (R : Room) : Prop where
  named : ∀ c body w, body ∈ R.sent c → welcome body = some w →
    ∃ k, R.host.server.conns.get c = some k ∧ k.stage.admittedAs = some w.peerId
  knows : ∀ c, Knows (R.clients c) ((R.sent c).take (R.arrived c))

theorem identified_new (L : Config) : Identified (.new L) :=
  ⟨fun _ _ _ hmem => (by cases hmem), fun _ => knows_start⟩

theorem welcome_peerId {body : Body} {w : Welcome} (h : welcome body = some w) :
    ∃ joinSeq params, body = .joined w.peerId joinSeq w.epoch params w.roster w.streams := by
  cases body with
  | joined peerId joinSeq epoch params roster streams =>
    obtain rfl : (⟨peerId, epoch, roster, streams⟩ : Welcome) = w := Option.some.inj h
    exact ⟨joinSeq, params, rfl⟩
  | _ => cases h

/-- An admission welcomes its peer under its id. -/
theorem welcome_admitPeer {S : SignalingServer} {d e : ℕ} {ip : String} {join : Join} {draw : Draw}
    {body : Body} {w : Welcome} (hmem : .send e body ∈ (S.admitPeer L d ip join draw).2)
    (hwelcome : welcome body = some w) : e = d ∧ w.peerId = draw.peerId := by
  obtain ⟨joinSeq, params, rfl⟩ := welcome_peerId hwelcome
  unfold SignalingServer.admitPeer at hmem
  dsimp only at hmem
  simp only [List.mem_append, List.mem_singleton] at hmem
  rcases hmem with ((hmem | hmem) | hmem) | hmem
  · have heq := mem_send hmem
    simp only [Output.send.injEq, Body.joined.injEq] at heq
    exact ⟨heq.1, heq.2.1⟩
  · obtain ⟨_, _, _, _, heq, _⟩ := mem_broadcast hmem
    simp at heq
  · simp at hmem
  · have heq := mem_send hmem
    simp at heq

/-- More is sent, and nothing arrives. -/
theorem knows_sent {sent more : List Body} {n : ℕ} (hn : n ≤ sent.length) (h : Knows k (sent.take n)) :
    Knows k ((sent ++ more).take n) := by
  rw [List.take_append_of_le_length hn]
  exact h

/-- An admission, at the host. -/
theorem react_admission {e : Host.Event} {d : ℕ} {draw : Draw} (h : AdmitsAt L H e d draw) :
    ∃ k join, H.server.conns.get d = some k ∧
      Host.react L H e = ({ H with server := (H.server.admitPeer L d k.ip join draw).1 },
        (H.server.admitPeer L d k.ip join draw).2.map .server) := by
  obtain ⟨rfl, k, join, hget, hstage, hadmits⟩ := h
  refine ⟨k, join, hget, ?_⟩
  have hresume := resume_of_admits draw hget hstage hadmits
  show serve L (fun S => S.resume L d draw) H = _
  unfold serve
  dsimp only
  rw [hresume]
  exact forEach_onServer_plain _ (fun o ho => mem_admitPeer ho) _

/-- **An event of the host.** -/
theorem identified_host (hmirror : Mirrored R) (h : Identified R) {e : Host.Event}
    (henabled : Host.Enabled L R.host e) : Identified (R.next L cfg (.host e)) := by
  have hkeeps := keepsStages_react hmirror.sound henabled
  -- who was welcomed before still is admitted under the same id
  have hold : ∀ c body w, body ∈ R.sent c → welcome body = some w →
      ∃ k, (Host.react L R.host e).1.server.conns.get c = some k ∧ k.stage.admittedAs = some w.peerId := by
    intro c body w hmem hwelcome
    obtain ⟨k, hk, hadmitted⟩ := h.named c body w hmem hwelcome
    obtain ⟨k', hk', hstage⟩ := hkeeps c k hk (by rw [hadmitted]; exact nofun)
    exact ⟨k', hk', by rw [hstage]; exact hadmitted⟩
  have hnew : ∀ c body w, body ∈ heard c (Host.react L R.host e).2 → welcome body = some w →
      ∃ k, (Host.react L R.host e).1.server.conns.get c = some k ∧ k.stage.admittedAs = some w.peerId := by
    intro c body w hmem hwelcome
    by_cases hadmits : ∃ d draw, AdmitsAt L R.host e d draw
    · obtain ⟨d, draw, hadmits⟩ := hadmits
      obtain ⟨k, join, hget, hreact⟩ := react_admission hadmits
      rw [hreact] at hmem ⊢
      rw [heard_server, mem_sentTo] at hmem
      obtain ⟨rfl, hpeer⟩ := welcome_admitPeer hmem hwelcome
      refine ⟨{ k with stage := .admitted draw.peerId, flushQueued := true }, ?_, by rw [hpeer]; rfl⟩
      show (R.host.server.admitPeer L c k.ip join draw).1.conns.get c = _
      rw [(admitPeer_fields (L := L) join draw hget).1]
      exact InsertionMap.get_set_self ..
    · have hfollows := follows_react (c := c) hmirror.sound henabled fun d draw hat => hadmits ⟨d, draw, hat⟩
      rw [welcome_of_noWelcome hfollows.noWelcome hmem] at hwelcome
      cases hwelcome
  refine ⟨fun c body w hmem hwelcome => ?_, fun c => knows_sent (hmirror.arrived c) (h.knows c)⟩
  rcases List.mem_append.mp hmem with hmem | hmem
  · exact hold c body w hmem hwelcome
  · exact hnew c body w hmem hwelcome

theorem Identified.setClient (h : Identified R) {k : Client} (hk : Knows k ((R.sent c).take (R.arrived c))) :
    Identified (R.setClient c k) := by
  refine ⟨h.named, fun d => ?_⟩
  by_cases hd : d = c
  · subst hd
    show Knows (Function.update R.clients d k d) _
    rw [Function.update_self]
    exact hk
  · show Knows (Function.update R.clients c k d) _
    rw [Function.update_of_ne hd]
    exact h.knows d

theorem identified_frame (h : Identified R) : Identified (R.next L cfg (.frame c)) := by
  unfold Room.next
  dsimp only
  cases hbody : (R.sent c)[R.arrived c]? with
  | none => exact h
  | some body =>
    have htake : (R.sent c).take (R.arrived c + 1) = (R.sent c).take (R.arrived c) ++ [body] := by
      rw [List.take_add_one, hbody]
      rfl
    refine ⟨h.named, fun d => ?_⟩
    by_cases hd : d = c
    · subst hd
      simpa [Room.setClient, htake] using knows_deliver (h.knows d) body
    · simpa [Room.setClient, Function.update_of_ne hd] using h.knows d

theorem identified_next (hmirror : Mirrored R) (h : Identified R) {e : RoomEvent} (henabled : R.Enabled L e) :
    Identified (R.next L cfg e) := by
  cases e with
  | host e => exact identified_host hmirror h henabled
  | frame c => exact identified_frame h
  | task c nonce now => exact h.setClient (knows_runTask (h.knows c) (hmirror.reads c) nonce now)
  | expire c => exact h.setClient (knows_expire (h.knows c))
  | tick c nonce now => exact h.setClient (knows_tick (h.knows c) nonce now)

/-- In every state of every run. -/
theorem identified_exec (hmedia : L.media = true) {es : List RoomEvent} {R : Room}
    (hvalid : (room L cfg).Valid R es) (hfresh : (room L cfg).Along FreshId R es)
    (h : Mirrored R ∧ Identified R) :
    Mirrored ((room L cfg).exec R es) ∧ Identified ((room L cfg).exec R es) :=
  Machine.exec_invariant (M := room L cfg) (I := fun R => Mirrored R ∧ Identified R)
    (fun R e h hstep =>
      show Mirrored (R.next L cfg e) ∧ Identified (R.next L cfg e) from
        ⟨mirrored_next hmedia h.1 hstep.1 hstep.2, identified_next h.1 h.2 hstep.1⟩)
    (Machine.along_and.mpr ⟨hvalid, hfresh⟩) h

/-! ### The announcement -/

/-- What was sent stays sent. -/
theorem sent_exec (c : ℕ) (es : List RoomEvent) : ∀ R : Room,
    ∃ more, ((room L cfg).exec R es).sent c = R.sent c ++ more := by
  induction es with
  | nil => intro R; exact ⟨[], (List.append_nil _).symm⟩
  | cons e es ih =>
    intro R
    obtain ⟨more, hmore⟩ := ih (R.next L cfg e)
    have hone : ∃ more, (R.next L cfg e).sent c = R.sent c ++ more := by
      cases e with
      | host e => exact ⟨heard c (Host.react L R.host e).2, rfl⟩
      | frame d =>
        refine ⟨[], ?_⟩
        rw [List.append_nil]
        unfold Room.next
        dsimp only
        split <;> rfl
      | task d nonce now => exact ⟨[], (List.append_nil _).symm⟩
      | expire d => exact ⟨[], (List.append_nil _).symm⟩
      | tick d nonce now => exact ⟨[], (List.append_nil _).symm⟩
    obtain ⟨more', hmore'⟩ := hone
    refine ⟨more' ++ more, ?_⟩
    show ((room L cfg).exec (R.next L cfg e) es).sent c = _
    rw [hmore, hmore', List.append_assoc]

/-- The roster as the election sees it. -/
def heirOf (roster : List RosterEntry) : Option String := designatedHeir (electionEntriesFromRoster roster)

/-- Everybody attached is told who the successor is. -/
theorem heard_transferHost (h : Sound H) (hc : Attached H.server c) {successor : String}
    (hheir : heirOf H.server.roster.snapshot = some successor) :
    heard c (Host.react L H (.server .transferHost)).2 = [.hostTransfer successor (L.epoch + 1)] := by
  have horder : ∃ rest, successionOrder (electionEntriesFromRoster H.server.roster.snapshot) =
      successor :: rest := by
    unfold heirOf designatedHeir at hheir
    cases horder : successionOrder (electionEntriesFromRoster H.server.roster.snapshot) with
    | nil =>
      rw [horder] at hheir
      cases hheir
    | cons first rest =>
      rw [horder] at hheir
      obtain rfl : first = successor := Option.some.inj hheir
      exact ⟨rest, rfl⟩
  obtain ⟨rest, horder⟩ := horder
  have hout : (H.server.transferHost L).2 =
      H.server.broadcast (.hostTransfer successor (L.epoch + 1)) none := by
    unfold SignalingServer.transferHost
    rw [horder]
    rfl
  have hreact : (Host.react L H (.server .transferHost)).2 =
      (H.server.broadcast (.hostTransfer successor (L.epoch + 1)) none).map .server := by
    show (forEach (onServer L) (H.server.transferHost L).2
      { H with server := (H.server.transferHost L).1 }).2 = _
    rw [hout, forEach_onServer_plain]
    intro o ho
    obtain ⟨_, _, _, _, heq, _⟩ := mem_broadcast ho
    exact .inl ⟨_, _, heq⟩
  rw [hreact, heard_server]
  exact sentTo_broadcast h.ready.linked hc fun _ _ _ _ heq => by cases heq

/-- A client that has taken exactly the first `n` bodies has made of them what `Reads` says. -/
theorem opened_taken {sent : List Body} {m n : ℕ} (hreads : Reads k (sent.take m))
    (hstage : k.stage = .connected) (hm : m ≤ sent.length) (hn : n + k.inbox.length = m) :
    ∃ w seen, Opened (sent.take n) w seen ∧ k.roster = seen.foldl rosterAfter w.roster := by
  obtain ⟨-, w, seen, hopened, hroster, -⟩ := (reads_connected hstage).mp hreads
  obtain ⟨skipped, first, heq, hfirst, hskipped⟩ := hopened.split
  refine ⟨w, seen, ⟨skipped, first, ?_, hfirst, hskipped⟩, hroster⟩
  have hlength := congrArg List.length heq
  have hsplit : sent.take m = (skipped ++ first :: seen) ++ k.inbox := by
    rw [heq, List.append_assoc, List.cons_append]
  have htake : n = (skipped ++ first :: seen).length := by
    have hlength' := congrArg List.length hsplit
    rw [List.length_take, List.length_append, Nat.min_eq_left hm] at hlength'
    omega
  have hshort : sent.take n = (sent.take m).take n := by
    rw [List.take_take, Nat.min_eq_left (by omega)]
  rw [hshort, hsplit, htake]
  exact List.take_left

/-- More arrives behind what a client has opened with. -/
theorem Opened.append {bodies : List Body} {w : Welcome} {rest : List Body} (h : Opened bodies w rest)
    (more : List Body) : Opened (bodies ++ more) w (rest ++ more) := by
  obtain ⟨skipped, first, rfl, hfirst, hskipped⟩ := h.split
  exact ⟨skipped, first, by simp, hfirst, hskipped⟩

/-- Whoever is attached is on the link of the peer that its connection was admitted as, and on no other. -/
theorem own_link_iff {S : SignalingServer} (h : Linked S) (hc : Attached S c) {k : Conn}
    (hk : S.conns.get c = some k) {peerId successor : String} (hadmitted : k.stage.admittedAs = some peerId) :
    peerId = successor ↔ ∃ l ∈ S.links.get successor, l.conn = c := by
  constructor
  · intro heq
    subst heq
    obtain ⟨-, p, l, hl, hconn⟩ := hc
    obtain ⟨-, k', hk', hadmitted'⟩ := h.linked p l hl
    rw [hconn, hk] at hk'
    obtain rfl := Option.some.inj hk'
    rw [hadmitted] at hadmitted'
    obtain rfl := Option.some.inj hadmitted'
    exact ⟨l, hl, hconn⟩
  · intro ⟨l, hl, hconn⟩
    obtain ⟨-, k', hk', hadmitted'⟩ := h.linked successor l hl
    rw [hconn, hk] at hk'
    obtain rfl := Option.some.inj hk'
    exact Option.some.inj (hadmitted.symm.trans hadmitted')

/-- The room after a run. -/
def after (L : Config) (cfg : ℕ → ClientConfig) (es : List RoomEvent) : Room := (room L cfg).exec (.new L) es

/-- `leave` of the host calls `transferHost`. -/
def handsOver : RoomEvent := .host (.server .transferHost)

/-- The client is connected, and has taken exactly the first `n` bodies that were sent to it. -/
structure Taken (R : Room) (c n : ℕ) : Prop where
  connected : (R.clients c).stage = .connected
  count : n + (R.clients c).inbox.length = R.arrived c

/-- **Everybody finds the same successor.**  A host that is not closing hands over to `successor`.  Whoever is
attached is told so, and whenever a client comes to take that frame, `successor` is the heir by its own mirror;
and it is the successor itself exactly if it is on the successor's link. -/
theorem successor_agreed (hmedia : L.media = true) (es es' : List RoomEvent)
    (hvalid : (room L cfg).Valid (.new L) (es ++ handsOver :: es'))
    (hfresh : (room L cfg).Along FreshId (.new L) (es ++ handsOver :: es'))
    (hopen : (after L cfg es).host.server.closing = false) {successor : String}
    (hheir : heirOf (after L cfg es).host.server.roster.snapshot = some successor) {c : ℕ}
    (hc : Attached (after L cfg es).host.server c) :
    ((after L cfg (es ++ handsOver :: es')).sent c)[((after L cfg es).sent c).length]? =
        some (.hostTransfer successor (L.epoch + 1)) ∧
      (Taken (after L cfg (es ++ handsOver :: es')) c ((after L cfg es).sent c).length →
        heirOf ((after L cfg (es ++ handsOver :: es')).clients c).roster = some successor ∧
          (((after L cfg (es ++ handsOver :: es')).clients c).peerId = successor ↔
            ∃ l ∈ (after L cfg es).host.server.links.get successor, l.conn = c)) := by
  obtain ⟨hvalid₁, hvalid₂⟩ := (Machine.along_append (room L cfg) _ _ _ _).1 hvalid
  obtain ⟨hfresh₁, hfresh₂⟩ := (Machine.along_append (room L cfg) _ _ _ _).1 hfresh
  have hbefore : Mirrored (after L cfg es) ∧ Identified (after L cfg es) :=
    identified_exec hmedia hvalid₁ hfresh₁ ⟨mirrored_new L, identified_new L⟩
  have hend : after L cfg (es ++ handsOver :: es') =
      (room L cfg).exec ((after L cfg es).next L cfg handsOver) es' := Machine.exec_append _ _ _ _
  have hafter : Mirrored (after L cfg (es ++ handsOver :: es')) ∧
      Identified (after L cfg (es ++ handsOver :: es')) := by
    have hrun := identified_exec hmedia hvalid₂ hfresh₂ hbefore
    rw [hend]
    exact hrun
  generalize after L cfg es = R at *
  generalize after L cfg (es ++ handsOver :: es') = R' at *
  -- what the client finds on its link
  have hgrows : ∃ more, ((room L cfg).exec (R.next L cfg handsOver) es').sent c =
      (R.next L cfg handsOver).sent c ++ more := sent_exec c es' _
  obtain ⟨more, hmore⟩ := hgrows
  have hsent : R'.sent c = R.sent c ++ .hostTransfer successor (L.epoch + 1) :: more := by
    rw [hend, hmore]
    show (R.sent c ++ heard c (Host.react L R.host (.server .transferHost)).2) ++ more = _
    rw [heard_transferHost hbefore.1.sound hc hheir, List.append_assoc]
    rfl
  refine ⟨by rw [hsent]; simp, fun htaken => ?_⟩
  -- what it has taken is what made a mirror of the room before
  obtain ⟨w, seen, hopened, hroster⟩ := opened_taken (hafter.1.reads c) htaken.connected
    (hafter.1.arrived c) htaken.count
  have htake : (R'.sent c).take (R.sent c).length = R.sent c := by rw [hsent, List.take_left]
  rw [htake] at hopened
  obtain ⟨before, first, w', rest, heq, hfirst, hnone, hshows⟩ := hbefore.1.fed hopen c hc
  rw [heq] at hopened
  obtain ⟨rfl, rfl⟩ := Opened.unique hfirst hnone hopened
  refine ⟨?_, ?_⟩
  · rw [hroster, hshows.roster]
    exact hheir
  · -- the id of the client is the one under which its connection was admitted
    obtain ⟨w', rest', hopened', hpeer⟩ := hafter.2.knows c htaken.connected
    have hall := hopened'.append ((R'.sent c).drop (R'.arrived c))
    rw [List.take_append_drop, hsent, heq, List.append_assoc, List.cons_append] at hall
    obtain ⟨rfl, -⟩ := Opened.unique hfirst hnone hall
    obtain ⟨k, hk, hadmitted⟩ := hbefore.2.named c first w' (by rw [heq]; simp) hfirst
    rw [hpeer]
    exact own_link_iff hbefore.1.sound.ready.linked hc hk hadmitted

/-- Two peers join and the host hands over: the first reads four bodies, and finds itself named in the fifth. -/
theorem first_finds_itself :
    ((after Signaling.smallRoom (fun _ => ⟨0, 3⟩)
        ((crowd 1).map .host ++ handsOver :: readUp 0 4)).clients 0).peerId = "p_0000000a" :=
  ((successor_agreed (c := 0) rfl ((crowd 1).map .host) (readUp 0 4) (by decide +kernel) (by decide +kernel)
    (by decide +kernel) (by decide +kernel) (by decide +kernel)).2 ⟨by decide +kernel, by decide +kernel⟩).2.mpr
    (by decide +kernel)

end ScreenSharing.Mirror
