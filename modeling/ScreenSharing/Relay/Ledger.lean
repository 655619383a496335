import ScreenSharing.Relay.Membership
import ScreenSharing.Relay.Window

/-!
# What a host knows of its room

A host keeps no copy of the relay's peer table.  It hears PEER_UP when a peer joins, and when it
claims a room once for each peer that is there already; it hears PEER_DOWN when a peer closes; and of
a peer it kicks itself it hears nothing.  `hostView` is what a host makes of all this: a set of
connIds, folded over the run.

The five places of the relay that write the peer table and the frames they send belong together, and
the fold shows it: `agrees_next` keeps the view of each host equal to the keys of its room over one
event, as long as no superseded host sends a KICK, and `host_view_agrees` is the statement for a run.
The connIds of a room only grow, so no host hears of one twice (`Announced`).
-/

namespace ScreenSharing.Relay

open Lib

variable {L : RelayLimits} {S : ServerState} {R R' : State}

/-! ### The view of a host -/

/-- What a host makes of one call of the relay. -/
def note (host : Socket) (view : List ℕ) : Effect → List ℕ
  | .send dest (.peerUp connId) => if dest = host then connId :: view else view
  | .send dest (.peerDown connId) => if dest = host then view.filter (· ≠ connId) else view
  | _ => view

/-- What a host makes of an event before the relay reacts to it: its own HELLO starts it with an
empty view, and its own KICK takes the peer out. -/
def noteOwn (host : Socket) (view : List ℕ) : Event → List ℕ
  | .hello socket _ _ _ => if socket = host then [] else view
  | .message socket data _ =>
    if socket = host then
      match decodeKick data with
      | some connId => view.filter (· ≠ connId)
      | none => view
    else view
  | _ => view

def viewAfter (L : RelayLimits) (host : Socket) (S : ServerState) (view : List ℕ) (e : Event) :
    List ℕ :=
  ((server L).out S e).foldl (note host) (noteOwn host view e)

def viewAt (L : RelayLimits) (host : Socket) : ServerState → List ℕ → List Event → List ℕ
  | _, view, [] => view
  | S, view, e :: es => viewAt L host ((server L).next S e) (viewAfter L host S view e) es

/-- The connIds of which `host` was sent PEER_UP in the run, with no later PEER_DOWN sent to it and
no later KICK received from it. -/
def hostView (L : RelayLimits) (host : Socket) (es : List Event) : List ℕ := viewAt L host init [] es

/-- No superseded host sends a KICK. -/
def NoStaleKick (S : ServerState) (e : Event) : Prop :=
  ∀ socket data now connId, e = .message socket data now → decodeKick data = some connId →
    ¬ StaleHost S.relay socket

/-- The view of `host` is the peer table of the room it hosts. -/
def Agrees (R : State) (host : Socket) (view : List ℕ) : Prop :=
  ∀ r room, R.rooms.get r = some room → room.host = host →
    ∀ connId, connId ∈ view ↔ connId ∈ room.peers.keys

/-! ### Effects that change no view -/

/-- The effect tells `host` of a peer that comes or goes. -/
def TellsOfPeer (host : Socket) : Effect → Prop
  | .send dest (.peerUp _) => dest = host
  | .send dest (.peerDown _) => dest = host
  | _ => False

theorem note_of_silent {host : Socket} {effect : Effect} (h : ¬ TellsOfPeer host effect)
    (view : List ℕ) : note host view effect = view := by
  unfold note
  split
  · exact if_neg h
  · exact if_neg h
  · rfl

theorem foldl_note_of_silent {host : Socket} {effects : List Effect}
    (h : ∀ effect ∈ effects, ¬ TellsOfPeer host effect) (view : List ℕ) :
    effects.foldl (note host) view = view := by
  induction effects generalizing view with
  | nil => rfl
  | cons effect effects ih =>
    rw [List.foldl_cons, note_of_silent (h effect List.mem_cons_self)]
    exact ih (fun effect' hmem => h effect' (List.mem_cons_of_mem _ hmem)) view

/-! ### Agreement over one event -/

/-- A reaction that tells `host` of nobody and leaves the peers of its room alone. -/
theorem agrees_of_same {host : Socket} {view : List ℕ} (h : Agrees R host view)
    (hsame : ∀ r room', R'.rooms.get r = some room' → room'.host = host →
      ∃ room, R.rooms.get r = some room ∧ room.host = host ∧ room'.peers = room.peers) :
    Agrees R' host view := by
  intro r room' hroom' hhost' connId
  obtain ⟨room, hroom, hhost, hpeers⟩ := hsame r room' hroom' hhost'
  rw [hpeers]
  exact h r room hroom hhost connId

/-- One room changes: if it is the one of `host`, the view follows. -/
theorem agrees_set {host : Socket} {view view' : List ℕ} {r₀ : String} {room₀ room₁ : Room}
    (hs : Seated S) (h : Agrees S.relay host view) (hroom : S.relay.rooms.get r₀ = some room₀)
    (hrooms : R'.rooms = S.relay.rooms.set r₀ room₁) (hhost : room₁.host = room₀.host)
    (hown : room₀.host = host → (∀ connId, connId ∈ view ↔ connId ∈ room₀.peers.keys) →
      ∀ connId, connId ∈ view' ↔ connId ∈ room₁.peers.keys)
    (hother : room₀.host ≠ host → view' = view) : Agrees R' host view' := by
  intro r room' hroom' hhost'
  rw [hrooms, InsertionMap.get_set] at hroom'
  split at hroom'
  · cases hroom'
    have hhost₀ : room₀.host = host := hhost.symm.trans hhost'
    exact hown hhost₀ (h r₀ room₀ hroom hhost₀)
  · next hr =>
    have hne : room₀.host ≠ host := fun heq =>
      hr (hs.ownRoom r r₀ room' room₀ hroom' hroom (hhost'.trans heq.symm))
    rw [hother hne]
    exact h r room' hroom' hhost'

theorem mem_filter_ne {view : List ℕ} {connId connId' : ℕ} :
    connId' ∈ view.filter (· ≠ connId) ↔ connId' ≠ connId ∧ connId' ∈ view := by
  rw [List.mem_filter, and_comm, decide_eq_true_iff]

/-- A KICK that names nobody changes nothing. -/
theorem onMessage_kick_miss {socket : Socket} {att : Attached} {room : Room} {data : Bytes}
    {now connId : ℕ} (hatt : R.attached.get socket = some att) (hrole : att.role = .host)
    (hroom : R.rooms.get att.roomId = some room) (hkick : decodeKick data = some connId)
    (hmiss : room.peers.get connId = none) : onMessage now socket data R = (R, []) := by
  have hhead := head_of_decodeKick hkick
  simp [onMessage, hhead, hatt, hroom, hrole, onHostMessage, onKick, hkick, hmiss, T.kick, T.ping]

/-- The host takes the peer out of its view as the relay takes it out of the room. -/
theorem agrees_ownKick (hs : Reached S) {host : Socket} {data : Bytes} {now connId : ℕ}
    {view : List ℕ} (henabled : Enabled S (.message host data now))
    (hkick : decodeKick data = some connId) (h : Agrees S.relay host view) :
    Agrees (onMessage now host data S.relay).1 host (view.filter (· ≠ connId)) := by
  intro r room' hroom' hhost' connId'
  obtain ⟨room, hroom, hsame, -⟩ := shrinks_message now host data S.relay r room' hroom'
  have hhost : room.host = host := hsame.symm.trans hhost'
  have hatt := hs.hosts r room hroom (by rw [hhost]; exact henabled.2)
  rw [hhost] at hatt
  rw [mem_filter_ne, h r room hroom hhost connId']
  cases hpeer : room.peers.get connId with
  | none =>
    rw [onMessage_kick_miss hatt rfl hroom hkick hpeer] at hroom'
    have heq : room = room' := Option.some.inj (hroom.symm.trans hroom')
    rw [← heq]
    constructor
    · exact And.right
    · intro hmem
      refine ⟨?_, hmem⟩
      rintro rfl
      obtain ⟨peer, hpeer'⟩ := (InsertionMap.mem_keys _ _).mp hmem
      rw [hpeer] at hpeer'
      cases hpeer'
  | some peer =>
    rw [onMessage_kick hatt rfl hroom hkick hpeer] at hroom'
    change (S.relay.rooms.set r _).get r = some room' at hroom'
    rw [InsertionMap.get_set_self] at hroom'
    cases hroom'
    exact InsertionMap.mem_keys_delete.symm

theorem agrees_message (hs : Reached S) {host socket : Socket} {data : Bytes} {now : ℕ}
    {view : List ℕ} (henabled : Enabled S (.message socket data now))
    (hkick : NoStaleKick S (.message socket data now)) (h : Agrees S.relay host view) :
    Agrees (onMessage now socket data S.relay).1 host
      (viewAfter L host S view (.message socket data now)) := by
  have hout := onMessage_outcome now socket data S.relay
  -- no reaction to a message tells a host of a peer
  have hsilent : ∀ effect ∈ (onMessage now socket data S.relay).2, ¬ TellsOfPeer host effect := by
    generalize onMessage now socket data S.relay = res at hout
    cases hout <;> simp [TellsOfPeer]
  unfold viewAfter
  rw [out_eq]
  show Agrees _ host ((onMessage now socket data S.relay).2.foldl (note host) _)
  rw [foldl_note_of_silent hsilent]
  by_cases hown : socket = host ∧ ∃ connId, decodeKick data = some connId
  · obtain ⟨rfl, connId, hdecode⟩ := hown
    have hnote : noteOwn socket view (.message socket data now) =
        view.filter (· ≠ connId) := by
      simp only [noteOwn, if_true, hdecode]
    rw [hnote]
    exact agrees_ownKick hs henabled hdecode h
  · have hnote : noteOwn host view (.message socket data now) = view := by
      simp only [noteOwn]
      split
      · next heq =>
        split
        · next connId hdecode => exact absurd ⟨heq, connId, hdecode⟩ hown
        · rfl
      · rfl
    rw [hnote]
    clear hsilent hnote
    generalize onMessage now socket data S.relay = res at hout
    cases hout with
    | ignored => exact h
    | ponged => exact h
    | kicked hatt hrole hroom hdecode hpeer =>
      rename_i att room connId peer
      have hsender : room.host = socket := by
        by_contra hne
        exact hkick socket data now connId rfl hdecode ⟨att, room, hatt, hrole, hroom, hne⟩
      refine agrees_set hs.toSeated h hroom rfl rfl (fun hhost => ?_) fun _ => rfl
      exact absurd ⟨hsender.symm.trans hhost, connId, hdecode⟩ hown
    | handedOff hatt hrole hroom hhost htype =>
      exact agrees_set hs.toSeated h hroom rfl rfl (fun _ hview => hview) fun _ => rfl
    | toPeer => exact h
    | toHost => exact h

theorem agrees_close (hs : Reached S) {host socket : Socket} {view : List ℕ}
    (h : Agrees S.relay host view) :
    Agrees (onClose socket S.relay).1 host (viewAfter L host S view (.close socket)) := by
  unfold viewAfter
  rw [out_eq]
  show Agrees _ host ((onClose socket S.relay).2.foldl (note host) view)
  have hout := onClose_outcome socket S.relay
  generalize onClose socket S.relay = res at hout
  cases hout with
  | unattached => exact h
  | detached => exact h
  | toredown hatt hrole hroom hhost hopen =>
    rw [foldl_note_of_silent]
    · refine agrees_of_same h fun r room' hroom' hhost' => ⟨room', ?_, hhost', rfl⟩
      exact (InsertionMap.get_of_get_delete hroom').1
    · intro effect hmem
      obtain ⟨peer, -, heffect⟩ := List.mem_flatMap.mp hmem
      rcases List.mem_pair.mp heffect with rfl | rfl <;> exact id
  | left hatt hrole hconn hroom =>
    rename_i att room connId
    -- both sides drop the connId of the attachment, whoever it means by now
    refine agrees_set hs.toSeated h hroom rfl rfl (fun hhost hview connId' => ?_) fun hne => ?_
    · show connId' ∈ note host view (.send room.host (.peerDown connId)) ↔ _
      simp only [note, hhost, if_true]
      rw [mem_filter_ne, hview connId', InsertionMap.mem_keys_delete]
    · show note host view (.send room.host (.peerDown connId)) = view
      exact if_neg hne

theorem agrees_sweep (hs : Reached S) {host : Socket} {now : ℕ} {view : List ℕ}
    (h : Agrees S.relay host view) :
    Agrees (sweep L now S.relay).1 host (viewAfter L host S view (.sweep now)) := by
  unfold viewAfter
  rw [out_eq, foldl_note_of_silent]
  · exact agrees_of_same h fun r room' hroom' hhost' =>
      ⟨room', get_of_get_sweep hs.toWf hroom', hhost', rfl⟩
  · intro effect hmem
    obtain ⟨peer, rfl | rfl⟩ := sweepRooms_effects now _ S.relay _ hmem <;> exact id

/-- The frames of a claim tell the new host of every entry of the table. -/
theorem mem_foldl_claim {socket : Socket} {entries : List (ℕ × Socket)} {connId : ℕ} :
    ∀ view : List ℕ, connId ∈ (entries.flatMap (claimFrames socket)).foldl (note socket) view ↔
      connId ∈ view ∨ connId ∈ entries.map Prod.fst := by
  induction entries with
  | nil => intro view; simp
  | cons entry entries ih =>
    intro view
    have hstep : ((entry :: entries).flatMap (claimFrames socket)).foldl (note socket) view =
        (entries.flatMap (claimFrames socket)).foldl (note socket) (entry.1 :: view) := by
      rw [List.flatMap_cons, List.foldl_append]
      simp [claimFrames, note]
    rw [hstep, ih, List.mem_cons, List.map_cons, List.mem_cons]
    tauto

theorem noteOwn_hello {host socket : Socket} (view : List ℕ) (hello : Hello) (now : ℕ)
    (token : String) :
    noteOwn host view (.hello socket hello now token) = if socket = host then [] else view := rfl

/-- A socket that has not said HELLO hosts no room, so any view agrees. -/
theorem agrees_of_fresh (hs : Seated S) {host : Socket} (hfresh : host ∉ S.greeted)
    (view : List ℕ) : Agrees S.relay host view := by
  intro r room hroom hhost
  exact absurd (hhost ▸ hs.hostGreeted r room hroom) hfresh

theorem agrees_hello (hs : Reached S) {host socket : Socket} {hello : Hello} {now : ℕ}
    {token : String} {view : List ℕ} (henabled : Enabled S (.hello socket hello now token))
    (h : Agrees S.relay host view) :
    Agrees (onHello L now token socket hello S.relay).1 host
      (viewAfter L host S view (.hello socket hello now token)) := by
  -- before the event the view of the caller may be taken to be empty
  have hown : Agrees S.relay host (noteOwn host view (.hello socket hello now token)) := by
    rw [noteOwn_hello]
    split
    · next heq => exact agrees_of_fresh hs.toSeated (heq ▸ henabled.1) []
    · exact h
  have hempty : socket = host → noteOwn host view (.hello socket hello now token) = [] := by
    intro heq
    rw [noteOwn_hello, if_pos heq]
  unfold viewAfter
  rw [out_eq]
  show Agrees _ host ((onHello L now token socket hello S.relay).2.foldl (note host) _)
  generalize noteOwn host view (.hello socket hello now token) = view₀ at hown hempty
  have hout := onHello_outcome L now token socket hello S.relay
  generalize onHello L now token socket hello S.relay = res at hout
  cases hout with
  | refused reason hrooms hatt =>
    rw [foldl_note_of_silent (by simp [kick, TellsOfPeer])]
    exact agrees_of_same hown fun r room' hroom' hhost' => ⟨room', by rwa [hrooms] at hroom',
      hhost', rfl⟩
  | claimed hfresh hrole hroom hclaim hproto =>
    rename_i room
    intro r room' hroom' hhost' connId
    change (S.relay.rooms.set room.roomId _).get r = some room' at hroom'
    rw [InsertionMap.get_set] at hroom'
    split at hroom'
    · cases hroom'
      have heq : socket = host := hhost'
      subst heq
      rw [claimHandoff_effects, List.foldl_cons, mem_foldl_claim, hempty rfl]
      show connId ∈ ([] : List ℕ) ∨ connId ∈ room.peers.keys ↔ connId ∈ room.peers.keys
      simp
    · -- the host of another room hears nothing of the claim
      have hne : socket ≠ host := by
        rintro rfl
        exact henabled.1 (hhost' ▸ hs.hostGreeted r room' hroom')
      rw [foldl_note_of_silent]
      · exact hown r room' hroom' hhost' connId
      · intro effect hmem
        rw [claimHandoff_effects] at hmem
        rcases List.mem_cons.mp hmem with rfl | hrest
        · exact id
        · obtain ⟨entry, -, heffect⟩ := List.mem_flatMap.mp hrest
          rcases List.mem_pair.mp heffect with rfl | rfl
          · exact hne
          · exact id
  | created hfresh hrole hroom hrooms hatt =>
    rw [foldl_note_of_silent (by simp [TellsOfPeer])]
    intro r room' hroom' hhost' connId
    rw [hrooms, InsertionMap.get_set] at hroom'
    split at hroom'
    · cases hroom'
      rw [hempty hhost']
      exact Iff.rfl
    · exact hown r room' hroom' hhost' connId
  | joined hfresh hrole hroom hrooms hatt =>
    rename_i room
    refine agrees_set hs.toSeated hown hroom hrooms rfl (fun hhost hview connId => ?_) fun hne => ?_
    · show connId ∈ note host view₀ (.send room.host (.peerUp room.nextConnId)) ↔ _
      simp only [note, hhost, if_true]
      rw [List.mem_cons, InsertionMap.mem_keys_set, hview connId]
    · show note host view₀ (.send room.host (.peerUp room.nextConnId)) = view₀
      exact if_neg hne

/-- **The view of every host follows the peer table over one event.** -/
theorem agrees_next (hs : Reached S) {host : Socket} {view : List ℕ} {e : Event}
    (henabled : Enabled S e) (hkick : NoStaleKick S e) (h : Agrees S.relay host view) :
    Agrees ((server L).next S e).relay host (viewAfter L host S view e) := by
  rw [next_relay]
  cases e with
  | hello socket hello now token => exact agrees_hello hs henabled h
  | message socket data now => exact agrees_message hs henabled hkick h
  | close socket => exact agrees_close hs h
  | sweep now => exact agrees_sweep hs h

theorem agrees_exec {host : Socket} {es : List Event} : ∀ {S : ServerState} {view : List ℕ},
    Reached S → (server L).Valid S es → (server L).Along NoStaleKick S es →
      Agrees S.relay host view →
      Agrees ((server L).exec S es).relay host (viewAt L host S view es) := by
  induction es with
  | nil =>
    intro S view _ _ _ h
    exact h
  | cons e es ih =>
    intro S view hs hvalid hkick h
    exact ih (reached_next hs hvalid.1) hvalid.2 hkick.2 (agrees_next hs hvalid.1 hkick.1 h)

/-! ### Who is told anything -/

/-- Only a socket that has said HELLO is sent anything. -/
theorem greeted_of_sent (h : Seated S) {e : Event} (henabled : Enabled S e) {dest : Socket}
    {frame : Frame} (hsent : Effect.send dest frame ∈ (react L S.relay e).2) :
    dest ∈ ((server L).next S e).greeted := by
  have hpeer : ∀ {r : String} {room : Room} {connId : ℕ} {peer : Socket},
      S.relay.rooms.get r = some room → room.peers.get connId = some peer → peer ∈ S.greeted :=
    fun hroom hget => h.seat_greeted ⟨_, hroom, hget⟩
  cases e with
  | hello socket hello now token =>
    show dest ∈ socket :: S.greeted
    change _ ∈ (onHello L now token socket hello S.relay).2 at hsent
    have hout := onHello_outcome L now token socket hello S.relay
    generalize onHello L now token socket hello S.relay = res at hout hsent
    cases hout with
    | refused reason hrooms hatt =>
      have heq : dest = socket ∧ frame = .reject reason := by simpa [kick] using hsent
      rw [heq.1]
      exact List.mem_cons_self
    | claimed hfresh hrole hroom hclaim hproto =>
      rw [claimHandoff_effects] at hsent
      rcases List.mem_cons.mp hsent with heq | hrest
      · cases heq
        exact List.mem_cons_self
      · obtain ⟨entry, hentry, heffect⟩ := List.mem_flatMap.mp hrest
        rcases List.mem_pair.mp heffect with heq | heq
        · cases heq
          exact List.mem_cons_self
        · cases heq
          exact List.mem_cons_of_mem _
            (hpeer hroom ((InsertionMap.mem_entries _ _ _).mp hentry))
    | created hfresh hrole hroom hrooms hatt =>
      cases List.mem_singleton.mp hsent
      exact List.mem_cons_self
    | joined hfresh hrole hroom hrooms hatt =>
      rcases List.mem_pair.mp hsent with heq | heq
      · cases heq
        exact List.mem_cons_self
      · cases heq
        exact List.mem_cons_of_mem _ (h.hostGreeted _ _ hroom)
  | message socket data now =>
    show dest ∈ S.greeted
    change _ ∈ (onMessage now socket data S.relay).2 at hsent
    have hout := onMessage_outcome now socket data S.relay
    generalize onMessage now socket data S.relay = res at hout hsent
    cases hout with
    | ignored => cases hsent
    | ponged hping =>
      cases List.mem_singleton.mp hsent
      exact henabled.1
    | kicked => cases List.mem_singleton.mp hsent
    | handedOff => cases hsent
    | toPeer hatt hrole hroom hframe hget =>
      cases List.mem_singleton.mp hsent
      exact hpeer hroom hget
    | toHost hatt hrole hroom hopen hframe hconn =>
      cases List.mem_singleton.mp hsent
      exact h.hostGreeted _ _ hroom
  | close socket =>
    show dest ∈ S.greeted
    change _ ∈ (onClose socket S.relay).2 at hsent
    have hout := onClose_outcome socket S.relay
    generalize onClose socket S.relay = res at hout hsent
    cases hout with
    | unattached => cases hsent
    | detached => cases hsent
    | toredown hatt hrole hroom hhost hopen =>
      obtain ⟨peer, hvalue, heffect⟩ := List.mem_flatMap.mp hsent
      obtain ⟨connId, hget⟩ := (InsertionMap.mem_values _ _).mp hvalue
      rcases List.mem_pair.mp heffect with heq | heq
      · cases heq
        exact hpeer hroom hget
      · cases heq
    | left hatt hrole hconn hroom =>
      cases List.mem_singleton.mp hsent
      exact h.hostGreeted _ _ hroom
  | sweep now =>
    change _ ∈ (sweepRooms now S.relay.rooms.values S.relay).2 at hsent
    obtain ⟨peer, heq | heq⟩ := sweepRooms_effects now _ S.relay _ hsent
    · cases heq
      obtain ⟨room, hmem, -, hvalue⟩ := sweepRooms_hostGone now _ S.relay hsent
      obtain ⟨r, hroom⟩ := (InsertionMap.mem_values _ _).mp hmem
      obtain ⟨connId, hget⟩ := (InsertionMap.mem_values _ _).mp hvalue
      exact hpeer hroom hget
    · cases heq

/-- A host is told that a connId is gone when it is. -/
theorem unseated_of_down (h : Seated S) {e : Event} {r : String} {room' : Room} {connId : ℕ}
    (hroom' : (react L S.relay e).1.rooms.get r = some room')
    (hsent : Effect.send room'.host (.peerDown connId) ∈ (react L S.relay e).2) :
    room'.peers.get connId = none := by
  cases e with
  | hello socket hello now token =>
    change _ ∈ (onHello L now token socket hello S.relay).2 at hsent
    have hout := onHello_outcome L now token socket hello S.relay
    generalize onHello L now token socket hello S.relay = res at hout hsent
    cases hout <;> simp [kick, claimHandoff] at hsent
  | message socket data now =>
    change _ ∈ (onMessage now socket data S.relay).2 at hsent
    have hout := onMessage_outcome now socket data S.relay
    generalize onMessage now socket data S.relay = res at hout hsent
    cases hout <;> simp at hsent
  | close socket =>
    change (onClose socket S.relay).1.rooms.get r = some room' at hroom'
    change _ ∈ (onClose socket S.relay).2 at hsent
    have hout := onClose_outcome socket S.relay
    generalize onClose socket S.relay = res at hout hsent hroom'
    cases hout with
    | unattached => cases hsent
    | detached => cases hsent
    | toredown => simp [teardownRoom] at hsent
    | left hatt hrole hconn hroom =>
      rename_i att room connId'
      have heq : room'.host = room.host ∧ connId = connId' := by simpa using hsent
      change (S.relay.rooms.set att.roomId _).get r = some room' at hroom'
      rw [InsertionMap.get_set] at hroom'
      split at hroom'
      · cases hroom'
        rw [heq.2]
        exact InsertionMap.get_delete_self _ _
      · next hr => exact absurd (h.ownRoom r _ room' room hroom' hroom heq.1) hr
  | sweep now =>
    obtain ⟨_, heq | heq⟩ := sweepRooms_effects now _ S.relay _ hsent <;> cases heq

/-! ### Who has gone -/

/-- Whoever has gone is attached no longer, and a room whose host has gone is being handed off. -/
structure Absent (S : ServerState) : Prop where
  attached : ∀ s ∈ S.gone, S.relay.attached.get s = none
  hosts : ∀ r room, S.relay.rooms.get r = some room → room.handoffDeadline = none →
    room.host ∉ S.gone

theorem absent_init : Absent init where
  attached s h := by cases h
  hosts r room h := by cases h

theorem unattached_of_close (R : State) (s : Socket) : (onClose s R).1.attached.get s = none := by
  have hout := onClose_outcome s R
  generalize onClose s R = res at hout
  cases hout with
  | unattached hatt => exact hatt
  | _ => exact InsertionMap.get_delete_self _ _

theorem absent_hello (h : Absent S) {socket : Socket} {hello : Hello} {now : ℕ} {token : String}
    (henabled : Enabled S (.hello socket hello now token)) :
    Absent ((server L).next S (.hello socket hello now token)) := by
  have hother : ∀ s ∈ S.gone, s ≠ socket := fun s hs heq => henabled.2 (heq ▸ hs)
  show Absent ⟨(onHello L now token socket hello S.relay).1, socket :: S.greeted, S.gone⟩
  have hout := onHello_outcome L now token socket hello S.relay
  generalize onHello L now token socket hello S.relay = res at hout
  cases hout with
  | refused reason hrooms hatt =>
    refine ⟨fun s hs => ?_, fun r room hroom => ?_⟩
    · rw [hatt]
      exact h.attached s hs
    · rw [hrooms] at hroom
      exact h.hosts r room hroom
  | claimed hfresh hrole hroom hclaim hproto =>
    refine ⟨fun s hs => ?_, InsertionMap.forall_get_set h.hosts fun _ => henabled.2⟩
    exact (InsertionMap.get_set_ne _ _ (hother s hs)).trans (h.attached s hs)
  | created hfresh hrole hroom hrooms hatt =>
    refine ⟨fun s hs => ?_, ?_⟩
    · rw [hatt, InsertionMap.get_set_ne _ _ (hother s hs)]
      exact h.attached s hs
    · rw [hrooms]
      exact InsertionMap.forall_get_set h.hosts fun _ => henabled.2
  | joined hfresh hrole hroom hrooms hatt =>
    refine ⟨fun s hs => ?_, ?_⟩
    · rw [hatt, InsertionMap.get_set_ne _ _ (hother s hs)]
      exact h.attached s hs
    · have hhost := h.hosts _ _ hroom
      rw [hrooms]
      exact InsertionMap.forall_get_set h.hosts hhost

theorem absent_message (h : Absent S) (socket : Socket) (data : Bytes) (now : ℕ) :
    Absent ((server L).next S (.message socket data now)) := by
  show Absent ⟨(onMessage now socket data S.relay).1, S.greeted, S.gone⟩
  have hout := onMessage_outcome now socket data S.relay
  generalize onMessage now socket data S.relay = res at hout
  cases hout with
  | ignored | ponged | toPeer | toHost => exact ⟨h.attached, h.hosts⟩
  | kicked hatt hrole hroom hkick hpeer =>
    have hhost := h.hosts _ _ hroom
    exact ⟨h.attached, InsertionMap.forall_get_set h.hosts hhost⟩
  | handedOff hatt hrole hroom hhost htype =>
    exact ⟨h.attached, InsertionMap.forall_get_set h.hosts fun hopen => by cases hopen⟩

theorem absent_close (hs : Reached S) (h : Absent S) {socket : Socket}
    (henabled : Enabled S (.close socket)) : Absent ((server L).next S (.close socket)) := by
  show Absent ⟨(onClose socket S.relay).1, S.greeted, socket :: S.gone⟩
  refine ⟨fun s hmem => ?_, fun r room' hroom' hopen hmem => ?_⟩
  · by_cases heq : s = socket
    · rw [heq]
      exact unattached_of_close S.relay socket
    · have hold := h.attached s ((List.mem_cons.mp hmem).resolve_left heq)
      have hout := onClose_outcome socket S.relay
      show (onClose socket S.relay).1.attached.get s = none
      generalize onClose socket S.relay = res at hout
      cases hout with
      | unattached => exact hold
      | _ => exact (InsertionMap.get_delete_ne _ heq).trans hold
  · obtain ⟨room, hroom, hhost, -, hopen'⟩ := shrinks_close socket S.relay r room' hroom'
    rcases List.mem_cons.mp hmem with heq | hgone
    · -- the close of the host takes its room down
      have hatt := hs.hosts r room hroom (by rw [← hhost, heq]; exact henabled)
      rw [← hhost, heq] at hatt
      change (onClose socket S.relay).1.rooms.get r = some room' at hroom'
      rw [onClose_host hatt rfl hroom (hhost.symm.trans heq) (hopen' hopen)] at hroom'
      change (S.relay.rooms.delete room.roomId).get r = some room' at hroom'
      rw [hs.roomId r room hroom, InsertionMap.get_delete_self] at hroom'
      cases hroom'
    · rw [hhost] at hgone
      exact h.hosts r room hroom (hopen' hopen) hgone

theorem absent_next (hs : Reached S) (h : Absent S) {e : Event} (henabled : Enabled S e) :
    Absent ((server L).next S e) := by
  cases e with
  | hello socket hello now token => exact absent_hello h henabled
  | message socket data now => exact absent_message h socket data now
  | close socket => exact absent_close hs h henabled
  | sweep now =>
    refine ⟨fun s hmem => ?_, fun r room' hroom' => ?_⟩
    · show (sweep L now S.relay).1.attached.get s = none
      rw [sweep_attached]
      exact h.attached s hmem
    · exact h.hosts r room' (get_of_get_sweep hs.toWf hroom')

/-! ### Nobody is announced twice -/

/-- How often `host` was sent PEER_UP for `connId`. -/
def announcements (host : Socket) (connId : ℕ) (effects : List Effect) : ℕ :=
  (sentTo host effects).count (.peerUp connId)

theorem sentTo_append (host : Socket) (out out' : List Effect) :
    sentTo host (out ++ out') = sentTo host out ++ sentTo host out' :=
  List.filterMap_append

theorem announcements_append (host : Socket) (connId : ℕ) (out out' : List Effect) :
    announcements host connId (out ++ out') =
      announcements host connId out + announcements host connId out' := by
  unfold announcements
  rw [sentTo_append, List.count_append]

theorem announcements_eq_zero {host : Socket} {connId : ℕ} {out : List Effect}
    (h : Effect.send host (.peerUp connId) ∉ out) : announcements host connId out = 0 :=
  List.count_eq_zero.mpr fun hmem => h (mem_sentTo.mp hmem)

/-- What was sent so far announced each connId at most once to each host, and a host that still has
its room heard of connIds below the room's counter only. -/
structure Announced (out : List Effect) (S : ServerState) : Prop where
  once : ∀ host connId, announcements host connId out ≤ 1
  greeted : ∀ host connId, announcements host connId out ≠ 0 → host ∈ S.greeted
  below : ∀ r room connId, S.relay.rooms.get r = some room →
    announcements room.host connId out ≠ 0 → connId < room.nextConnId

theorem announced_init : Announced [] init where
  once host connId := Nat.zero_le _
  greeted host connId h := absurd rfl h
  below r room connId h := by cases h

/-- An event that announces `connId` to `host` does so once; the host is new or the connId is, and the
counter of its room is past the connId afterwards. -/
structure FreshUp (L : RelayLimits) (S : ServerState) (e : Event) (host : Socket) (connId : ℕ) :
    Prop where
  once : announcements host connId ((server L).out S e) ≤ 1
  unheard : host ∉ S.greeted ∨ ∃ r room, S.relay.rooms.get r = some room ∧ room.host = host ∧
    room.nextConnId ≤ connId
  greeted : host ∈ ((server L).next S e).greeted
  below : ∀ r room', ((server L).next S e).relay.rooms.get r = some room' → room'.host = host →
    connId < room'.nextConnId

/-- Nothing but a HELLO announces a peer. -/
theorem hello_of_peerUp {e : Event} {host : Socket} {connId : ℕ}
    (hsent : Effect.send host (.peerUp connId) ∈ (react L R e).2) :
    ∃ socket hello now token, e = .hello socket hello now token := by
  cases e with
  | hello socket hello now token => exact ⟨socket, hello, now, token, rfl⟩
  | message socket data now =>
    change _ ∈ (onMessage now socket data R).2 at hsent
    have hout := onMessage_outcome now socket data R
    generalize onMessage now socket data R = res at hout hsent
    cases hout <;> simp at hsent
  | close socket =>
    change _ ∈ (onClose socket R).2 at hsent
    have hout := onClose_outcome socket R
    generalize onClose socket R = res at hout hsent
    cases hout <;> simp [teardownRoom] at hsent
  | sweep now =>
    obtain ⟨_, heq | heq⟩ := sweepRooms_effects now _ R _ hsent <;> cases heq

theorem freshUp_claim (hs : Seated S) {socket host : Socket} {hello : Hello} {now : ℕ}
    {token : String} {room : Room} {connId : ℕ}
    (henabled : Enabled S (.hello socket hello now token))
    (hroom : S.relay.rooms.get hello.roomId = some room)
    (hres : onHello L now token socket hello S.relay = claimHandoff token socket room S.relay)
    (hsent : Effect.send host (.peerUp connId) ∈ (claimHandoff token socket room S.relay).2) :
    FreshUp L S (.hello socket hello now token) host connId := by
  have hout : (server L).out S (.hello socket hello now token) =
      (claimHandoff token socket room S.relay).2 := by
    rw [out_eq]
    exact congrArg Prod.snd hres
  have hnext : ((server L).next S (.hello socket hello now token)).relay =
      (claimHandoff token socket room S.relay).1 := by
    rw [next_relay]
    exact congrArg Prod.fst hres
  have hno : ∀ entry ∈ room.peers.entries, entry.2 ≠ socket := by
    rintro ⟨connId', peer⟩ hmem rfl
    exact henabled.1 (hs.seat_greeted ⟨room, hroom, (InsertionMap.mem_entries _ _ _).mp hmem⟩)
  -- PEER_UP goes to the claiming socket, for the keys of the table
  have hmine : host = socket ∧ connId ∈ room.peers.keys := by
    rw [claimHandoff_effects] at hsent
    rcases List.mem_cons.mp hsent with heq | hrest
    · cases heq
    · obtain ⟨entry, hentry, heffect⟩ := List.mem_flatMap.mp hrest
      rcases List.mem_pair.mp heffect with heq | heq
      · cases heq
        exact ⟨rfl, List.mem_map.mpr ⟨entry, hentry, rfl⟩⟩
      · cases heq
  obtain ⟨rfl, hkey⟩ := hmine
  refine ⟨?_, .inl henabled.1, List.mem_cons_self, fun r room' hroom' hhost' => ?_⟩
  · unfold announcements
    rw [hout, claimHandoff_effects, sentTo_cons_send, if_pos rfl, sentTo_claim_self hno,
      List.count_cons_of_ne (by simp)]
    have hnodup : (room.peers.keys.map Frame.peerUp).Nodup :=
      room.peers.nodup.map fun a b heq => by cases heq; rfl
    exact List.nodup_iff_count_le_one.mp hnodup _
  · rw [hnext] at hroom'
    change (S.relay.rooms.set room.roomId _).get r = some room' at hroom'
    rw [InsertionMap.get_set] at hroom'
    split at hroom'
    · cases hroom'
      obtain ⟨peer, hpeer⟩ := (InsertionMap.mem_keys _ _).mp hkey
      exact hs.below _ room connId peer hroom hpeer
    · exact absurd (hhost' ▸ hs.hostGreeted r room' hroom') henabled.1

theorem freshUp_join (hs : Seated S) {socket host : Socket} {hello : Hello} {now : ℕ}
    {token : String} {room : Room} {connId : ℕ} {R' : State}
    (hroom : S.relay.rooms.get hello.roomId = some room)
    (hrooms : R'.rooms = S.relay.rooms.set hello.roomId
      { room with
          peers := room.peers.set room.nextConnId socket, nextConnId := room.nextConnId + 1 })
    (hres : onHello L now token socket hello S.relay =
      (R', [.send socket (.ready (some room.nextConnId) none),
        .send room.host (.peerUp room.nextConnId)]))
    (hsent : Effect.send host (.peerUp connId) ∈ (onHello L now token socket hello S.relay).2) :
    FreshUp L S (.hello socket hello now token) host connId := by
  have hmine : host = room.host ∧ connId = room.nextConnId := by
    rw [hres] at hsent
    simpa using hsent
  obtain ⟨rfl, rfl⟩ := hmine
  refine ⟨?_, .inr ⟨_, room, hroom, rfl, Nat.le_refl _⟩,
    List.mem_cons_of_mem _ (hs.hostGreeted _ room hroom), fun r room' hroom' hhost' => ?_⟩
  · unfold announcements
    rw [out_eq]
    show (sentTo room.host (onHello L now token socket hello S.relay).2).count _ ≤ 1
    rw [hres, sentTo_cons_send, sentTo_cons_send, if_pos rfl]
    show List.count (Frame.peerUp room.nextConnId)
      (if socket = room.host then .ready (some room.nextConnId) none :: [.peerUp room.nextConnId]
        else [.peerUp room.nextConnId]) ≤ 1
    split <;> simp
  · rw [next_relay] at hroom'
    change (onHello L now token socket hello S.relay).1.rooms.get r = some room' at hroom'
    rw [hres, hrooms, InsertionMap.get_set] at hroom'
    split at hroom'
    · cases hroom'
      exact Nat.lt_succ_self _
    · next hr => exact absurd (hs.ownRoom r _ room' room hroom' hroom hhost') hr

/-- **Every announcement is new.** -/
theorem freshUp_of_sent (hs : Seated S) {e : Event} {host : Socket} {connId : ℕ}
    (henabled : Enabled S e) (hsent : Effect.send host (.peerUp connId) ∈ (server L).out S e) :
    FreshUp L S e host connId := by
  rw [out_eq] at hsent
  obtain ⟨socket, hello, now, token, rfl⟩ := hello_of_peerUp hsent
  change _ ∈ (onHello L now token socket hello S.relay).2 at hsent
  have hout := onHello_outcome L now token socket hello S.relay
  generalize hres : onHello L now token socket hello S.relay = res at hout
  have hsent' := hsent
  rw [hres] at hsent'
  cases hout with
  | refused reason hrooms hatt => simp [kick] at hsent'
  | claimed hfresh hrole hroom hclaim hproto => exact freshUp_claim hs henabled hroom hres hsent'
  | created hfresh hrole hroom hrooms hatt => simp at hsent'
  | joined hfresh hrole hroom hrooms hatt => exact freshUp_join hs hroom hrooms hres hsent

theorem announced_next (hs : Seated S) {out : List Effect} (h : Announced out S) {e : Event}
    (henabled : Enabled S e) :
    Announced (out ++ (server L).out S e) ((server L).next S e) := by
  have hgrow : ∀ socket ∈ S.greeted, socket ∈ ((server L).next S e).greeted := by
    intro socket hmem
    cases e with
    | hello => exact List.mem_cons_of_mem _ hmem
    | message => exact hmem
    | close => exact hmem
    | sweep => exact hmem
  have hcases : ∀ host connId, announcements host connId ((server L).out S e) = 0 ∨
      FreshUp L S e host connId := by
    intro host connId
    by_cases hsent : Effect.send host (.peerUp connId) ∈ (server L).out S e
    · exact .inr (freshUp_of_sent hs henabled hsent)
    · exact .inl (announcements_eq_zero hsent)
  -- what is announced now was not announced before
  have hold : ∀ host connId, FreshUp L S e host connId → announcements host connId out = 0 := by
    intro host connId hfresh
    by_contra hne
    rcases hfresh.unheard with hnew | ⟨r, room, hroom, rfl, hle⟩
    · exact hnew (h.greeted host connId hne)
    · have hlt := h.below r room connId hroom hne
      omega
  refine ⟨fun host connId => ?_, fun host connId hne => ?_, fun r room' connId hroom' hne => ?_⟩
  · rw [announcements_append]
    rcases hcases host connId with hzero | hfresh
    · rw [hzero]
      exact h.once host connId
    · rw [hold host connId hfresh, Nat.zero_add]
      exact hfresh.once
  · rcases hcases host connId with hzero | hfresh
    · rw [announcements_append, hzero] at hne
      exact hgrow host (h.greeted host connId hne)
    · exact hfresh.greeted
  · rcases hcases room'.host connId with hzero | hfresh
    · rw [announcements_append, hzero] at hne
      rcases host_origin hs hroom' with ⟨room, hroom, hhost, hle⟩ | ⟨hello, now, token, rfl⟩
      · rw [hhost] at hne
        exact Nat.lt_of_lt_of_le (h.below r room connId hroom hne) hle
      · exact absurd (h.greeted _ connId hne) henabled.1
    · exact hfresh.below r room' hroom' rfl

theorem announced_exec {es : List Event} : ∀ {S : ServerState} {out : List Effect}, Seated S →
    (server L).Valid S es → Announced out S →
      Announced (out ++ (server L).trace S es) ((server L).exec S es) := by
  induction es with
  | nil =>
    intro S out _ _ h
    rw [Machine.trace, List.append_nil]
    exact h
  | cons e es ih =>
    intro S out hs hvalid h
    rw [Machine.trace, ← List.append_assoc]
    exact ih (seated_next hs hvalid.1) hvalid.2 (announced_next hs h hvalid.1)

/-- **The host's view agrees with the relay.**  After any run in which no superseded host sends a
KICK, what the host of a room knows of its peers are exactly the keys of the room's peer table, and
no host was ever told twice of the same connId. -/
theorem host_view_agrees (L : RelayLimits) {es : List Event} {r : String} {room : Room}
    (hvalid : (server L).Valid init es) (hkick : (server L).Along NoStaleKick init es)
    (hroom : ((server L).exec init es).relay.rooms.get r = some room) :
    (∀ connId, connId ∈ hostView L room.host es ↔ connId ∈ room.peers.keys) ∧
      ∀ connId, announcements room.host connId ((server L).trace init es) ≤ 1 := by
  have hagrees : Agrees init.relay room.host [] := by
    intro r' room' hroom'
    cases hroom'
  exact ⟨agrees_exec reached_init hvalid hkick hagrees r room hroom rfl,
    (announced_exec seated_init hvalid announced_init).once room.host⟩

/-- A host kicks the first of its two peers and hands the room off, and a successor claims it before
the kicked peer's close has arrived. -/
def kickThenClaimRun : List Event :=
  [.hello ⟨1, "10.0.0.1"⟩ (helloAs .host) 0 "a", .hello ⟨2, "10.0.0.2"⟩ (helloAs .peer) 1 "",
    .hello ⟨3, "10.0.0.3"⟩ (helloAs .peer) 2 "",
    .message ⟨1, "10.0.0.1"⟩ [T.kick, 0, 0, 0, 1] 3, .message ⟨1, "10.0.0.1"⟩ [T.handoff] 4,
    .hello ⟨4, "10.0.0.4"⟩ (helloAs .host) 5 "b", .close ⟨2, "10.0.0.2"⟩]

/-- The room at the end of that run. -/
def claimedRoomAfterKick : Room :=
  ⟨"65727231", "b", ⟨4, "10.0.0.4"⟩, ⟨[(2, ⟨3, "10.0.0.3"⟩)], by decide⟩, 3, none⟩

theorem host_view_agrees_claimed :
    (∀ connId, connId ∈ hostView defaultLimits ⟨4, "10.0.0.4"⟩ kickThenClaimRun ↔
        connId ∈ claimedRoomAfterKick.peers.keys) ∧
      ∀ connId, announcements ⟨4, "10.0.0.4"⟩ connId
        ((server defaultLimits).trace init kickThenClaimRun) ≤ 1 := by
  have hkick : (server defaultLimits).Along NoStaleKick init kickThenClaimRun := by
    refine ⟨?_, ?_, ?_, ?_, ?_, ?_, ?_, trivial⟩
    · intro _ _ _ _ heq; cases heq
    · intro _ _ _ _ heq; cases heq
    · intro _ _ _ _ heq; cases heq
    · rintro socket data now connId heq - ⟨att, room, hatt, -, hroom, hne⟩
      cases heq
      cases hatt
      cases hroom
      exact hne rfl
    · intro _ _ _ _ heq hdecode
      cases heq
      cases hdecode
    · intro _ _ _ _ heq; cases heq
    · intro _ _ _ _ heq; cases heq
  have hroom : ((server defaultLimits).exec init kickThenClaimRun).relay.rooms.get "65727231" =
      some claimedRoomAfterKick := rfl
  exact host_view_agrees defaultLimits (by decide +kernel) hkick hroom

end ScreenSharing.Relay
