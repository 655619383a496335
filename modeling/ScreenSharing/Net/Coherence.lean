import ScreenSharing.Net.Tunnel
import ScreenSharing.Relay.Ledger

/-!
# What holds of every state of the tunnel

`Coherent` says how far each host link is in hearing of each registered peer: the PEER_UP for its
connId comes once, ahead of everything the peer has sent, and no PEER_DOWN comes behind it
(`Meets`).  So whenever a frame of a registered peer arrives, the link has made the transport it is
for, and only one (`Linked`).  Every step of the tunnel keeps this: `coherent_next`.
-/

namespace ScreenSharing.Net

open Lib hiding Bytes readUInt32BE
open Relay hiding readUInt32BE

variable {rt : JsonRuntime} {L : RelayLimits} {W : Tunnel rt} {c : ℕ} {p : Socket}

/-! ### Frames on the wire -/

theorem connIdOf_nat (n : ℕ) : connIdOf (.finite n) = some n := by
  simp [connIdOf]

theorem find_text (reason : RejectReason) :
    rejectReasons.find? (fun r => r.text = reason.text) = some reason := by
  cases reason <;> decide

/-- A link takes a frame for what it was. -/
theorem relayFrame_control (frame : Frame) : relayFrame (control frame) = some frame := by
  cases frame with
  | ready connId hostToken => cases connId <;> simp [control, relayFrame, connIdOf_nat]
  | reject reason => simp [control, relayFrame, find_text]
  | peerUp connId => simp [control, relayFrame, connIdOf_nat]
  | peerDown connId => simp [control, relayFrame, connIdOf_nat]
  | _ => rfl

/-- The objects in the packets on their way are ones that `JSON.parse` gives back. -/
def Undone (W : Tunnel rt) : Prop :=
  ∀ s, ∀ packet ∈ W.down s, ∀ v ∈ Wire.object packet.frame, rt.Undoes v

/-- **The link reads the frame that the relay wrote.** -/
theorem onMessage_packet (link : ClientLink) (socket : Socket) (packet : Downward rt)
    (hundone : ∀ v ∈ Wire.object packet.frame, rt.Undoes v) :
    link.onMessage rt socket packet.parcel packet.data =
      link.onFrame socket packet.parcel packet.frame := by
  unfold ClientLink.onMessage
  rw [decodeRelayFrame_encode packet.encoded hundone]
  simp only [relayFrame_control]

section Written

variable {parcel : Option Parcel} {frames frames' : List Frame} {packet : Downward rt}

theorem written_append :
    Tunnel.written rt parcel (frames ++ frames') =
      Tunnel.written rt parcel frames ++ Tunnel.written rt parcel frames' :=
  List.filterMap_append

theorem written_single {frame : Frame} {data : Bytes} (h : Wire.encode rt frame = .ok data) :
    Tunnel.written rt parcel [frame] = [⟨frame, data, h, parcel⟩] := by
  unfold Tunnel.written
  rw [List.filterMap_cons, List.filterMap_nil]
  split
  · next hnone =>
    split at hnone
    · cases hnone
    · next herror =>
      rw [h] at herror
      cases herror
  · next hsome =>
    split at hsome
    · next data' hdata =>
      rw [h] at hdata
      cases hdata
      cases hsome
      rfl
    · cases hsome

theorem mem_written (h : packet ∈ Tunnel.written rt parcel frames) :
    packet.frame ∈ frames ∧ packet.parcel = parcel := by
  obtain ⟨frame, hmem, heq⟩ := List.mem_filterMap.mp h
  split at heq
  · cases heq
    exact ⟨hmem, rfl⟩
  · cases heq

end Written

/-! ### What a host link hears of a peer -/

/-- A packet of the queue of a host, for the peer with connId `c` at socket `p`; `up` says whether its
PEER_UP came before. -/
structure Timely (c : ℕ) (p : Socket) (up : Bool) (packet : Downward rt) : Prop where
  once : packet.frame = .peerUp c → up = false
  stays : packet.frame = .peerDown c → up = false
  after : ∀ parcel ∈ packet.parcel, parcel.sender = .peer p → up = true

/-- **The queue of a host, as far as one peer goes**: its PEER_UP comes once, and before what the peer
has sent. -/
def Meets (c : ℕ) (p : Socket) : Bool → List (Downward rt) → Prop
  | up, [] => up = true
  | up, packet :: rest =>
    Timely c p up packet ∧ Meets c p (up || decide (packet.frame = .peerUp c)) rest

theorem timely_true {packet : Downward rt} (hup : packet.frame ≠ .peerUp c)
    (hdown : packet.frame ≠ .peerDown c) : Timely c p true packet :=
  ⟨fun h => absurd h hup, fun h => absurd h hdown, fun _ _ _ => rfl⟩

theorem meets_true {queue : List (Downward rt)}
    (h : ∀ packet ∈ queue, packet.frame ≠ .peerUp c ∧ packet.frame ≠ .peerDown c) :
    Meets c p true queue := by
  induction queue with
  | nil => rfl
  | cons packet rest ih =>
    obtain ⟨hup, hdown⟩ := h packet List.mem_cons_self
    exact ⟨timely_true hup hdown, ih fun packet' hmem => h packet' (List.mem_cons_of_mem _ hmem)⟩

/-- What comes later changes nothing, if it is neither PEER_UP nor PEER_DOWN for the connId. -/
theorem Meets.append {queue later : List (Downward rt)}
    (hlater : ∀ packet ∈ later, packet.frame ≠ .peerUp c ∧ packet.frame ≠ .peerDown c) :
    ∀ {up : Bool}, Meets c p up queue → Meets c p up (queue ++ later) := by
  induction queue with
  | nil =>
    intro up h
    have hup : up = true := h
    rw [hup]
    exact meets_true hlater
  | cons packet rest ih => exact fun h => ⟨h.1, ih h.2⟩

/-- A queue with no word of the peer, and then its PEER_UP. -/
theorem meets_up {queue : List (Downward rt)} {packet : Downward rt}
    (hqueue : ∀ packet ∈ queue, packet.frame ≠ .peerUp c ∧
      ∀ parcel ∈ packet.parcel, parcel.sender ≠ .peer p)
    (hup : packet.frame = .peerUp c) (hparcel : packet.parcel = none) :
    Meets c p false (queue ++ [packet]) := by
  induction queue with
  | nil =>
    refine ⟨⟨fun _ => rfl, fun _ => rfl, fun parcel h => ?_⟩, by simp [Meets, hup]⟩
    rw [hparcel] at h
    cases h
  | cons packet' rest ih =>
    obtain ⟨hno, hsilent⟩ := hqueue packet' List.mem_cons_self
    refine ⟨⟨fun _ => rfl, fun _ => rfl, fun parcel h hsender => absurd hsender (hsilent parcel h)⟩, ?_⟩
    simp only [hno, decide_false, Bool.or_false]
    exact ih fun packet'' hmem => hqueue packet'' (List.mem_cons_of_mem _ hmem)

/-- **A host link and one of the peers of its room**: the link has made a transport for the peer, or
finds its PEER_UP in the queue. -/
structure Linked (link : ClientLink) (queue : List (Downward rt)) (c : ℕ) (p : Socket) : Prop where
  isHost : link.isHost = true
  meets : Meets c p (decide (c ∈ link.made)) queue
  found : ∀ vt : ℕ, link.made[vt]? = some c → link.transport c = some vt ∨ vt ∈ link.shut
  unique : ∀ vt vt' : ℕ, link.made[vt]? = some c → link.made[vt']? = some c → vt = vt'

section Links

variable {link : ClientLink} {queue : List (Downward rt)} {socket : Socket}

theorem Linked.append (h : Linked link queue c p) {later : List (Downward rt)}
    (hlater : ∀ packet ∈ later, packet.frame ≠ .peerUp c ∧ packet.frame ≠ .peerDown c) :
    Linked link (queue ++ later) c p :=
  ⟨h.isHost, h.meets.append hlater, h.found, h.unique⟩

/-- One transport is made for each PEER_UP. -/
theorem made_onFrame_host (h : link.isHost = true) (parcel : Option Parcel) (frame : Frame) :
    (link.onFrame socket parcel frame).1.isHost = true ∧
      (link.onFrame socket parcel frame).1.made = link.made ++ HostLink.announced [frame] := by
  cases link with
  | host link shut => exact ⟨rfl, HostLink.made_onFrame link frame⟩
  | unopened => cases h
  | peer => cases h

/-- A frame that is neither PEER_UP nor PEER_DOWN for the connId leaves its transport. -/
theorem transport_onFrame (parcel : Option Parcel) {frame : Frame} (hup : frame ≠ .peerUp c)
    (hdown : frame ≠ .peerDown c) :
    (link.onFrame socket parcel frame).1.transport c = link.transport c := by
  cases link with
  | host link shut =>
    cases frame with
    | ready connId hostToken =>
      simp only [ClientLink.onFrame, HostLink.onFrame, ClientLink.transport, HostLink.answer]
      split <;> rfl
    | reject reason =>
      simp only [ClientLink.onFrame, HostLink.onFrame, ClientLink.transport, HostLink.answer]
      split <;> rfl
    | peerUp connId =>
      have hne : c ≠ connId := fun heq => hup (by rw [heq])
      simp only [ClientLink.onFrame, HostLink.onFrame, ClientLink.transport, HostLink.peerUp]
      split <;> exact InsertionMap.get_set_ne _ _ hne
    | peerDown connId =>
      have hne : c ≠ connId := fun heq => hdown (by rw [heq])
      exact InsertionMap.get_delete_ne _ hne
    | _ => rfl
  | unopened => rfl
  | peer => rfl

theorem transport_onFrame_up (h : link.isHost = true) (parcel : Option Parcel) :
    (link.onFrame socket parcel (.peerUp c)).1.transport c = some link.made.length := by
  cases link with
  | host link shut =>
    simp only [ClientLink.onFrame, HostLink.onFrame, ClientLink.transport, HostLink.peerUp]
    split <;> exact InsertionMap.get_set_self _ _ _
  | unopened => cases h
  | peer => cases h

theorem shut_onFrame {vt : ℕ} (hshut : vt ∈ link.shut) (parcel : Option Parcel) (frame : Frame) :
    vt ∈ (link.onFrame socket parcel frame).1.shut := by
  cases link with
  | host link shut => exact List.mem_append_left _ hshut
  | unopened => cases hshut
  | peer => cases hshut

/-- Where an element of a list with one more at the end is. -/
theorem getElem?_snoc {l : List ℕ} {a b i : ℕ} (h : (l ++ [a])[i]? = some b) :
    l[i]? = some b ∨ i = l.length ∧ a = b := by
  rw [List.getElem?_append] at h
  split at h
  · exact .inl h
  · next hle =>
    obtain ⟨hzero, heq⟩ := List.getElem?_eq_some_iff.mp h
    refine .inr ⟨?_, ?_⟩
    · simp only [List.length_singleton] at hzero
      omega
    · simpa using heq

/-- **The link takes the next packet.** -/
theorem Linked.onFrame {packet : Downward rt} (h : Linked link (packet :: queue) c p) :
    Linked (link.onFrame socket packet.parcel packet.frame).1 queue c p := by
  obtain ⟨htimely, hrest⟩ := h.meets
  obtain ⟨hhost, hmade⟩ := @made_onFrame_host _ socket h.isHost packet.parcel packet.frame
  have hmeets : Meets c p
      (decide (c ∈ (link.onFrame socket packet.parcel packet.frame).1.made)) queue := by
    have hmem : decide (c ∈ (link.onFrame socket packet.parcel packet.frame).1.made) =
        (decide (c ∈ link.made) || decide (packet.frame = .peerUp c)) := by
      rw [hmade]
      cases packet.frame <;> simp [HostLink.announced, eq_comm]
    rw [hmem]
    exact hrest
  by_cases hup : packet.frame = .peerUp c
  · -- the transport for `c` is the one that is made now
    have hnone : c ∉ link.made := by simpa using htimely.once hup
    have hlast : ∀ vt : ℕ, (link.onFrame socket packet.parcel packet.frame).1.made[vt]? = some c →
        vt = link.made.length := by
      intro vt hvt
      rw [hmade, hup] at hvt
      obtain hold | ⟨hvt, -⟩ := getElem?_snoc hvt
      · exact absurd (List.mem_of_getElem? hold) hnone
      · exact hvt
    refine ⟨hhost, hmeets, fun vt hvt => .inl ?_, fun vt vt' hvt hvt' => ?_⟩
    · rw [hlast vt hvt, hup]
      exact transport_onFrame_up h.isHost _
    · rw [hlast vt hvt, hlast vt' hvt']
  · have hsame : ∀ vt : ℕ, (link.onFrame socket packet.parcel packet.frame).1.made[vt]? = some c →
        link.made[vt]? = some c := by
      intro vt hvt
      rw [hmade] at hvt
      cases hframe : packet.frame with
      | peerUp connId =>
        rw [hframe] at hvt hup
        obtain hold | ⟨-, heq⟩ := getElem?_snoc hvt
        · exact hold
        · exact absurd (congrArg Frame.peerUp heq) hup
      | _ =>
        rw [hframe] at hvt
        simpa [HostLink.announced] using hvt
    refine ⟨hhost, hmeets, fun vt hvt => ?_, fun vt vt' hvt hvt' =>
      h.unique vt vt' (hsame vt hvt) (hsame vt' hvt')⟩
    have hdown : packet.frame ≠ .peerDown c := by
      intro heq
      have hnone : c ∉ link.made := by simpa using htimely.stays heq
      exact hnone (List.mem_of_getElem? (hsame vt hvt))
    rw [transport_onFrame _ hup hdown]
    exact (h.found vt (hsame vt hvt)).imp id fun hshut => shut_onFrame hshut _ _

/-- A transport closes. -/
theorem Linked.kick {host : HostLink} {shut : List ℕ} (h : Linked (.host host shut) queue c p)
    (vt : ℕ) : Linked (.host (host.kick vt) (shut ++ [vt])) queue c p := by
  have hmade : (ClientLink.host (host.kick vt) (shut ++ [vt])).made = host.made := host.made_kick vt
  refine ⟨rfl, ?_, fun vt' hvt' => ?_, ?_⟩
  · rw [hmade]
    exact h.meets
  · rw [hmade] at hvt'
    obtain hfound | hshut := h.found vt' hvt'
    · by_cases hvt : vt' = vt
      · exact .inr (List.mem_append_right _ (by simp [hvt]))
      · left
        have hne : host.made[vt]? ≠ some c := fun heq => hvt (h.unique vt' vt hvt' heq)
        simp only [ClientLink.transport, HostLink.kick]
        split
        · exact hfound
        · next connId hconn =>
          have hconnId : c ≠ connId := fun heq => hne (by rw [hconn, heq])
          exact (InsertionMap.get_delete_ne _ hconnId).trans hfound
    · exact .inr (List.mem_append_left _ hshut)
  · rw [hmade]
    exact h.unique

/-- More transports are closed. -/
theorem Linked.shut {host : HostLink} {shut : List ℕ} (h : Linked (.host host shut) queue c p)
    (vt : ℕ) : Linked (.host host (shut ++ [vt])) queue c p :=
  ⟨rfl, h.meets, fun vt' hvt' => (h.found vt' hvt').imp id (List.mem_append_left _), h.unique⟩

theorem linked_listen {host : HostLink} {shut : List ℕ} (h : Linked (.host host shut) queue c p) :
    Linked (.host host.onConnection.1 shut) queue c p := ⟨rfl, h.meets, h.found, h.unique⟩

end Links

/-! ### Reachable states -/

/-- The connIds that a host has heard of, or will, are below the counter of its room. -/
structure Known (nextConnId : ℕ) (link : ClientLink) (queue : List (Downward rt)) : Prop where
  isHost : link.isHost = true
  made : ∀ c ∈ link.made, c < nextConnId
  queued : ∀ packet ∈ queue, ∀ c, packet.frame = .peerUp c → c < nextConnId

/-- How a link writes a payload. -/
def WrittenBy (link : ClientLink) (s : Socket) (data : Bytes) (parcel : Parcel) : Prop :=
  match parcel.sender with
  | .peer q => q = s ∧ data = encodeDataP parcel.isBinary parcel.payload
  | .transport host vt => host = s ∧ ∃ c, link.made[vt]? = some c ∧
    encodeDataH c parcel.isBinary parcel.payload = .ok data

/-- **What holds of every state of the tunnel.** -/
structure Coherent (W : Tunnel rt) : Prop where
  reached : Reached W.relay
  absent : Absent W.relay
  quiet : ∀ s, s ∉ W.relay.greeted → W.up s = [] ∧ W.down s = []
  ups : ∀ s, ∀ message ∈ W.up s, ∀ parcel ∈ message.parcel,
    parcel.number < W.stamp ∧ WrittenBy (W.link s) s message.data parcel
  downs : ∀ s, ∀ packet ∈ W.down s, ∀ parcel ∈ packet.parcel,
    parcel.number < W.stamp ∧ ∀ q, parcel.sender = .peer q → q ∈ W.relay.greeted
  hosts : ∀ r room, W.relay.relay.rooms.get r = some room →
    Known room.nextConnId (W.link room.host) (W.down room.host)
  linked : ∀ r room c p, W.relay.relay.rooms.get r = some room → room.peers.get c = some p →
    Linked (W.link room.host) (W.down room.host) c p

theorem coherent_init : Coherent (Tunnel.init : Tunnel rt) where
  reached := reached_init
  absent := absent_init
  quiet s _ := ⟨rfl, rfl⟩
  ups s message h := by cases h
  downs s packet h := by cases h
  hosts r room h := by cases h
  linked r room c p h := by cases h

/-- A client puts a message on its socket. -/
theorem coherent_post (h : Coherent W) {s : Socket} (hgreeted : s ∈ W.relay.greeted) (data : Bytes)
    {parcel : Option Parcel} {stamp : ℕ} (hstamp : W.stamp ≤ stamp)
    (hparcel : ∀ P ∈ parcel, P.number < stamp ∧ WrittenBy (W.link s) s data P) :
    Coherent { W.post s data parcel with stamp := stamp } where
  reached := h.reached
  absent := h.absent
  quiet s' hs' := by
    have hne : s' ≠ s := fun heq => hs' (heq ▸ hgreeted)
    refine ⟨?_, (h.quiet s' hs').2⟩
    show Function.update W.up s _ s' = []
    rw [Function.update_of_ne hne]
    exact (h.quiet s' hs').1
  ups s' message hmem P hP := by
    by_cases hs' : s' = s
    · rw [hs'] at hmem ⊢
      change message ∈ Function.update W.up s _ s at hmem
      rw [Function.update_self] at hmem
      obtain hold | hnew := List.mem_append.mp hmem
      · obtain ⟨hlt, hwritten⟩ := h.ups s message hold P hP
        exact ⟨Nat.lt_of_lt_of_le hlt hstamp, hwritten⟩
      · cases List.mem_singleton.mp hnew
        exact hparcel P hP
    · change message ∈ Function.update W.up s _ s' at hmem
      rw [Function.update_of_ne hs'] at hmem
      obtain ⟨hlt, hwritten⟩ := h.ups s' message hmem P hP
      exact ⟨Nat.lt_of_lt_of_le hlt hstamp, hwritten⟩
  downs s' packet hmem P hP := by
    obtain ⟨hlt, hgreeted'⟩ := h.downs s' packet hmem P hP
    exact ⟨Nat.lt_of_lt_of_le hlt hstamp, hgreeted'⟩
  hosts := h.hosts
  linked := h.linked

/-- A link changes, but for the transports it has made. -/
structure Alike (rt : JsonRuntime) (link link' : ClientLink) : Prop where
  isHost : link'.isHost = link.isHost
  made : link'.made = link.made
  linked : ∀ (queue : List (Downward rt)) (c : ℕ) (p : Socket), Linked link queue c p →
    Linked link' queue c p

theorem coherent_setLink (h : Coherent W) {s : Socket} {link : ClientLink}
    (halike : Alike rt (W.link s) link) : Coherent (W.setLink s link) := by
  have hself : (W.setLink s link).link s = link := Function.update_self _ _ _
  have hother : ∀ s', s' ≠ s → (W.setLink s link).link s' = W.link s' :=
    fun s' hs' => Function.update_of_ne hs' _ _
  refine ⟨h.reached, h.absent, h.quiet, fun s' message hmem P hP => ?_, h.downs, fun r room hroom => ?_,
    fun r room c p hroom hpeer => ?_⟩
  · obtain ⟨hlt, hwritten⟩ := h.ups s' message hmem P hP
    refine ⟨hlt, ?_⟩
    by_cases hs' : s' = s
    · rw [hs'] at hwritten ⊢
      rw [hself]
      unfold WrittenBy at hwritten ⊢
      rw [halike.made]
      exact hwritten
    · rw [hother s' hs']
      exact hwritten
  · have hknown := h.hosts r room hroom
    by_cases hs' : room.host = s
    · rw [hs'] at hknown ⊢
      rw [hself]
      exact ⟨halike.isHost.trans hknown.isHost, by rw [halike.made]; exact hknown.made,
        hknown.queued⟩
    · rw [hother _ hs']
      exact hknown
  · have hold := h.linked r room c p hroom hpeer
    by_cases hs' : room.host = s
    · rw [hs'] at hold ⊢
      rw [hself]
      exact halike.linked _ _ _ hold
    · rw [hother _ hs']
      exact hold

/-! ### What the relay sends -/

theorem relay_relays (W : Tunnel rt) (e : Relay.Event) (parcel : Option Parcel) :
    (W.relays L e parcel).relay = (Relay.server L).next W.relay e := rfl

theorem down_relays (W : Tunnel rt) (e : Relay.Event) (parcel : Option Parcel) (s : Socket) :
    (W.relays L e parcel).down s =
      W.down s ++ Tunnel.written rt parcel (sentTo s (react L W.relay.relay e).2) := by
  rw [← out_eq]
  rfl

/-- A packet is one from before, or carries a frame that the relay sends now. -/
theorem mem_down_relays {e : Relay.Event} {parcel : Option Parcel} {s : Socket} {packet : Downward rt}
    (hmem : packet ∈ (W.relays L e parcel).down s) : packet ∈ W.down s ∨
      Effect.send s packet.frame ∈ (react L W.relay.relay e).2 ∧ packet.parcel = parcel := by
  rw [down_relays] at hmem
  obtain hold | hnew := List.mem_append.mp hmem
  · exact .inl hold
  · obtain ⟨hframe, hparcel⟩ := mem_written hnew
    exact .inr ⟨mem_sentTo.mp hframe, hparcel⟩

theorem greeted_mono (S : ServerState) (e : Relay.Event) {s : Socket} (hs : s ∈ S.greeted) :
    s ∈ ((Relay.server L).next S e).greeted := by
  cases e with
  | hello => exact List.mem_cons_of_mem _ hs
  | _ => exact hs

section Relays

variable {e : Relay.Event} {parcel : Option Parcel} {r : String} {room room' : Room}

theorem quiet_relays (h : Coherent W) (henabled : Relay.Enabled W.relay e) (s : Socket)
    (hs : s ∉ (W.relays L e parcel).relay.greeted) :
    W.up s = [] ∧ (W.relays L e parcel).down s = [] := by
  rw [relay_relays] at hs
  obtain ⟨hup, hdown⟩ := h.quiet s fun hmem => hs (greeted_mono W.relay e hmem)
  refine ⟨hup, List.eq_nil_iff_forall_not_mem.mpr fun packet hmem => ?_⟩
  obtain hold | ⟨hsent, -⟩ := mem_down_relays hmem
  · rw [hdown] at hold
    cases hold
  · exact hs (greeted_of_sent h.reached.toSeated henabled hsent)

theorem downs_relays (h : Coherent W)
    (hparcel : ∀ P ∈ parcel, P.number < W.stamp ∧ ∀ q, P.sender = .peer q → q ∈ W.relay.greeted)
    (s : Socket) (packet : Downward rt) (hmem : packet ∈ (W.relays L e parcel).down s) :
    ∀ P ∈ packet.parcel, P.number < W.stamp ∧
      ∀ q, P.sender = .peer q → q ∈ (W.relays L e parcel).relay.greeted := by
  intro P hP
  have hold : P.number < W.stamp ∧ ∀ q, P.sender = .peer q → q ∈ W.relay.greeted := by
    obtain hold | ⟨-, heq⟩ := mem_down_relays hmem
    · exact h.downs s packet hold P hP
    · rw [heq] at hP
      exact hparcel P hP
  exact ⟨hold.1, fun q hq => greeted_mono W.relay e (hold.2 q hq)⟩

/-- What a host hears of peers that come later is below the counter of its room then. -/
theorem known_relays (h : Coherent W) (henabled : Relay.Enabled W.relay e)
    (hroom' : (W.relays L e parcel).relay.relay.rooms.get r = some room') {link : ClientLink}
    (hknown : Known room'.nextConnId link (W.down room'.host)) :
    Known room'.nextConnId link ((W.relays L e parcel).down room'.host) := by
  refine ⟨hknown.isHost, hknown.made, fun packet hmem c hframe => ?_⟩
  obtain hold | ⟨hsent, -⟩ := mem_down_relays hmem
  · exact hknown.queued packet hold c hframe
  · rw [hframe, ← out_eq] at hsent
    exact (freshUp_of_sent h.reached.toSeated henabled hsent).below r room' hroom' rfl

/-- **A seat that is kept**, under a host that stays. -/
theorem linked_relays (h : Coherent W) (henabled : Relay.Enabled W.relay e)
    (hroom : W.relay.relay.rooms.get r = some room) (hpeer : room.peers.get c = some p)
    (hroom' : (W.relays L e parcel).relay.relay.rooms.get r = some room')
    (hhost : room'.host = room.host) (hpeer' : room'.peers.get c = some p) :
    Linked (W.link room'.host) ((W.relays L e parcel).down room'.host) c p := by
  have hs := h.reached.toSeated
  rw [relay_relays, next_relay] at hroom'
  rw [down_relays]
  refine Linked.append (by rw [hhost]; exact h.linked r room c p hroom hpeer) fun packet hmem => ?_
  have hsent := mem_sentTo.mp (mem_written hmem).1
  constructor
  · -- the connId has been announced before
    intro hup
    rw [hup, ← out_eq] at hsent
    obtain hnew | ⟨r₁, room₁, hroom₁, hhost₁, hle⟩ := (freshUp_of_sent hs henabled hsent).unheard
    · exact hnew (hhost ▸ hs.hostGreeted r room hroom)
    · have hr : r₁ = r := hs.ownRoom r₁ r room₁ room hroom₁ hroom (hhost₁.trans hhost)
      rw [hr, hroom] at hroom₁
      cases hroom₁
      have hlt := hs.below r room c p hroom hpeer
      omega
  · intro hdown
    rw [hdown] at hsent
    rw [unseated_of_down hs hroom' hsent] at hpeer'
    cases hpeer'

/-- A message, a close or a sweep takes away at most. -/
theorem shrinks_react (h : Wf W.relay) (hno : ∀ s hello now token, e ≠ .hello s hello now token) :
    Shrinks W.relay.relay (react L W.relay.relay e).1 := by
  cases e with
  | hello s hello now token => exact absurd rfl (hno s hello now token)
  | message s data now => exact shrinks_message now s data _
  | close s => exact shrinks_close s _
  | sweep now => exact shrinks_sweep h now

/-- **The relay handles anything but a HELLO.** -/
theorem coherent_relays (h : Coherent W) (henabled : Relay.Enabled W.relay e)
    (hno : ∀ s hello now token, e ≠ .hello s hello now token)
    (hparcel : ∀ P ∈ parcel, P.number < W.stamp ∧ ∀ q, P.sender = .peer q → q ∈ W.relay.greeted) :
    Coherent (W.relays L e parcel) where
  reached := reached_next h.reached henabled
  absent := absent_next h.reached h.absent henabled
  quiet := quiet_relays h henabled
  ups := h.ups
  downs := downs_relays h hparcel
  hosts r room' hroom' := by
    obtain ⟨room, hroom, hhost, hle⟩ | ⟨hello, now, token, heq⟩ :=
      host_origin (L := L) h.reached.toSeated hroom'
    · have hknown := h.hosts r room hroom
      rw [← hhost] at hknown
      refine known_relays h henabled hroom' ⟨hknown.isHost, fun c hc => ?_, fun packet hmem c hc => ?_⟩
      · exact Nat.lt_of_lt_of_le (hknown.made c hc) hle
      · exact Nat.lt_of_lt_of_le (hknown.queued packet hmem c hc) hle
    · exact absurd heq (hno _ _ _ _)
  linked r room' c p hroom' hpeer' := by
    have hget := hroom'
    rw [relay_relays, next_relay] at hget
    obtain ⟨room, hroom, hhost, hpeers, -⟩ := shrinks_react h.reached.toWf hno r room' hget
    exact linked_relays h henabled hroom (hpeers c p hpeer') hroom' hhost hpeer'

end Relays

/-! ### A HELLO -/

/-- Frames with one PEER_UP for the connId, behind a queue with no word of the peer. -/
theorem meets_written {queue : List (Downward rt)} {before after : List Frame}
    (hqueue : ∀ packet ∈ queue, packet.frame ≠ .peerUp c ∧
      ∀ parcel ∈ packet.parcel, parcel.sender ≠ .peer p)
    (hbefore : Frame.peerUp c ∉ before)
    (hafter : ∀ frame ∈ after, frame ≠ .peerUp c ∧ frame ≠ .peerDown c) :
    Meets c p false (queue ++ Tunnel.written rt none (before ++ .peerUp c :: after)) := by
  have hsplit : queue ++ Tunnel.written rt none (before ++ .peerUp c :: after) =
      (queue ++ Tunnel.written rt none before ++
        [⟨.peerUp c, Wire.peerUp rt c, rfl, none⟩]) ++ Tunnel.written rt none after := by
    rw [← List.singleton_append, written_append, written_append,
      @written_single _ _ (.peerUp c) _ rfl]
    simp only [List.append_assoc]
  rw [hsplit]
  refine Meets.append (fun packet hmem => hafter _ (mem_written hmem).1)
    (meets_up (fun packet hmem => ?_) rfl rfl)
  obtain hold | hnew := List.mem_append.mp hmem
  · exact hqueue packet hold
  · obtain ⟨hframe, hparcel⟩ := mem_written hnew
    refine ⟨fun heq => hbefore (heq ▸ hframe), fun parcel hmem' => ?_⟩
    rw [hparcel] at hmem'
    cases hmem'

/-- A peer that a host link has no transport for yet. -/
theorem linked_of_meets {link : ClientLink} {queue : List (Downward rt)} (hhost : link.isHost = true)
    (hmade : c ∉ link.made) (hmeets : Meets c p false queue) : Linked link queue c p := by
  have hnone : ∀ vt : ℕ, link.made[vt]? ≠ some c := fun vt hvt =>
    hmade (List.mem_of_getElem? hvt)
  exact ⟨hhost, by simpa [hmade] using hmeets, fun vt hvt => absurd hvt (hnone vt),
    fun vt _ hvt => absurd hvt (hnone vt)⟩

section Hello

variable {socket : Socket} {hello : Hello} {now : ℕ} {token r : String} {room room' : Room}

/-- Only a HELLO of the role makes a host. -/
theorem role_of_host (hs : Seated W.relay) (hnew : socket ∉ W.relay.greeted)
    (hroom' : (onHello L now token socket hello W.relay.relay).1.rooms.get r = some room')
    (hhost : room'.host = socket) : hello.role = .host := by
  have hold : ∀ r' room₀, W.relay.relay.rooms.get r' = some room₀ → room₀.host ≠ socket :=
    fun r' room₀ hroom₀ heq => hnew (heq ▸ hs.hostGreeted r' room₀ hroom₀)
  have hout := onHello_outcome L now token socket hello W.relay.relay
  generalize onHello L now token socket hello W.relay.relay = res at hout hroom'
  cases hout with
  | refused reason hrooms =>
    rw [hrooms] at hroom'
    exact absurd hhost (hold r room' hroom')
  | claimed hfresh hrole => exact hrole
  | created hfresh hrole => exact hrole
  | joined hfresh hrole hroom hrooms =>
    rw [hrooms, InsertionMap.get_set] at hroom'
    split at hroom'
    · cases hroom'
      exact (hold _ _ hroom hhost).elim
    · exact absurd hhost (hold r room' hroom')

/-- **The seats after a HELLO**, seen from the host of their room. -/
theorem linked_hello (h : Coherent W) (henabled : Relay.Enabled W.relay (.hello socket hello now token))
    (hroom' : (W.relays L (.hello socket hello now token) none).relay.relay.rooms.get r = some room')
    (hpeer' : room'.peers.get c = some p) :
    (room'.host ≠ socket → Linked (W.link room'.host)
      ((W.relays L (.hello socket hello now token) none).down room'.host) c p) ∧
    (room'.host = socket → Linked (.host .new [])
      ((W.relays L (.hello socket hello now token) none).down room'.host) c p) := by
  have hs := h.reached.toSeated
  have hget := hroom'
  rw [relay_relays, next_relay] at hget
  change (onHello L now token socket hello W.relay.relay).1.rooms.get r = some room' at hget
  -- a seat from before
  have hkept : ∀ {room : Room}, W.relay.relay.rooms.get r = some room → room'.host = room.host →
      room.peers.get c = some p → (room'.host ≠ socket → Linked (W.link room'.host)
        ((W.relays L (.hello socket hello now token) none).down room'.host) c p) ∧
      (room'.host = socket → Linked (.host .new [])
        ((W.relays L (.hello socket hello now token) none).down room'.host) c p) := by
    intro room hroom hhost hpeer
    refine ⟨fun _ => linked_relays h henabled hroom hpeer hroom' hhost hpeer', fun heq => ?_⟩
    exact absurd (heq ▸ hhost ▸ hs.hostGreeted r room hroom) henabled.1
  have hdown := down_relays (L := L) W (.hello socket hello now token) none room'.host
  change _ = _ ++ Tunnel.written rt none
    (sentTo room'.host (onHello L now token socket hello W.relay.relay).2) at hdown
  have hout := onHello_outcome L now token socket hello W.relay.relay
  generalize hres : onHello L now token socket hello W.relay.relay = res at hout hget hdown
  cases hout with
  | refused reason hrooms =>
    rw [hrooms] at hget
    exact hkept hget rfl hpeer'
  | claimed hfresh hrole hroom hclaim hproto =>
    rename_i room
    change (W.relay.relay.rooms.set room.roomId _).get r = some room' at hget
    rw [InsertionMap.get_set] at hget
    split at hget
    · cases hget
      refine ⟨fun hne => absurd rfl hne, fun _ => linked_of_meets rfl List.not_mem_nil ?_⟩
      have hno : ∀ entry ∈ room.peers.entries, entry.2 ≠ socket := by
        intro entry hmem heq
        have hpeer := (InsertionMap.mem_entries _ _ _).mp hmem
        exact henabled.1 (heq ▸ hs.seat_greeted ⟨room, hroom, hpeer⟩)
      have hkey : c ∈ room.peers.keys := (InsertionMap.mem_keys _ _).mpr ⟨p, hpeer'⟩
      obtain ⟨before, after, hkeys⟩ := List.append_of_mem hkey
      have hnodup := room.peers.nodup
      change room.peers.keys.Nodup at hnodup
      rw [hkeys] at hnodup
      have hsent : sentTo socket (claimHandoff token socket room W.relay.relay).2 =
          (.ready none (some token) :: before.map .peerUp) ++ .peerUp c :: after.map .peerUp := by
        rw [claimHandoff_effects, sentTo_cons_send, if_pos rfl, sentTo_claim_self hno]
        show _ :: room.peers.keys.map Frame.peerUp = _
        rw [hkeys, List.map_append, List.map_cons]
        rfl
      rw [hdown, hsent]
      have hdisjoint := List.nodup_middle.mp hnodup
      have hout : c ∉ before ++ after := (List.nodup_cons.mp hdisjoint).1
      refine meets_written ?_ ?_ ?_
      · rw [(h.quiet socket henabled.1).2]
        intro packet hmem
        cases hmem
      · simpa using fun hmem => hout (List.mem_append_left _ hmem)
      · intro frame hmem
        obtain ⟨c', hc', rfl⟩ := List.mem_map.mp hmem
        have hne : c' ≠ c := fun heq => hout (heq ▸ List.mem_append_right _ hc')
        simpa using hne
    · exact hkept hget rfl hpeer'
  | created hfresh hrole hroom hrooms =>
    rw [hrooms, InsertionMap.get_set] at hget
    split at hget
    · cases hget
      cases hpeer'
    · exact hkept hget rfl hpeer'
  | joined hfresh hrole hroom hrooms hatt =>
    rename_i room
    rw [hrooms, InsertionMap.get_set] at hget
    split at hget
    · next hr =>
      cases hget
      change (room.peers.set room.nextConnId socket).get c = some p at hpeer'
      rw [InsertionMap.get_set] at hpeer'
      split at hpeer'
      · next hc =>
        cases hpeer'
        have hknown := h.hosts _ room hroom
        have hne : p ≠ room.host := fun heq => henabled.1 (heq ▸ hs.hostGreeted _ room hroom)
        refine ⟨fun _ => ?_, fun heq => absurd heq.symm hne⟩
        refine linked_of_meets hknown.isHost (fun hmem => ?_) ?_
        · have hlt := hknown.made c hmem
          omega
        · rw [hdown, sentTo_cons_send, if_neg hne, sentTo_cons_send, if_pos rfl, ← hc]
          refine @meets_written _ _ _ _ [] [] (fun packet hmem => ⟨fun hframe => ?_, ?_⟩)
            (by simp) (by simp)
          · have hlt := hknown.queued packet hmem c hframe
            omega
          · intro parcel hparcel hsender
            exact henabled.1 ((h.downs _ packet hmem parcel hparcel).2 p hsender)
      · exact @hkept room (hr ▸ hroom) rfl hpeer'
    · exact hkept hget rfl hpeer'

theorem coherent_hello (h : Coherent W)
    (henabled : Relay.Enabled W.relay (.hello socket hello now token)) :
    Coherent ((W.relays L (.hello socket hello now token) none).setLink socket (.opened hello.role)) := by
  have hself : ((W.relays L (.hello socket hello now token) none).setLink socket
      (.opened hello.role)).link socket = .opened hello.role := Function.update_self _ _ _
  have hother : ∀ s, s ≠ socket → ((W.relays L (.hello socket hello now token) none).setLink socket
      (.opened hello.role)).link s = W.link s := fun s hs => Function.update_of_ne hs _ _
  -- a host that has only just said HELLO
  have hnew : ∀ {r : String} {room' : Room},
      (W.relays L (.hello socket hello now token) none).relay.relay.rooms.get r = some room' →
      room'.host = socket → ClientLink.opened hello.role = .host .new [] := by
    intro r room' hroom' hhost
    rw [relay_relays, next_relay] at hroom'
    rw [role_of_host h.reached.toSeated henabled.1 hroom' hhost]
    rfl
  have hdowns := @downs_relays rt L W (.hello socket hello now token) none h (by simp)
  refine ⟨reached_next h.reached henabled, absent_next h.reached h.absent henabled,
    quiet_relays h henabled, ?_, hdowns, ?_, ?_⟩
  · intro s message hmem P hP
    have hne : s ≠ socket := by
      intro heq
      change message ∈ W.up s at hmem
      rw [heq, (h.quiet socket henabled.1).1] at hmem
      cases hmem
    rw [hother s hne]
    exact h.ups s message hmem P hP
  · intro r room' hroom'
    refine known_relays h henabled hroom' ?_
    have hget : ((Relay.server L).next W.relay (.hello socket hello now token)).relay.rooms.get r =
        some room' := hroom'
    obtain ⟨room, hroom, hhost, hle⟩ | ⟨hello', now', token', heq⟩ :=
      host_origin h.reached.toSeated hget
    · have hne : room'.host ≠ socket := fun heq =>
        henabled.1 (heq ▸ hhost ▸ h.reached.hostGreeted r room hroom)
      have hknown := h.hosts r room hroom
      rw [← hhost] at hknown
      rw [hother _ hne]
      exact ⟨hknown.isHost, fun c hc => Nat.lt_of_lt_of_le (hknown.made c hc) hle,
        fun packet hmem c hc => Nat.lt_of_lt_of_le (hknown.queued packet hmem c hc) hle⟩
    · have hhost : room'.host = socket := by
        cases heq
        rfl
      rw [hhost, hself, hnew hroom' hhost, (h.quiet socket henabled.1).2]
      exact ⟨rfl, fun c hc => absurd hc List.not_mem_nil, fun packet hmem => absurd hmem List.not_mem_nil⟩
  · intro r room' c p hroom' hpeer'
    obtain ⟨hold, hfirst⟩ := linked_hello h henabled hroom' hpeer'
    by_cases hhost : room'.host = socket
    · have hlinked := hfirst hhost
      rw [hhost] at hlinked ⊢
      rw [hself, hnew hroom' hhost]
      exact hlinked
    · rw [hother _ hhost]
      exact hold hhost

end Hello

/-! ### One step, and a run -/

theorem receiveNext_eq (hundone : Undone W) {s : Socket} {packet : Downward rt}
    {rest : List (Downward rt)} (hdown : W.down s = packet :: rest) :
    W.receiveNext s =
      ({ W with
          down := Function.update W.down s rest
          link := Function.update W.link s
            ((W.link s).onFrame s packet.parcel packet.frame).1 },
        ((W.link s).onFrame s packet.parcel packet.frame).2) := by
  have hmem : packet ∈ W.down s := by
    rw [hdown]
    exact List.mem_cons_self
  unfold Tunnel.receiveNext
  rw [hdown]
  dsimp only
  rw [onMessage_packet _ _ packet (hundone s packet hmem)]

/-- A transport that a link has made keeps its number. -/
theorem made_onFrame_mono {link : ClientLink} {s : Socket} (parcel : Option Parcel) (frame : Frame)
    {vt : ℕ} (h : link.made[vt]? = some c) :
    (link.onFrame s parcel frame).1.made[vt]? = some c := by
  cases link with
  | host link shut =>
    rw [(@made_onFrame_host (.host link shut) s rfl parcel frame).2]
    rw [List.getElem?_append_left (List.getElem?_eq_some_iff.mp h).1]
    exact h
  | unopened => exact h
  | peer link => exact h

/-- **A link receives.** -/
theorem coherent_receive (h : Coherent W) (hundone : Undone W) (s : Socket) :
    Coherent (W.receiveNext s).1 := by
  cases hdown : W.down s with
  | nil =>
    unfold Tunnel.receiveNext
    rw [hdown]
    exact h
  | cons packet rest =>
    rw [receiveNext_eq hundone hdown]
    have hsub : ∀ s' packet', packet' ∈ Function.update W.down s rest s' → packet' ∈ W.down s' := by
      intro s' packet' hmem
      by_cases hs' : s' = s
      · rw [hs', Function.update_self] at hmem
        rw [hs', hdown]
        exact List.mem_cons_of_mem _ hmem
      · rw [Function.update_of_ne hs'] at hmem
        exact hmem
    refine ⟨h.reached, h.absent, fun s' hs' => ⟨(h.quiet s' hs').1, ?_⟩, ?_, ?_, ?_, ?_⟩
    · refine List.eq_nil_iff_forall_not_mem.mpr fun packet' hmem => ?_
      have hold := hsub s' packet' hmem
      rw [(h.quiet s' hs').2] at hold
      cases hold
    · intro s' message hmem P hP
      obtain ⟨hlt, hwritten⟩ := h.ups s' message hmem P hP
      refine ⟨hlt, ?_⟩
      by_cases hs' : s' = s
      · subst hs'
        show WrittenBy (Function.update W.link s' _ s') s' message.data P
        rw [Function.update_self]
        unfold WrittenBy at hwritten ⊢
        cases hsender : P.sender with
        | peer q =>
          rw [hsender] at hwritten
          exact hwritten
        | transport host vt =>
          rw [hsender] at hwritten
          obtain ⟨hhost, c, hvt, hencode⟩ := hwritten
          exact ⟨hhost, c, made_onFrame_mono _ _ hvt, hencode⟩
      · show WrittenBy (Function.update W.link s _ s') s' message.data P
        rw [Function.update_of_ne hs']
        exact hwritten
    · exact fun s' packet' hmem => h.downs s' packet' (hsub s' packet' hmem)
    · intro r room hroom
      have hknown := h.hosts r room hroom
      show Known room.nextConnId (Function.update W.link s _ room.host)
        (Function.update W.down s rest room.host)
      refine ⟨?_, ?_, fun packet' hmem => hknown.queued packet' (hsub _ packet' hmem)⟩
      · by_cases hs' : room.host = s
        · rw [hs', Function.update_self]
          rw [hs'] at hknown
          exact (made_onFrame_host hknown.isHost _ _).1
        · rw [Function.update_of_ne hs']
          exact hknown.isHost
      · intro c hc
        by_cases hs' : room.host = s
        · rw [hs'] at hknown hc
          rw [Function.update_self, (made_onFrame_host hknown.isHost _ _).2] at hc
          obtain hold | hnew := List.mem_append.mp hc
          · exact hknown.made c hold
          · have hframe : packet.frame = .peerUp c := by
              cases hf : packet.frame <;> rw [hf] at hnew <;>
                simp [HostLink.announced] at hnew
              rw [hnew]
            exact hknown.queued packet (hdown ▸ List.mem_cons_self) c hframe
        · rw [Function.update_of_ne hs'] at hc
          exact hknown.made c hc
    · intro r room c p hroom hpeer
      have hlinked := h.linked r room c p hroom hpeer
      show Linked (Function.update W.link s _ room.host) (Function.update W.down s rest room.host) c p
      by_cases hs' : room.host = s
      · rw [hs', Function.update_self, Function.update_self]
        rw [hs', hdown] at hlinked
        exact hlinked.onFrame
      · rw [Function.update_of_ne hs', Function.update_of_ne hs']
        exact hlinked

/-- The next message is taken off a queue. -/
def Tunnel.pop (W : Tunnel rt) (s : Socket) (rest : List Upward) : Tunnel rt :=
  { W with up := Function.update W.up s rest }

theorem mem_up_pop {s s' : Socket} {message message' : Upward} {rest : List Upward}
    (hup : W.up s = message :: rest) (hmem : message' ∈ (W.pop s rest).up s') :
    message' ∈ W.up s' := by
  change message' ∈ Function.update W.up s rest s' at hmem
  by_cases hs' : s' = s
  · rw [hs', Function.update_self] at hmem
    rw [hs', hup]
    exact List.mem_cons_of_mem _ hmem
  · rw [Function.update_of_ne hs'] at hmem
    exact hmem

theorem coherent_pop (h : Coherent W) {s : Socket} {message : Upward} {rest : List Upward}
    (hup : W.up s = message :: rest) : Coherent (W.pop s rest) where
  reached := h.reached
  absent := h.absent
  quiet s' hs' := by
    refine ⟨List.eq_nil_iff_forall_not_mem.mpr fun message' hmem => ?_, (h.quiet s' hs').2⟩
    have hold := mem_up_pop hup hmem
    rw [(h.quiet s' hs').1] at hold
    cases hold
  ups s' message' hmem := h.ups s' message' (mem_up_pop hup hmem)
  downs := h.downs
  hosts := h.hosts
  linked := h.linked

theorem readNext_eq {s : Socket} {message : Upward} {rest : List Upward} (now : ℕ)
    (hup : W.up s = message :: rest) :
    W.readNext L s now =
      if message.data.length > maxPayload then (W.pop s rest).relays L (.close s) none
      else (W.pop s rest).relays L (.message s message.data now) message.parcel := by
  unfold Tunnel.readNext
  rw [hup]
  rfl

/-- **The relay reads.** -/
theorem coherent_read (h : Coherent W) {s : Socket} {now : ℕ}
    (henabled : W.Enabled (.read s now)) : Coherent (W.readNext L s now) := by
  obtain ⟨hne, hgreeted, hopen⟩ := henabled
  obtain ⟨message, rest, hup⟩ := List.exists_cons_of_ne_nil hne
  rw [readNext_eq now hup]
  have hpop := coherent_pop h hup
  split
  · exact coherent_relays hpop hopen (by simp) (by simp)
  · have henabled' : Relay.Enabled (W.pop s rest).relay (.message s message.data now) :=
      ⟨hgreeted, hopen⟩
    refine coherent_relays hpop henabled' (by simp) fun P hP => ?_
    obtain ⟨hlt, hwritten⟩ := h.ups s message (by rw [hup]; exact List.mem_cons_self) P hP
    refine ⟨hlt, fun q hq => ?_⟩
    unfold WrittenBy at hwritten
    rw [hq] at hwritten
    rw [hwritten.1]
    exact hgreeted

/-- Is it up to a client alone? -/
def TunnelEvent.byClient : TunnelEvent → Bool
  | .listen _ | .peerSend .. | .hostSend .. | .hostClose .. | .write .. => true
  | _ => false

/-- **What a client can do by itself**: put something on its socket, a payload that is given to `send`
or anything else, and change its link, but for the transports it has made. -/
inductive ClientStep (W : Tunnel rt) (e : TunnelEvent) : Tunnel rt → Prop
  | still : ClientStep W e W
  | sent {S : Endpoint} {data : Bytes} {isBinary : Bool} {payload : Bytes}
      (hgiven : given S e = some (isBinary, payload)) (hgreeted : S.socket ∈ W.relay.greeted)
      (hwritten : WrittenBy (W.link S.socket) S.socket data ⟨S, W.stamp, isBinary, payload⟩) :
      ClientStep W e (W.postParcel S S.socket data isBinary payload)
  | wrote {s : Socket} {data : Bytes} (hgreeted : s ∈ W.relay.greeted) :
      ClientStep W e (W.post s data none)
  | relinked {s : Socket} {link : ClientLink} (halike : Alike rt (W.link s) link) :
      ClientStep W e (W.setLink s link)
  | closed {s : Socket} {data : Bytes} {link : ClientLink} (hgreeted : s ∈ W.relay.greeted)
      (halike : Alike rt (W.link s) link) : ClientStep W e ((W.post s data none).setLink s link)

theorem client_step {e : TunnelEvent} (hclient : e.byClient = true) (henabled : W.Enabled e) :
    ClientStep W e ((tunnel L rt).next W e) ∧ (tunnel L rt).out W e = [] := by
  cases e with
  | listen socket =>
    refine ⟨?_, rfl⟩
    show ClientStep W _ (W.listen socket)
    unfold Tunnel.listen
    split
    · next host shut hlink =>
      refine .relinked ?_
      rw [hlink]
      exact ⟨rfl, rfl, fun _ _ _ => linked_listen⟩
    · exact .still
  | peerSend socket isBinary payload =>
    refine ⟨?_, rfl⟩
    show ClientStep W _ (W.peerSend socket isBinary payload)
    unfold Tunnel.peerSend
    split
    · split
      · exact .still
      · exact .sent (S := .peer socket) (if_pos rfl) henabled ⟨rfl, rfl⟩
    · exact .still
  | hostSend socket vt isBinary payload =>
    refine ⟨?_, rfl⟩
    show ClientStep W _ (W.hostSend socket vt isBinary payload)
    unfold Tunnel.hostSend
    split
    · next host shut hlink =>
      split
      · exact .still
      · split
        · next data hdata =>
          obtain ⟨c, hvt, hencode⟩ := Option.map_eq_some_iff.mp hdata
          refine .sent (S := .transport socket vt) (if_pos rfl) henabled.1 ⟨rfl, c, ?_, hencode⟩
          show (W.link socket).made[vt]? = some c
          rw [hlink]
          exact hvt
        · exact .still
    · exact .still
  | hostClose socket vt =>
    refine ⟨?_, rfl⟩
    show ClientStep W _ (W.hostClose socket vt)
    unfold Tunnel.hostClose
    split
    · next host shut hlink =>
      split
      · exact .still
      · split
        · refine .closed henabled.1 ?_
          rw [hlink]
          exact ⟨rfl, host.made_kick vt, fun _ _ _ hlinked => hlinked.kick vt⟩
        · refine .relinked ?_
          rw [hlink]
          exact ⟨rfl, rfl, fun _ _ _ hlinked => hlinked.shut vt⟩
    · exact .still
  | write socket data => exact ⟨.wrote henabled, rfl⟩
  | _ => cases hclient

theorem coherent_client (h : Coherent W) {e : TunnelEvent} {W' : Tunnel rt}
    (hstep : ClientStep W e W') : Coherent W' := by
  cases hstep with
  | still => exact h
  | sent hgiven hgreeted hwritten =>
    refine coherent_post h hgreeted _ (Nat.le_succ _) fun P hP => ?_
    cases hP
    exact ⟨Nat.lt_succ_self _, hwritten⟩
  | wrote hgreeted => exact coherent_post h hgreeted _ (Nat.le_refl _) (by simp)
  | relinked halike => exact coherent_setLink h halike
  | closed hgreeted halike =>
    exact coherent_setLink (coherent_post h hgreeted _ (Nat.le_refl _) (by simp)) halike

/-- **One step.** -/
theorem coherent_next (h : Coherent W) (hundone : Undone W) {e : TunnelEvent}
    (henabled : W.Enabled e) : Coherent ((tunnel L rt).next W e) := by
  cases e with
  | hello socket hello now token => exact coherent_hello h henabled
  | read socket now => exact coherent_read h henabled
  | close socket =>
    have hrelays : Coherent (W.relays L (.close socket) none) :=
      coherent_relays h henabled (by simp) (by simp)
    exact hrelays
  | sweep now =>
    have hrelays : Coherent (W.relays L (.sweep now) none) :=
      coherent_relays h henabled (by simp) (by simp)
    exact hrelays
  | receive socket => exact coherent_receive h hundone socket
  | listen | peerSend | hostSend | hostClose | write =>
    exact coherent_client h (client_step rfl henabled).1

/-- **A run.** -/
theorem coherent_exec {es : List TunnelEvent} (h : Coherent W) (hvalid : (tunnel L rt).Valid W es)
    (hundone : (tunnel L rt).Along (fun W _ => Undone W) W es) :
    Coherent ((tunnel L rt).exec W es) :=
  Machine.exec_invariant (G := fun W e => (tunnel L rt).enabled W e ∧ Undone W) (I := Coherent)
    (fun _ _ h hG => coherent_next h hG.2 hG.1) (Machine.along_and.mpr ⟨hvalid, hundone⟩) h

end ScreenSharing.Net
