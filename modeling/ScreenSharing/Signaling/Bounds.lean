import ScreenSharing.Shared.Schema
import ScreenSharing.Signaling.Changes

/-!
# The server stays within the bounds of the schemas

The schemas are checked where a message arrives, and nowhere else.  `Bounded` is what follows for the
state of the server, if its parameters fit and the bodies that come in have passed: whatever it keeps of
them could be sent again.  Every operation keeps it, and what it sends passes, but for one: the `joined`
of an admission lists the streams of the media plane, and nothing bounds their number
(`tame_iff_fewStreams`).
-/

namespace ScreenSharing.Signaling

open Lib Election SignalingServer

variable {L : Config} {S S' : SignalingServer} {out out' : List Output} {c : ℕ} {k : Conn}

/-! ### What fits -/

/-- A room for at most 64 whose host has a name and an id of the usual lengths. -/
structure Fits (L : Config) : Prop where
  params : RoomParamsSchema L.roomParams
  room : L.roomParams.maxParticipants ≤ 64
  nickname : Short 48 L.hostNickname
  hostPeerId : isPeerId L.hostPeerId = true

/-- The counters that are sent are still safe integers. -/
structure Counted (L : Config) (S : SignalingServer) : Prop where
  epoch : L.epoch < maxSafeInteger
  joinSeq : S.roster.nextJoinSeq ≤ maxSafeInteger

instance : Decidable (Counted L S) :=
  decidable_of_iff (L.epoch < maxSafeInteger ∧ S.roster.nextJoinSeq ≤ maxSafeInteger)
    ⟨fun h => ⟨h.1, h.2⟩, fun h => ⟨h.1, h.2⟩⟩

/-- What comes to the server from outside: a source gives an address, a body has been parsed, ids and
nonces are drawn in their ranges. -/
def EventFits : Event → Prop
  | .connection ip _ => Short 64 ip
  | .deliver _ (.binary body) => ∀ b ∈ body, BodySchema b
  | .resume _ draw =>
    isPeerId draw.peerId = true ∧ Safe draw.nonce ∧ ∀ stream ∈ draw.streams, StreamInfoSchema stream
  | .tick _ nonce _ => Safe nonce
  | .mediaReply _ reply => ∀ b ∈ reply, BodySchema b
  | .sendTo _ body | .broadcast body => BodySchema body
  | _ => True

instance : DecidablePred EventFits := fun e => by
  apply e.casesOn (motive := fun e => Decidable (EventFits e)) <;> intros
  case deliver conn frame =>
    apply frame.casesOn (motive := fun frame => Decidable (EventFits (.deliver conn frame))) <;> intros <;>
      unfold EventFits <;> infer_instance
  all_goals unfold EventFits; infer_instance

/-- What an output carries passes. -/
def Tame : Output → Prop
  | .send _ body => BodySchema body
  | .handleMessage p body => isPeerId p = true ∧ BodySchema body
  | .mediaPeerGone p => isPeerId p = true
  | _ => True

/-! ### The state -/

/-- What a connection keeps of what came in. -/
structure BoundedConn (k : Conn) : Prop where
  ip : Short 64 k.ip
  pending : ∀ body, some body ∈ k.pendingBinary → BodySchema body
  inbox : ∀ body, Item.message body ∈ k.inbox → BodySchema body
  join : ∀ join, k.stage = .joinReceived join → JoinSchema join
  admitted : ∀ p, k.stage = .admitted p → isPeerId p = true

structure Bounded (L : Config) (S : SignalingServer) : Prop where
  conns : ∀ c k, S.conns.get c = some k → BoundedConn k
  entries : ∀ p e, S.roster.entries.get p = some e → RosterEntrySchema e
  room : S.roster.size ≤ L.roomParams.maxParticipants
  probes : ∀ p endpoint, (p, endpoint) ∈ S.probes → InboundEndpointSchema endpoint

theorem bounded_new (hL : Fits L) : Bounded L (.new L) where
  conns c k h := by cases h
  entries p e h := by
    change (InsertionMap.empty.set L.hostPeerId _).get p = some e at h
    rw [InsertionMap.get_set] at h
    split at h
    · cases h
      exact ⟨PeerId.short_text ⟨_, hL.hostPeerId⟩, hL.nickname, Nat.zero_le _, fun _ h => (by cases h),
        fun _ h => (by cases h)⟩
    · cases h
  room := hL.params.maxParticipants.1
  probes p endpoint h := by cases h

theorem Bounded.setConn (h : Bounded L S) {k' : Conn} (hk : BoundedConn k') :
    Bounded L { S with conns := S.conns.set c k' } := by
  exact ⟨InsertionMap.forall_get_set h.conns hk, h.entries, h.room, h.probes⟩

theorem Bounded.modifyConn (h : Bounded L S) (c : ℕ) {f : Conn → Conn}
    (hf : ∀ k, BoundedConn k → BoundedConn (f k)) : Bounded L (S.modifyConn c f) := by
  cases hget : S.conns.get c with
  | none =>
    rw [modifyConn_none hget]
    exact h
  | some k =>
    rw [modifyConn_some hget]
    exact h.setConn (hf k (h.conns c k hget))

/-- A stage that holds nothing of a peer. -/
def Stage.bare : Stage → Bool
  | .joinReceived _ | .admitted _ => false
  | _ => true

theorem BoundedConn.restage (h : BoundedConn k) {stage : Stage} (hbare : stage.bare = true) :
    BoundedConn { k with stage := stage } := by
  refine ⟨h.ip, h.pending, h.inbox, fun join heq => ?_, fun p heq => ?_⟩
  · change stage = _ at heq
    rw [heq] at hbare
    cases hbare
  · change stage = _ at heq
    rw [heq] at hbare
    cases hbare

theorem Bounded.setStage (h : Bounded L S) (c : ℕ) {stage : Stage} (hbare : stage.bare = true) :
    Bounded L (S.setStage c stage) := h.modifyConn c fun _ hk => hk.restage hbare

theorem Bounded.listen (h : Bounded L S) (c : ℕ) {stage : Stage} (hbare : stage.bare = true) :
    Bounded L (S.listen c stage) := by
  refine h.modifyConn c fun k hk => ?_
  have hstage := hk.restage hbare
  exact ⟨hstage.ip, hstage.pending, hstage.inbox, hstage.join, hstage.admitted⟩

theorem Bounded.remove (h : Bounded L S) (p : String) :
    Bounded L { S with roster := S.roster.remove p, links := S.links.delete p } :=
  ⟨h.conns, fun q e hget => h.entries q e (InsertionMap.get_of_get_delete hget).1,
    Nat.le_trans (InsertionMap.size_delete_le _ _) h.room, h.probes⟩

/-! ### One operation -/

/-- The state after an operation is within the bounds, and so is everything it sent. -/
structure Fine (L : Config) (res : SignalingServer × List Output) : Prop where
  state : Bounded L res.1
  out : ∀ o ∈ res.2, Tame o

theorem fine_still (h : Bounded L S) : Fine L (S, []) := ⟨h, fun _ ho => by cases ho⟩

theorem Fine.append (h : Fine L (S, out)) (hout : ∀ o ∈ out', Tame o) : Fine L (S, out ++ out') :=
  ⟨h.state, fun o ho => (List.mem_append.mp ho).elim (h.out o) (hout o)⟩

theorem Fine.prepend (h : Fine L (S, out)) (hout : ∀ o ∈ out', Tame o) : Fine L (S, out' ++ out) :=
  ⟨h.state, fun o ho => (List.mem_append.mp ho).elim (hout o) (h.out o)⟩

theorem tame_one {o : Output} (h : Tame o) : ∀ o' ∈ [o], Tame o' := by
  intro o' ho'
  rw [List.mem_singleton.mp ho']
  exact h

theorem tame_send {body : Body} (h : BodySchema body) : ∀ o ∈ S.send c body, Tame o := by
  intro o ho
  rw [mem_send ho]
  exact h

theorem tame_sendHandshake {msg : HostMessage} : ∀ o ∈ S.sendHandshake c msg, Tame o := by
  intro o ho
  rw [mem_sendHandshake ho]
  trivial

theorem tame_broadcast {body : Body} {p : Option String} (h : BodySchema body) :
    ∀ o ∈ S.broadcast body p, Tame o := by
  intro o ho
  obtain ⟨_, _, _, _, rfl, _⟩ := mem_broadcast ho
  exact h

theorem tame_sendTo {body : Body} {p : String} (h : BodySchema body) :
    ∀ o ∈ S.sendTo p body, Tame o := by
  intro o ho
  obtain ⟨c, rfl⟩ := mem_sendTo ho
  exact h

theorem fine_onPeerGone (h : Bounded L S) {p : String} (hp : isPeerId p = true) :
    Fine L (S.onPeerGone L p) := by
  have hgone : ∀ o ∈ (if L.media then [Output.mediaPeerGone p] else []), Tame o := by
    intro o ho
    split at ho
    · rw [List.mem_singleton.mp ho]
      exact hp
    · cases ho
  unfold SignalingServer.onPeerGone
  split
  · exact fine_still h
  · dsimp only
    split
    · exact ⟨h.remove p, hgone⟩
    · have hbody : BodySchema (.rosterUpdate [] [p] []) :=
        ⟨few_nil, few_singleton (by decide) (PeerId.short_text ⟨p, hp⟩), few_nil⟩
      exact (Fine.append ⟨h.remove p, hgone⟩ (tame_broadcast hbody)).append (tame_one trivial)

theorem fine_emitClose (h : Bounded L S) (c : ℕ) : Fine L (S.emitClose L c) := by
  cases hget : S.conns.get c with
  | none =>
    unfold SignalingServer.emitClose
    rw [hget]
    exact fine_still h
  | some k =>
    rw [emitClose_eq hget]
    cases hst : k.stage with
    | awaiting type => exact fine_still (h.setStage c rfl)
    | joining => exact fine_still (h.setStage c rfl)
    | admitted p => exact fine_onPeerGone h ((h.conns c k hget).admitted p hst)
    | _ => exact fine_still h

theorem fine_dropConn (h : Bounded L S) (c : ℕ) : Fine L (S.dropConn L c) := by
  have hshut : Bounded L (S.modifyConn c fun k => { k with closed := true }) :=
    h.modifyConn c fun _ hk => ⟨hk.ip, hk.pending, hk.inbox, hk.join, hk.admitted⟩
  exact fine_emitClose hshut c

theorem fine_closeConn (h : Bounded L S) (c : ℕ) : Fine L (S.closeConn L c) := by
  unfold SignalingServer.closeConn
  split
  · exact fine_still h
  · refine (fine_dropConn h c).prepend fun o ho => ?_
    split at ho
    · rw [List.mem_singleton.mp ho]
      trivial
    · cases ho

/-- Closing a connection whose continuation runs, and ending it. -/
theorem fine_closeAndEnd (h : Bounded L S) (c : ℕ) :
    Fine L ((S.closeConn L c).1.setStage c .ended, (S.closeConn L c).2) :=
  ⟨(fine_closeConn h c).state.setStage c rfl, (fine_closeConn h c).out⟩

/-! ### Receiving -/

theorem fine_onPeerMessage (h : Bounded L S) {p : String} (hp : isPeerId p = true) {body : Body}
    (hbody : BodySchema body) : Fine L (S.onPeerMessage L p body) := by
  unfold SignalingServer.onPeerMessage
  cases hlink : S.links.get p with
  | none => exact fine_still h
  | some link =>
    have hunexpected : Fine L (S, [.error ("unexpected " ++ body.type ++ " from " ++ p)]) :=
      ⟨h, tame_one trivial⟩
    have hmedia : Fine L ({ S with mediaPending := p :: S.mediaPending }, [.handleMessage p body]) :=
      ⟨⟨h.conns, h.entries, h.room, h.probes⟩, tame_one ⟨hp, hbody⟩⟩
    cases body with
    | ping nonce sentAt => exact ⟨h, tame_send hbody⟩
    | pong nonce sentAt => exact fine_still ⟨h.conns, h.entries, h.room, h.probes⟩
    | bye reason =>
      refine fine_closeConn ?_ _
      exact ⟨h.conns, h.entries, h.room, h.probes⟩
    | _ =>
      dsimp only
      split
      · exact hmedia
      · exact hunexpected

/-- What an item carries passes. -/
def ItemFits : Item → Prop
  | .handshake _ => True
  | .message body => BodySchema body

theorem fine_emitItem (h : Bounded L S) (hget : S.conns.get c = some k) {item : Item}
    (hitem : ItemFits item) : Fine L (S.emitItem L c k.stage item) := by
  unfold SignalingServer.emitItem
  split
  · refine fine_still (h.setStage c ?_)
    split <;> rfl
  · refine fine_still (h.modifyConn c fun k hk => ⟨hk.ip, hk.pending, hk.inbox, ?_, ?_⟩)
    · intro join heq
      cases heq
      exact hitem
    · intro p heq
      cases heq
  · exact fine_still (h.setStage c rfl)
  · next hst => exact fine_onPeerMessage h ((h.conns c k hget).admitted _ hst) hitem
  · exact fine_still h

theorem fine_deliverItem (h : Bounded L S) (c : ℕ) {item : Item} (hitem : ItemFits item) :
    Fine L (S.deliverItem L c item) := by
  unfold SignalingServer.deliverItem
  cases hget : S.conns.get c with
  | none => exact fine_still h
  | some k =>
    dsimp only
    split
    · exact fine_emitItem h hget hitem
    · refine fine_still (h.modifyConn c fun k hk =>
        ⟨hk.ip, hk.pending, fun body hmem => ?_, hk.join, hk.admitted⟩)
      obtain hold | hnew := List.mem_append.mp hmem
      · exact hk.inbox body hold
      · cases List.mem_singleton.mp hnew
        exact hitem

theorem fine_deliverItems (c : ℕ) (items : List Item) : ∀ {S : SignalingServer}, Bounded L S →
    (∀ item ∈ items, ItemFits item) → Fine L (deliverItems L c items S) := by
  induction items with
  | nil => exact fun h _ => fine_still h
  | cons item rest ih =>
    intro S h hitems
    have hone := fine_deliverItem h c (hitems item List.mem_cons_self)
    have hrest := ih hone.state fun item' hmem => hitems item' (List.mem_cons_of_mem _ hmem)
    exact hrest.prepend hone.out

theorem fine_flush (h : Bounded L S) (c : ℕ) : Fine L (S.flush L c) := by
  refine fine_deliverItems c _ (h.modifyConn c fun k hk =>
    ⟨hk.ip, hk.pending, fun body hmem => (by cases hmem), hk.join, hk.admitted⟩) fun item hmem => ?_
  cases hget : S.conns.get c with
  | none =>
    rw [hget] at hmem
    cases hmem
  | some k =>
    rw [hget] at hmem
    cases item with
    | handshake msg => trivial
    | message body => exact (h.conns c k hget).inbox body hmem

theorem fine_fail (h : Bounded L S) (c : ℕ) (message : String) : Fine L (S.fail L c message) := by
  unfold SignalingServer.fail
  split
  · exact fine_closeConn (h.setStage c rfl) c
  · exact ⟨h, tame_one trivial⟩

theorem fine_onFrame (h : Bounded L S) (c : ℕ) {frame : Frame}
    (hframe : EventFits (.deliver c frame)) : Fine L (S.onFrame L c frame) := by
  unfold SignalingServer.onFrame
  split
  · exact fine_still h
  · split
    · exact fine_fail h c _
    · exact fine_fail h c _
    · exact fine_deliverItem h c (hframe _ rfl)
    · split
      · refine fine_still (h.modifyConn c fun k hk =>
          ⟨hk.ip, fun body hmem => ?_, hk.inbox, hk.join, hk.admitted⟩)
        obtain hold | hnew := List.mem_append.mp hmem
        · exact hk.pending body hold
        · exact hframe body (List.mem_singleton.mp hnew).symm
      · exact fine_fail h c _
    · exact fine_fail h c _
    · exact @fine_deliverItem _ _ h c (.handshake _) trivial

/-! ### Connections and their handshakes -/

theorem fine_refuse (h : Bounded L S) {ip : String} (hip : Short 64 ip) (reason : String) :
    Fine L (S.refuse ip reason) := by
  unfold SignalingServer.refuse
  dsimp only
  have hk : BoundedConn ⟨ip, true, false, [], [], false, .refused reason⟩ :=
    ⟨hip, fun _ h => (by cases h), fun _ h => (by cases h), fun _ h => (by cases h),
      fun _ h => (by cases h)⟩
  have hset := h.setConn (c := S.nextConn) hk
  refine ⟨⟨hset.conns, h.entries, h.room, h.probes⟩, fun o ho => ?_⟩
  change o ∈ (if S.sourceOpen then _ else _) at ho
  split at ho
  · rcases List.mem_cons.mp ho with rfl | ho
    · trivial
    · rw [List.mem_singleton.mp ho]
      trivial
  · cases ho

theorem fine_handleConnection (h : Bounded L S) {ip : String} (hip : Short 64 ip) (now : ℕ) :
    Fine L (S.handleConnection ip now) := by
  have hlimited : Bounded L { S with rateLimiter := (S.rateLimiter.take now ip).1 } :=
    ⟨h.conns, h.entries, h.room, h.probes⟩
  unfold SignalingServer.handleConnection
  split
  · exact fine_refuse h hip _
  · dsimp only
    split
    · exact (fine_refuse hlimited hip _).append (tame_one trivial)
    · split
      · exact (fine_refuse hlimited hip _).append (tame_one trivial)
      · have hk : BoundedConn ⟨ip, false, false, [], [], true, .awaiting .hello⟩ :=
          ⟨hip, fun _ h => (by cases h), fun _ h => (by cases h), fun _ h => (by cases h),
            fun _ h => (by cases h)⟩
        have hset := h.setConn (c := S.nextConn) hk
        exact fine_still ⟨hset.conns, h.entries, h.room, h.probes⟩

theorem fine_handshakeFailed (h : Bounded L S) (c : ℕ) (ip reason : String) :
    Fine L (S.handshakeFailed L c ip reason) := by
  have hend := fine_closeAndEnd h c
  have hstate := hend.state
  refine ⟨⟨hstate.conns, hstate.entries, hstate.room, hstate.probes⟩, fun o ho => ?_⟩
  rcases List.mem_cons.mp ho with rfl | ho
  · trivial
  · exact hend.out o ho

theorem mem_replay {body : Body} {pending : List (Option Body)} : ∀ {inbox : List Item},
    Item.message body ∈ (replay pending inbox).1 →
      Item.message body ∈ inbox ∨ some body ∈ pending := by
  induction pending with
  | nil => exact fun h => .inl h
  | cons early rest ih =>
    intro inbox h
    cases early with
    | none => exact .inl h
    | some b =>
      obtain hinbox | hrest := ih h
      · obtain hold | hnew := List.mem_append.mp hinbox
        · exact .inl hold
        · cases List.mem_singleton.mp hnew
          exact .inr List.mem_cons_self
      · exact .inr (List.mem_cons_of_mem _ hrest)

theorem fine_upgrade (h : Bounded L S) (hget : S.conns.get c = some k) :
    Fine L (S.upgrade L c k) := by
  unfold SignalingServer.upgrade
  have hreplay : ∀ body, Item.message body ∈ (replay k.pendingBinary k.inbox).1 →
      BodySchema body := by
    intro body hmem
    obtain hinbox | hpending := mem_replay hmem
    · exact (h.conns c k hget).inbox body hinbox
    · exact (h.conns c k hget).pending body hpending
  generalize replay k.pendingBinary k.inbox = res at hreplay
  obtain ⟨inbox, ok⟩ := res
  have hconn : Bounded L (S.modifyConn c fun k =>
      { k with encrypted := true, pendingBinary := [], inbox := inbox }) :=
    h.modifyConn c fun k hk => ⟨hk.ip, fun _ hmem => (by cases hmem), hreplay, hk.join, hk.admitted⟩
  dsimp only
  split
  · refine fine_still (Bounded.listen ?_ c rfl)
    exact ⟨hconn.conns, hconn.entries, hconn.room, hconn.probes⟩
  · exact fine_handshakeFailed hconn c k.ip _

theorem fine_onReceived (h : Bounded L S) (hget : S.conns.get c = some k) (msg : HandshakeMessage) :
    Fine L (S.onReceived L c k msg) := by
  have hfailed := fun reason => fine_handshakeFailed h c k.ip reason
  have hlisten : ∀ type, Bounded L (S.listen c (.awaiting type)) := fun type => h.listen c rfl
  cases msg with
  | hello protoVersion roomId =>
    simp only [SignalingServer.onReceived]
    split
    · exact (hfailed "version_mismatch").prepend tame_sendHandshake
    · split
      · exact (hfailed "room_id_mismatch").prepend tame_sendHandshake
      · exact ⟨hlisten .pakePeer, tame_sendHandshake⟩
  | pakePeer usable =>
    simp only [SignalingServer.onReceived]
    split
    · exact ⟨hlisten .pakeConfirm, tame_sendHandshake⟩
    · exact hfailed "bad_message"
  | pakeConfirm verifies =>
    simp only [SignalingServer.onReceived]
    split
    · exact fine_upgrade h hget
    · exact hfailed "bad_password"
  | other => exact hfailed "bad_message"

theorem fine_reject (h : Bounded L S) (c : ℕ) (ip : String) (reason : RejectedReason)
    (text : String) : Fine L (S.reject L c ip reason text) := by
  have hbody : BodySchema (.rejected reason) := trivial
  have htold : ∀ o ∈ [Output.peerRejected ip text], Tame o := tame_one trivial
  exact ((fine_closeAndEnd h c).prepend (tame_send hbody)).append htold

/-! ### Admission -/

theorem few_snapshot (hL : Fits L) (h : Bounded L S) :
    Few 64 RosterEntrySchema S.roster.snapshot := by
  constructor
  · have hsize : S.roster.snapshot.length = S.roster.size := by
      unfold Roster.snapshot
      rw [List.length_insertionSort]
      exact List.length_map ..
    rw [hsize]
    exact Nat.le_trans h.room hL.room
  · intro e hmem
    have hvalues : e ∈ S.roster.entries.values := (List.mem_insertionSort _).mp hmem
    obtain ⟨p, hget⟩ := (InsertionMap.mem_values _ _).mp hvalues
    exact h.entries p e hget

theorem newEntry_passes (hcount : Counted L S) {join : Join} (hjoin : JoinSchema join) {draw : Draw}
    (hdraw : isPeerId draw.peerId = true) : RosterEntrySchema (S.newEntry join draw) :=
  ⟨PeerId.short_text ⟨_, hdraw⟩, hjoin.1.2, hcount.joinSeq, fun _ h => (by cases h), fun _ h => (by cases h)⟩

/-- **An admission keeps the bounds**, however many streams there are. -/
theorem bounded_admitPeer (h : Bounded L S) (hcount : Counted L S) (hget : S.conns.get c = some k)
    {join : Join} (hstage : k.stage = .joinReceived join) (hadmits : S.admits L join = true)
    {draw : Draw} (hdraw : isPeerId draw.peerId = true) :
    Bounded L (S.admitPeer L c k.ip join draw).1 := by
  have hk := h.conns c k hget
  have hjoin := hk.join join hstage
  unfold SignalingServer.admitPeer
  dsimp only
  rw [listen_admitted _ _ _ hget]
  have hadmitted : BoundedConn { k with stage := .admitted draw.peerId, flushQueued := true } := by
    refine ⟨hk.ip, hk.pending, hk.inbox, fun join heq => (by cases heq), fun p heq => ?_⟩
    cases heq
    exact hdraw
  refine ⟨(h.setConn hadmitted).conns, ?_, ?_, fun p endpoint hmem => ?_⟩
  · exact InsertionMap.forall_get_set h.entries (newEntry_passes hcount hjoin hdraw)
  · have hroom := (admits_iff.mp hadmits).1
    have hsize := InsertionMap.size_set_le S.roster.entries draw.peerId (S.newEntry join draw)
    show (S.roster.entries.set draw.peerId (S.newEntry join draw)).size ≤ _
    unfold Roster.size at hroom
    omega
  · change (p, endpoint) ∈ (if _ then _ else S.probes) at hmem
    split at hmem
    · next hprobe =>
      obtain hnew | hold := List.mem_cons.mp hmem
      · cases hnew
        simp only [Bool.and_eq_true, decide_eq_true_eq] at hprobe
        have hport : (join.clientCaps.inboundPort : ℤ) ≤ 65535 := hjoin.2.2
        have hpos : (1 : ℤ) ≤ join.clientCaps.inboundPort := by omega
        exact ⟨hk.ip, hpos, hport⟩
      · exact h.probes p endpoint hold
    · exact h.probes p endpoint hmem

/-- A body, and then others that pass. -/
theorem tame_greeting {joined update ping : Body} {p : Option String} {o : Output}
    (hupdate : BodySchema update) (ho : Tame o) (hping : BodySchema ping) :
    (∀ o' ∈ S.send c joined ++ S.broadcast update p ++ [o] ++ S.send c ping, Tame o') ↔
      (S.reaches c = true → BodySchema joined) := by
  constructor
  · intro hall hreaches
    have hmem : Output.send c joined ∈ S.send c joined := by
      unfold SignalingServer.send
      rw [if_pos hreaches]
      exact List.mem_singleton_self _
    have htold := hall (.send c joined)
      (List.mem_append_left _ (List.mem_append_left _ (List.mem_append_left _ hmem)))
    exact htold
  · intro hjoined o' ho'
    rcases List.mem_append.mp ho' with ho' | ho'
    · rcases List.mem_append.mp ho' with ho' | ho'
      · rcases List.mem_append.mp ho' with ho' | ho'
        · unfold SignalingServer.send at ho'
          split at ho'
          · next hreaches =>
            rw [List.mem_singleton.mp ho']
            exact hjoined hreaches
          · cases ho'
        · exact tame_broadcast hupdate o' ho'
      · rw [List.mem_singleton.mp ho']
        exact ho
    · exact tame_send hping o' ho'

/-- **What an admission sends passes** exactly if the streams it lists are few. -/
theorem tame_admitPeer (hL : Fits L) (h : Bounded L S) (hcount : Counted L S)
    (hget : S.conns.get c = some k) {join : Join} (hstage : k.stage = .joinReceived join)
    (hadmits : S.admits L join = true) {draw : Draw} (hdraw : EventFits (.resume c draw)) :
    (∀ o ∈ (S.admitPeer L c k.ip join draw).2, Tame o) ↔
      (S.reaches c = true → L.media = true → draw.streams.length ≤ 64) := by
  obtain ⟨hid, hnonce, hstreams⟩ := hdraw
  have hstate := bounded_admitPeer h hcount hget hstage hadmits hid
  have hroster := few_snapshot hL hstate
  have hentry := newEntry_passes hcount ((h.conns c k hget).join join hstage) hid
  have hupdate : BodySchema (.rosterUpdate [S.newEntry join draw] [] []) :=
    ⟨few_singleton (by decide) hentry, few_nil, few_nil⟩
  unfold SignalingServer.admitPeer at hroster ⊢
  dsimp only at hroster ⊢
  rw [listen_admitted _ _ _ hget] at hroster ⊢
  have htold : Tame (.peerJoined draw.peerId (S.newEntry join draw).nickname) := trivial
  have hping : BodySchema (.ping draw.nonce draw.now) := hnonce
  rw [tame_greeting hupdate htold hping]
  have hreaches : ({ S with
      conns := S.conns.set c { k with stage := .admitted draw.peerId, flushQueued := true }
      roster := ({ S.roster with nextJoinSeq := S.roster.nextJoinSeq + 1 } : Roster).add
        (S.newEntry join draw)
      links := S.links.set draw.peerId (newLink L c k.ip draw) } : SignalingServer).reaches c =
      S.reaches c := by
    unfold SignalingServer.reaches
    rw [InsertionMap.get_set_self, hget]
    rfl
  rw [hreaches]
  refine imp_congr_right fun _ => ⟨fun hbody hmedia => ?_, fun hfew => ?_⟩
  · have hlisted := hbody.2.2.2.2.2.1
    rw [if_pos hmedia] at hlisted
    exact hlisted
  · refine ⟨PeerId.short_text ⟨_, hid⟩, hcount.joinSeq, Nat.le_of_lt hcount.epoch, hL.params, hroster, ?_⟩
    split
    · next hmedia => exact ⟨hfew hmedia, hstreams⟩
    · exact few_nil

/-- Few streams are listed, if this event makes the server list them. -/
def FewStreams (L : Config) (S : SignalingServer) : Event → Prop
  | .resume conn draw =>
    match (S.conns.get conn).map Conn.stage with
    | some (.joinReceived join) =>
      S.admits L join = true → S.reaches conn = true → L.media = true → draw.streams.length ≤ 64
    | _ => True
  | _ => True

instance (e : Event) : Decidable (FewStreams L S e) := by
  apply e.casesOn (motive := fun e => Decidable (FewStreams L S e)) <;> intros <;> dsimp only [FewStreams]
  case resume => split <;> infer_instance
  all_goals infer_instance

/-- **A continuation of `#handleConnection`.** -/
theorem resume_within (hL : Fits L) (h : Bounded L S) (hcount : Counted L S) {draw : Draw}
    (hdraw : EventFits (.resume c draw)) : Bounded L (S.resume L c draw).1 ∧
      ((∀ o ∈ (S.resume L c draw).2, Tame o) ↔ FewStreams L S (.resume c draw)) := by
  have hfine : ∀ {res : SignalingServer × List Output}, Fine L res → Bounded L res.1 ∧
      ((∀ o ∈ res.2, Tame o) ↔ True) := fun hres => ⟨hres.state, iff_true_intro hres.out⟩
  unfold SignalingServer.resume FewStreams
  dsimp only
  cases hget : S.conns.get c with
  | none => exact hfine (fine_still h)
  | some k =>
    rw [Option.map_some]
    dsimp only
    cases hst : k.stage with
    | received msg => exact hfine (fine_onReceived h hget msg)
    | failed reason => exact hfine (fine_handshakeFailed h c k.ip reason)
    | joinReceived join =>
      unfold SignalingServer.admitConn
      dsimp only
      split
      · next hfull =>
        have hnot : S.admits L join ≠ true := fun hadmits =>
          absurd (admits_iff.mp hadmits).1 (Nat.not_lt.mpr hfull)
        have hres := fine_reject h c k.ip .roomFull "room_full"
        exact ⟨hres.state, fun _ hadmits => absurd hadmits hnot, fun _ => hres.out⟩
      · next hroom =>
        split
        · next hname =>
          have hnot : S.admits L join ≠ true := fun hadmits => by
            rw [(admits_iff.mp hadmits).2] at hname
            cases hname
          have hres := fine_reject h c k.ip .duplicateNickname "duplicate_nickname"
          exact ⟨hres.state, fun _ hadmits => absurd hadmits hnot, fun _ => hres.out⟩
        · next hname =>
          have hadmits : S.admits L join = true :=
            admits_iff.mpr ⟨Nat.lt_of_not_le hroom, by simpa using hname⟩
          refine ⟨bounded_admitPeer h hcount hget hst hadmits hdraw.1, ?_⟩
          rw [tame_admitPeer hL h hcount hget hst hadmits hdraw]
          exact ⟨fun hfew _ => hfew, fun hfew => hfew hadmits⟩
    | joinFailed reason =>
      exact hfine ((fine_closeAndEnd h c).prepend (tame_one (o := .error reason) trivial))
    | _ => exact hfine (fine_still h)

/-- **Long lists are sent**: where the bodies that go out pass, the streams listed are few. -/
theorem fewStreams_of_sent (hL : Fits L) (h : Bounded L S) (hcount : Counted L S) {e : Event}
    (he : EventFits e) (hsent : ∀ d body, .send d body ∈ (react L S e).2 → BodySchema body) :
    FewStreams L S e := by
  cases e with
  | resume c draw =>
    unfold FewStreams
    dsimp only
    split
    · next join hjoin =>
      obtain ⟨k, hget, hstage⟩ := Option.map_eq_some_iff.mp hjoin
      intro hadmits
      obtain ⟨hroom, hname⟩ := admits_iff.mp hadmits
      have heq : react L S (.resume c draw) = S.admitPeer L c k.ip join draw := by
        simp only [react, SignalingServer.resume, hget, hstage, SignalingServer.admitConn,
          Nat.not_le.mpr hroom, hname, if_false, Bool.false_eq_true]
      rw [heq] at hsent
      refine (tame_admitPeer hL h hcount hget hstage hadmits he).mp fun o ho => ?_
      obtain ⟨d, body, rfl⟩ | ⟨p, nickname, rfl⟩ := mem_admitPeer ho
      · exact hsent d body ho
      · trivial
    · trivial
  | _ => trivial

/-! ### Timers and calls -/

theorem fine_timeout (h : Bounded L S) (c : ℕ) : Fine L (S.timeout c, []) := by
  unfold SignalingServer.timeout
  split
  · exact fine_still (h.setStage c rfl)
  · exact fine_still (h.setStage c rfl)
  · exact fine_still h

theorem fine_tick (h : Bounded L S) (p : String) {nonce : ℤ} (hnonce : Safe nonce) (now : ℚ) :
    Fine L (S.tick L p nonce now) := by
  have hlinks : ∀ links, Bounded L { S with links := links } :=
    fun links => ⟨h.conns, h.entries, h.room, h.probes⟩
  unfold SignalingServer.tick
  split
  · exact fine_still h
  · next link hlink =>
    split
    · exact fine_still h
    · next heartbeat hbeat =>
      dsimp only
      split
      · exact fine_still (hlinks _)
      · next nonce' htick =>
        have hsame : nonce' = nonce := by
          unfold Heartbeat.tick at htick
          split at htick
          · cases htick
          · split at htick
            · cases htick
              rfl
            · dsimp only at htick
              split at htick
              · cases htick
              · cases htick
                rfl
        have hbody : BodySchema (.ping nonce' now) := by
          rw [hsame]
          exact hnonce
        exact ⟨hlinks _, tame_send hbody⟩
      · exact fine_closeConn (hlinks _) _

theorem fine_probed (h : Bounded L S) {p : String} {endpoint : InboundEndpoint}
    (hprobe : (p, endpoint) ∈ S.probes) (reachable : Bool) :
    Fine L (S.probed p endpoint reachable) := by
  have hendpoint := h.probes p endpoint hprobe
  have hprobes : ∀ q endpoint', (q, endpoint') ∈ S.probes.erase (p, endpoint) →
      InboundEndpointSchema endpoint' :=
    fun q endpoint' hmem => h.probes q endpoint' (List.mem_of_mem_erase hmem)
  unfold SignalingServer.probed
  dsimp only
  split
  · next link entry hlink hentry =>
    have hold := h.entries p entry hentry
    have hnew : RosterEntrySchema { entry with
        inboundVerified := reachable
        inboundEndpoint := if reachable then some endpoint else none } := by
      refine ⟨hold.peerId, hold.nickname, hold.joinSeq, fun endpoint' hmem => ?_, hold.publishing⟩
      change endpoint' ∈ (if reachable then some endpoint else none) at hmem
      split at hmem
      · cases hmem
        exact hendpoint
      · cases hmem
    have hbody : BodySchema (.rosterUpdate [] [] [{ entry with
        inboundVerified := reachable
        inboundEndpoint := if reachable then some endpoint else none }]) :=
      ⟨few_nil, few_nil, few_singleton (by decide) hnew⟩
    refine ⟨⟨h.conns, ?_, ?_, hprobes⟩, tame_broadcast hbody⟩
    · exact InsertionMap.forall_get_set h.entries hnew
    · show (S.roster.entries.set p _).size ≤ _
      rw [InsertionMap.size_set_of_get hentry]
      exact h.room
  · exact fine_still ⟨h.conns, h.entries, h.room, hprobes⟩

theorem fine_mediaReply (h : Bounded L S) (p : String) {reply : Option Body}
    (hreply : ∀ body ∈ reply, BodySchema body) : Fine L (S.mediaReply p reply) := by
  refine ⟨⟨h.conns, h.entries, h.room, h.probes⟩, ?_⟩
  cases reply with
  | none => exact fun _ ho => by cases ho
  | some body => exact tame_sendTo (hreply body rfl)

theorem fine_closeLinks (bye : Bool) (links : List PeerLink) : ∀ {S : SignalingServer},
    Bounded L S → Fine L (closeLinks L bye links S) := by
  induction links with
  | nil => exact fun h => fine_still h
  | cons link rest ih =>
    intro S h
    have hbye : BodySchema (.bye "room_closing") := by decide
    have htold : ∀ o ∈ (if bye then S.send link.conn (.bye "room_closing") else []), Tame o := by
      intro o ho
      split at ho
      · exact tame_send hbye o ho
      · cases ho
    have hone := fine_closeConn h link.conn
    refine Fine.prepend (ih hone.state) fun o ho => ?_
    exact (List.mem_append.mp ho).elim (htold o) (hone.out o)

theorem fine_shutDown (h : Bounded L S) (bye : Bool) : Fine L (S.shutDown L bye) := by
  have hclosing : Bounded L { S with closing := true } := ⟨h.conns, h.entries, h.room, h.probes⟩
  have hlinks := fine_closeLinks bye S.links.values hclosing
  have hstate := hlinks.state
  exact ⟨⟨hstate.conns, hstate.entries, hstate.room, hstate.probes⟩, hlinks.out⟩

/-- A successor is somebody in the roster. -/
theorem mem_of_successor {roster : List RosterEntry} {p : String}
    (h : p ∈ successionOrder (electionEntriesFromRoster roster)) : ∃ e ∈ roster, e.peerId = p := by
  obtain ⟨candidate, hcandidate, rfl⟩ := List.mem_map.mp h
  have hmem := List.mem_of_mem_filter ((List.mem_insertionSort _).mp hcandidate)
  obtain ⟨e, he, rfl⟩ := List.mem_map.mp hmem
  exact ⟨e, he, rfl⟩

theorem fine_transferHost (hL : Fits L) (h : Bounded L S) (hcount : Counted L S) :
    Fine L (S.transferHost L) := by
  unfold SignalingServer.transferHost
  split
  · exact fine_shutDown h true
  · next successor rest horder =>
    have hsuccessor : successor ∈ successionOrder (electionEntriesFromRoster S.roster.snapshot) := by
      rw [horder]
      exact List.mem_cons_self
    obtain ⟨e, hmem, rfl⟩ := mem_of_successor hsuccessor
    have hentry := (few_snapshot hL h).2 e hmem
    have hepoch := hcount.epoch
    have hbody : BodySchema (.hostTransfer e.peerId (L.epoch + 1)) := ⟨hentry.peerId, hepoch⟩
    exact ⟨⟨h.conns, h.entries, h.room, h.probes⟩, tame_broadcast hbody⟩

theorem fine_dropAll (conns : List ℕ) : ∀ {S : SignalingServer}, Bounded L S →
    Fine L (dropAll L conns S) := by
  induction conns with
  | nil => exact fun h => fine_still h
  | cons c rest ih =>
    intro S h
    unfold dropAll
    dsimp only
    split
    · exact ih h
    · have hone := fine_dropConn h c
      exact Fine.prepend (ih hone.state) hone.out

theorem fine_sourceLost (h : Bounded L S) (reason : String) : Fine L (S.sourceLost L reason) := by
  have hgone : Bounded L { S with source := .gone } := ⟨h.conns, h.entries, h.room, h.probes⟩
  unfold SignalingServer.sourceLost
  dsimp only
  split
  · refine Fine.append (fine_dropAll S.conns.keys hgone) fun o ho => ?_
    split at ho
    · cases ho
    · rw [List.mem_singleton.mp ho]
      trivial
  · exact fine_still hgone

/-! ### Every event -/

/-- **What an event sends passes exactly if the streams it lists are few**, and the bounds are kept in
any case. -/
theorem tame_iff_fewStreams (hL : Fits L) (h : Bounded L S) (hcount : Counted L S) {e : Event}
    (henabled : Enabled L S e) (he : EventFits e) : Bounded L (react L S e).1 ∧
      ((∀ o ∈ (react L S e).2, Tame o) ↔ FewStreams L S e) := by
  have hfine : ∀ {res : SignalingServer × List Output}, Fine L res → Bounded L res.1 ∧
      ((∀ o ∈ res.2, Tame o) ↔ True) := fun hres => ⟨hres.state, iff_true_intro hres.out⟩
  cases e with
  | connection ip now => exact hfine (fine_handleConnection h he now)
  | deliver c frame => exact hfine (fine_onFrame h c he)
  | drop c => exact hfine (fine_dropConn h c)
  | timeout c => exact hfine (fine_timeout h c)
  | flush c => exact hfine (fine_flush h c)
  | resume c draw => exact resume_within hL h hcount he
  | tick p nonce now => exact hfine (fine_tick h p he now)
  | probed p endpoint reachable => exact hfine (fine_probed h henabled reachable)
  | mediaReply p reply => exact hfine (fine_mediaReply h p he)
  | sendTo p body => exact hfine ⟨h, tame_sendTo he⟩
  | broadcast body => exact hfine ⟨h, tame_broadcast he⟩
  | transferHost => exact hfine (fine_transferHost hL h hcount)
  | graceOver => exact hfine (fine_still ⟨h.conns, h.entries, h.room, h.probes⟩)
  | close => exact hfine (fine_shutDown h true)
  | crash => exact hfine (fine_shutDown h false)
  | sourceLost reason => exact hfine (fine_sourceLost h reason)

end ScreenSharing.Signaling
