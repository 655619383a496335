import ScreenSharing.Signaling.Links

/-!
# The slots of the handshakes

No more than `MAX_CONCURRENT_HANDSHAKES` handshakes run at a time: whoever comes when that many do is
turned away as busy.  The server counts them with `#activeHandshakes`, which goes up in
`#handleConnection` and down after an await, in a `finally`; a count that missed one end would keep a
slot for good, and the room would in time admit nobody.

`taken` counts the connections that are in their handshake.  Every function either leaves both
counts alone (`Spares`), or takes a slot, or frees one; so the two agree in every state that is reached
(`slots_accounted`), and a handshake that is left to its timer gives its slot back.
-/

namespace ScreenSharing.Signaling

open Lib SignalingServer

variable {L : Config} {S S' S₁ S₂ : SignalingServer} {c : ℕ} {k : Conn}

/-! ### Counting connections by their stage -/

/-- Between the two lines of `#handleConnection` that count a handshake in and out. -/
def Stage.shaking : Stage → Bool
  | .awaiting _ | .received _ | .failed _ => true
  | _ => false

/-- How far a stage is from the end of the handshake, if no message comes any more. -/
def Stage.toGo : Stage → ℕ
  | .received _ => 3
  | .awaiting _ => 2
  | .failed _ => 1
  | _ => 0

/-- The sum of a weight over the connections. -/
def tally (f : Stage → ℕ) (S : SignalingServer) : ℕ :=
  (S.conns.values.map fun k => f k.stage).sum

/-- How many connections are in their handshake. -/
def taken (S : SignalingServer) : ℕ := tally (fun st => st.shaking.toNat) S

/-- One connection changes. -/
theorem tally_set (f : Stage → ℕ) {k' : Conn} (hget : S.conns.get c = some k)
    (hconns : S'.conns = S.conns.set c k') :
    tally f S' + f k.stage = tally f S + f k'.stage := by
  unfold tally
  rw [hconns]
  exact InsertionMap.sum_values_set _ hget

theorem tally_fresh (f : Stage → ℕ) (h : Linked S) (k' : Conn)
    (hconns : S'.conns = S.conns.set S.nextConn k') : tally f S' = tally f S + f k'.stage := by
  have hfree : S.conns.get S.nextConn = none := by
    cases hget : S.conns.get S.nextConn with
    | none => rfl
    | some k => exact absurd (h.fresh _ k hget) (Nat.lt_irrefl _)
  unfold tally
  rw [hconns]
  exact InsertionMap.sum_values_set_free _ hfree

/-- As many as there are steps to go, or fewer. -/
theorem tally_toGo_le (S : SignalingServer) : tally Stage.toGo S ≤ 3 * taken S := by
  have hstage : ∀ st : Stage, st.toGo ≤ 3 * st.shaking.toNat := by
    intro st
    cases st <;> simp [Stage.toGo, Stage.shaking]
  have hsum : ∀ ks : List Conn, (ks.map fun k => k.stage.toGo).sum ≤
      3 * (ks.map fun k => k.stage.shaking.toNat).sum := by
    intro ks
    induction ks with
    | nil => exact Nat.le_refl _
    | cons k ks ih =>
      have hk := hstage k.stage
      simp only [List.map_cons, List.sum_cons]
      omega
  exact hsum S.conns.values

/-- A slot that is taken is taken by a connection. -/
theorem exists_shaking (h : taken S ≠ 0) :
    ∃ c k, S.conns.get c = some k ∧ k.stage.shaking = true := by
  obtain ⟨n, hn, hpos⟩ := List.sum_pos_iff_exists_pos_nat.mp (Nat.pos_of_ne_zero h)
  obtain ⟨k, hk, rfl⟩ := List.mem_map.mp hn
  obtain ⟨c, hget⟩ := (InsertionMap.mem_values _ _).mp hk
  refine ⟨c, k, hget, ?_⟩
  cases hst : k.stage.shaking with
  | true => rfl
  | false =>
    dsimp only at hpos
    rw [hst] at hpos
    exact absurd hpos (Nat.lt_irrefl 0)

/-! ### Functions that take no slot and free none -/

/-- Neither count changes. -/
structure Spares (S S' : SignalingServer) : Prop where
  active : S'.activeHandshakes = S.activeHandshakes
  taken : taken S' = taken S

theorem Spares.refl : Spares S S := ⟨rfl, rfl⟩

theorem Spares.trans (h : Spares S S₁) (h' : Spares S₁ S₂) : Spares S S₂ :=
  ⟨h'.active.trans h.active, h'.taken.trans h.taken⟩

/-- The connections are as they were. -/
theorem spares_of_conns (hconns : S'.conns = S.conns)
    (hactive : S'.activeHandshakes = S.activeHandshakes) : Spares S S' :=
  ⟨hactive, by unfold Signaling.taken tally; rw [hconns]⟩

theorem spares_set {k' : Conn} (hget : S.conns.get c = some k)
    (hstage : k'.stage.shaking = k.stage.shaking) :
    Spares S { S with conns := S.conns.set c k' } := by
  let S' : SignalingServer := { S with conns := S.conns.set c k' }
  have htally : taken S' + k.stage.shaking.toNat = taken S + k'.stage.shaking.toNat :=
    tally_set (fun st => st.shaking.toNat) hget rfl
  rw [hstage] at htally
  exact ⟨rfl, Nat.add_right_cancel htally⟩

theorem spares_modifyConn {f : Conn → Conn}
    (hstage : ∀ k, S.conns.get c = some k → (f k).stage.shaking = k.stage.shaking) :
    Spares S (S.modifyConn c f) := by
  cases hget : S.conns.get c with
  | none =>
    rw [modifyConn_none hget]
    exact .refl
  | some k =>
    rw [modifyConn_some hget]
    exact spares_set hget (hstage k hget)

theorem spares_onPeerGone (p : String) : Spares S (S.onPeerGone L p).1 := by
  by_cases hclosing : S.closing = true
  · rw [onPeerGone_closing hclosing]
    exact .refl
  · rw [onPeerGone_open (Bool.eq_false_iff.mpr hclosing)]
    exact spares_of_conns rfl rfl

/-- A close that ends a handshake leaves its slot to the continuation, which frees it. -/
theorem spares_dropConn (c : ℕ) : Spares S (S.dropConn L c).1 := by
  cases hget : S.conns.get c with
  | none =>
    rw [dropConn_none hget]
    exact .refl
  | some k =>
    rw [dropConn_eq hget]
    cases hst : k.stage with
    | awaiting type => exact spares_set hget (by rw [hst]; rfl)
    | joining => exact spares_set hget (by rw [hst]; rfl)
    | admitted p =>
      have hset : Spares S { S with conns := S.conns.set c k.shut } := spares_set hget rfl
      exact hset.trans (spares_onPeerGone p)
    | _ => exact spares_set hget rfl

theorem spares_closeConn (c : ℕ) : Spares S (S.closeConn L c).1 := by
  unfold SignalingServer.closeConn
  split
  · exact .refl
  · exact spares_dropConn c

theorem spares_onPeerMessage (p : String) (body : Body) : Spares S (S.onPeerMessage L p body).1 := by
  unfold SignalingServer.onPeerMessage
  split
  · exact .refl
  · next link hlink =>
    cases body with
    | ping => exact .refl
    | pong => exact spares_of_conns rfl rfl
    | bye =>
      have hreason : Spares S { S with links := S.links.set p { link with reason := .bye } } :=
        spares_of_conns rfl rfl
      exact hreason.trans (spares_closeConn _)
    | _ =>
      dsimp only
      split
      · exact spares_of_conns rfl rfl
      · exact .refl

/-- The listeners of a wait hand its message, or the failure, to the continuation. -/
theorem spares_emitItem (item : Item) (hget : S.conns.get c = some k) :
    Spares S (S.emitItem L c k.stage item).1 := by
  have hset : ∀ st : Stage, st.shaking = k.stage.shaking → Spares S (S.setStage c st) := by
    intro st hst
    refine spares_modifyConn fun k' hk' => ?_
    rw [hget] at hk'
    cases hk'
    exact hst
  cases hst : k.stage with
  | awaiting type =>
    cases item with
    | handshake msg =>
      refine hset _ ?_
      rw [hst]
      split <;> rfl
    | message body => exact .refl
  | joining =>
    cases item with
    | handshake msg => exact .refl
    | message body =>
      cases body with
      | join join =>
        refine hset _ ?_
        rw [hst]
        rfl
      | _ =>
        refine hset _ ?_
        rw [hst]
        rfl
  | admitted p =>
    cases item with
    | handshake msg => exact .refl
    | message body => exact spares_onPeerMessage p body
  | _ => exact .refl

theorem spares_deliverItem (c : ℕ) (item : Item) : Spares S (S.deliverItem L c item).1 := by
  unfold SignalingServer.deliverItem
  split
  · exact .refl
  · next k hget =>
    split
    · exact spares_emitItem item hget
    · exact spares_modifyConn fun _ _ => rfl

theorem spares_deliverItems (c : ℕ) (items : List Item) : ∀ {S : SignalingServer},
    Spares S (deliverItems L c items S).1 := by
  induction items with
  | nil => exact .refl
  | cons item rest ih => exact (spares_deliverItem c item).trans ih

theorem spares_flush (c : ℕ) : Spares S (S.flush L c).1 := by
  have htaken : Spares S
      (S.modifyConn c fun k => { k with inbox := [], flushQueued := false }) :=
    spares_modifyConn fun _ _ => rfl
  exact htaken.trans (spares_deliverItems c _)

theorem spares_fail (c : ℕ) (message : String) : Spares S (S.fail L c message).1 := by
  unfold SignalingServer.fail
  split
  · next type hstage =>
    obtain ⟨k, hget, hk⟩ := Option.map_eq_some_iff.mp hstage
    have hset : Spares S (S.setStage c (.failed "bad_message")) := by
      refine spares_modifyConn fun k' hk' => ?_
      rw [hget] at hk'
      cases hk'
      rw [hk]
      rfl
    exact hset.trans (spares_closeConn c)
  · exact .refl

theorem spares_onFrame (c : ℕ) (frame : Frame) : Spares S (S.onFrame L c frame).1 := by
  unfold SignalingServer.onFrame
  split
  · exact .refl
  · split
    · exact spares_fail c _
    · exact spares_fail c _
    · exact spares_deliverItem c _
    · split
      · exact spares_modifyConn fun _ _ => rfl
      · exact spares_fail c _
    · exact spares_fail c _
    · exact spares_deliverItem c _

theorem spares_tick (p : String) (nonce : ℤ) (now : ℚ) : Spares S (S.tick L p nonce now).1 := by
  unfold SignalingServer.tick
  split
  · exact .refl
  · next link hlink =>
    split
    · exact .refl
    · dsimp only
      split
      · exact spares_of_conns rfl rfl
      · exact spares_of_conns rfl rfl
      · refine Spares.trans (spares_of_conns ?_ ?_) (spares_closeConn _) <;> rfl

theorem spares_probed (p : String) (endpoint : InboundEndpoint) (reachable : Bool) :
    Spares S (S.probed p endpoint reachable).1 := by
  unfold SignalingServer.probed
  dsimp only
  split <;> exact spares_of_conns rfl rfl

theorem spares_closeLinks (bye : Bool) (links : List PeerLink) : ∀ {S : SignalingServer},
    Spares S (closeLinks L bye links S).1 := by
  induction links with
  | nil => exact .refl
  | cons link rest ih => exact (spares_closeConn link.conn).trans ih

theorem spares_shutDown (bye : Bool) : Spares S (S.shutDown L bye).1 := by
  have hclosing : Spares S { S with closing := true } := spares_of_conns rfl rfl
  have hlinks : Spares S (closeLinks L bye S.links.values { S with closing := true }).1 :=
    hclosing.trans (spares_closeLinks bye _)
  exact hlinks.trans (spares_of_conns rfl rfl)

theorem spares_transferHost : Spares S (S.transferHost L).1 := by
  unfold SignalingServer.transferHost
  split
  · exact spares_shutDown true
  · exact spares_of_conns rfl rfl

theorem spares_dropAll (cs : List ℕ) : ∀ {S : SignalingServer}, Spares S (dropAll L cs S).1 := by
  induction cs with
  | nil => exact .refl
  | cons c rest ih =>
    intro S
    have hfirst : Spares S (if ((S.conns.get c).map Conn.closed).getD true then (S, [])
        else S.dropConn L c).1 := by
      split
      · exact .refl
      · exact spares_dropConn c
    exact hfirst.trans ih

theorem spares_sourceLost (reason : String) : Spares S (S.sourceLost L reason).1 := by
  have hgone : Spares S { S with source := .gone } := spares_of_conns rfl rfl
  unfold SignalingServer.sourceLost
  dsimp only
  split
  · exact hgone.trans (spares_dropAll _)
  · exact hgone

/-! ### The continuation of a handshake -/

/-- A handshake goes on with a wait, or gives its slot back; nothing else in the counts changes. -/
structure Proceeds (S S' : SignalingServer) : Prop where
  counts : S'.activeHandshakes = S.activeHandshakes ∧ taken S' = taken S ∨
    S'.activeHandshakes = S.activeHandshakes - 1 ∧ taken S' + 1 = taken S
  toGo : tally Stage.toGo S' < tally Stage.toGo S

/-- The connection goes on waiting. -/
theorem proceeds_wait {k' : Conn} (hget : S.conns.get c = some k) (hconns : S'.conns = S.conns.set c k')
    (hactive : S'.activeHandshakes = S.activeHandshakes)
    (hshaking : k'.stage.shaking = k.stage.shaking) (hless : k'.stage.toGo < k.stage.toGo) :
    Proceeds S S' := by
  have hslots := tally_set (fun st => st.shaking.toNat) hget hconns
  have hsteps := tally_set Stage.toGo hget hconns
  rw [hshaking] at hslots
  refine ⟨.inl ⟨hactive, Nat.add_right_cancel hslots⟩, ?_⟩
  omega

/-- The connection is done with the handshake. -/
theorem proceeds_done {k' : Conn} (hget : S.conns.get c = some k) (hconns : S'.conns = S.conns.set c k')
    (hactive : S'.activeHandshakes = S.activeHandshakes - 1) (hshaking : k.stage.shaking = true)
    (hdone : k'.stage.shaking = false) : Proceeds S S' := by
  have hslots := tally_set (fun st => st.shaking.toNat) hget hconns
  have hsteps := tally_set Stage.toGo hget hconns
  have hzero : k'.stage.toGo = 0 := by
    cases hst : k'.stage with
    | awaiting type => rw [hst] at hdone; cases hdone
    | received msg => rw [hst] at hdone; cases hdone
    | failed reason => rw [hst] at hdone; cases hdone
    | _ => rfl
  have hpos : 0 < k.stage.toGo := by
    cases hst : k.stage with
    | awaiting type => exact Nat.succ_pos _
    | received msg => exact Nat.succ_pos _
    | failed reason => exact Nat.succ_pos _
    | _ => rw [hst] at hshaking; cases hshaking
  rw [hshaking, hdone] at hslots
  exact ⟨.inr ⟨hactive, hslots⟩, by omega⟩

theorem proceeds_handshakeFailed (ip reason : String) (hget : S.conns.get c = some k)
    (hdeaf : k.stage.hearsClose = false) (hshaking : k.stage.shaking = true) :
    Proceeds S (S.handshakeFailed L c ip reason).1 := by
  obtain ⟨k', hclose, hstage, -⟩ := closeConn_deaf (L := L) hget hdeaf
  have hset : (S.closeConn L c).1.setStage c .ended =
      { S with conns := S.conns.set c { k' with stage := .ended } } := by
    rw [hclose]
    unfold SignalingServer.setStage
    rw [modifyConn_some (InsertionMap.get_set_self _ _ _), InsertionMap.set_set]
  have hfailed : (S.handshakeFailed L c ip reason).1 =
      { S with
        conns := S.conns.set c { k' with stage := .ended }
        activeHandshakes := S.activeHandshakes - 1 } := by
    unfold SignalingServer.handshakeFailed
    dsimp only
    rw [hset, hclose]
  rw [hfailed]
  exact proceeds_done hget rfl rfl hshaking rfl

/-- The bookkeeping of a connection comes first. -/
theorem Proceeds.after (k' : Conn) (hget : S.conns.get c = some k) (hstage : k'.stage = k.stage)
    (h : Proceeds { S with conns := S.conns.set c k' } S₂) : Proceeds S S₂ := by
  have htally : ∀ f, tally f { S with conns := S.conns.set c k' } = tally f S := by
    intro f
    have hset : tally f { S with conns := S.conns.set c k' } + f k.stage = tally f S + f k'.stage :=
      tally_set f hget rfl
    rw [hstage] at hset
    exact Nat.add_right_cancel hset
  have htaken : taken { S with conns := S.conns.set c k' } = taken S := htally _
  have hcounts := h.counts
  rw [htaken] at hcounts
  exact ⟨hcounts, htally Stage.toGo ▸ h.toGo⟩

theorem proceeds_upgrade (hget : S.conns.get c = some k) (hdeaf : k.stage.hearsClose = false)
    (hshaking : k.stage.shaking = true) : Proceeds S (S.upgrade L c k).1 := by
  unfold SignalingServer.upgrade
  generalize replay k.pendingBinary k.inbox = res
  obtain ⟨inbox, ok⟩ := res
  let k' : Conn := { k with encrypted := true, pendingBinary := [], inbox := inbox }
  have hmod : S.modifyConn c (fun k => { k with encrypted := true, pendingBinary := [], inbox := inbox }) =
      { S with conns := S.conns.set c k' } := modifyConn_some hget
  have hget' : (S.conns.set c k').get c = some k' := InsertionMap.get_set_self _ _ _
  dsimp only
  rw [hmod]
  split
  · refine Proceeds.after k' hget rfl ?_
    unfold SignalingServer.listen
    rw [modifyConn_some hget']
    exact proceeds_done hget' rfl rfl hshaking rfl
  · exact Proceeds.after k' hget rfl (proceeds_handshakeFailed k.ip _ hget' hdeaf hshaking)

/-- A message that was waited for. -/
theorem proceeds_onReceived (msg : HandshakeMessage) (hget : S.conns.get c = some k)
    (hstage : k.stage = .received msg) : Proceeds S (S.onReceived L c k msg).1 := by
  have hdeaf : k.stage.hearsClose = false := by rw [hstage]; rfl
  have hshaking : k.stage.shaking = true := by rw [hstage]; rfl
  have hfails : ∀ reason, Proceeds S (S.handshakeFailed L c k.ip reason).1 := fun reason =>
    proceeds_handshakeFailed k.ip reason hget hdeaf hshaking
  have hwaits : ∀ type, Proceeds S (S.listen c (.awaiting type)) := by
    intro type
    unfold SignalingServer.listen
    rw [modifyConn_some hget]
    exact proceeds_wait hget rfl rfl (by rw [hstage]; rfl) (by rw [hstage]; exact Nat.lt_succ_self 2)
  cases msg with
  | hello protoVersion roomId =>
    simp only [SignalingServer.onReceived]
    split
    · exact hfails "version_mismatch"
    · split
      · exact hfails "room_id_mismatch"
      · exact hwaits .pakePeer
  | pakePeer usable =>
    simp only [SignalingServer.onReceived]
    split
    · exact hwaits _
    · exact hfails _
  | pakeConfirm verifies =>
    simp only [SignalingServer.onReceived]
    split
    · exact proceeds_upgrade hget hdeaf hshaking
    · exact hfails _
  | other => exact hfails _

/-- **A continuation**: that of a handshake goes on or gives its slot back, any other leaves both counts
alone. -/
theorem proceeds_resume (draw : Draw) (hget : S.conns.get c = some k)
    (hshaking : k.stage.shaking = true) (hqueued : k.stage.queued = true) :
    Proceeds S (S.resume L c draw).1 := by
  unfold SignalingServer.resume
  rw [hget]
  dsimp only
  cases hst : k.stage with
  | received msg => exact proceeds_onReceived msg hget hst
  | failed reason =>
    exact proceeds_handshakeFailed k.ip reason hget (by rw [hst]; rfl) hshaking
  | awaiting type =>
    rw [hst] at hqueued
    cases hqueued
  | _ =>
    rw [hst] at hshaking
    cases hshaking

/-- A connection that is done with its handshake, closed and ended. -/
theorem spares_closeAndEnd (hget : S.conns.get c = some k) (hdeaf : k.stage.hearsClose = false)
    (hdone : k.stage.shaking = false) : Spares S ((S.closeConn L c).1.setStage c .ended) := by
  obtain ⟨k', hclose, hstage, -⟩ := closeConn_deaf (L := L) hget hdeaf
  refine (spares_closeConn c).trans (spares_modifyConn fun k₁ hk₁ => ?_)
  rw [hclose] at hk₁
  have hsame : k₁ = k' := Option.some.inj (hk₁.symm.trans (InsertionMap.get_set_self _ _ _))
  rw [hsame, hstage, hdone]
  rfl

/-- The join of a connection that is done with its handshake. -/
theorem spares_admitConn (ip : String) (join : Join) (draw : Draw) (hget : S.conns.get c = some k)
    (hstage : k.stage = .joinReceived join) : Spares S (S.admitConn L c ip join draw).1 := by
  have hend : Spares S ((S.closeConn L c).1.setStage c .ended) :=
    spares_closeAndEnd hget (by rw [hstage]; rfl) (by rw [hstage]; rfl)
  unfold SignalingServer.admitConn
  split
  · exact hend
  · split
    · exact hend
    · have hconns : (S.admitPeer L c ip join draw).1.conns =
          S.conns.set c { k with stage := .admitted draw.peerId, flushQueued := true } :=
        (admitPeer_fields join draw hget).1
      have hactive : (S.admitPeer L c ip join draw).1.activeHandshakes = S.activeHandshakes := by
        unfold SignalingServer.admitPeer
        dsimp only
        rw [listen_admitted _ _ _ hget]
      have htally := tally_set (fun st => st.shaking.toNat) hget hconns
      rw [hstage] at htally
      exact ⟨hactive, Nat.add_right_cancel htally⟩

theorem spares_resume (draw : Draw) (hget : S.conns.get c = some k)
    (hdone : k.stage.shaking = false) : Spares S (S.resume L c draw).1 := by
  unfold SignalingServer.resume
  rw [hget]
  dsimp only
  cases hst : k.stage with
  | received msg =>
    rw [hst] at hdone
    cases hdone
  | failed reason =>
    rw [hst] at hdone
    cases hdone
  | joinReceived join => exact spares_admitConn k.ip join draw hget hst
  | joinFailed reason => exact spares_closeAndEnd hget (by rw [hst]; rfl) hdone
  | _ => exact .refl

/-- The timer of a handshake ends its wait. -/
theorem proceeds_timeout (hget : S.conns.get c = some k) (hshaking : k.stage.shaking = true)
    (hwaits : k.stage.waits = true) : Proceeds S (S.timeout c) := by
  unfold SignalingServer.timeout
  rw [hget, Option.map_some]
  cases hst : k.stage with
  | awaiting type =>
    dsimp only
    unfold SignalingServer.setStage
    rw [modifyConn_some hget]
    exact proceeds_wait hget rfl rfl (by rw [hst]; rfl) (by rw [hst]; exact Nat.lt_succ_self 1)
  | joining =>
    rw [hst] at hshaking
    cases hshaking
  | _ =>
    rw [hst] at hwaits
    cases hwaits

theorem spares_timeout (hget : S.conns.get c = some k) : Spares S (S.timeout c) := by
  have hset : ∀ st : Stage, st.shaking = k.stage.shaking → Spares S (S.setStage c st) := by
    intro st hst
    refine spares_modifyConn fun k' hk' => ?_
    rw [hget] at hk'
    cases hk'
    exact hst
  unfold SignalingServer.timeout
  rw [hget, Option.map_some]
  cases hst : k.stage with
  | awaiting type => exact hset _ (by rw [hst]; rfl)
  | joining => exact hset _ (by rw [hst]; rfl)
  | _ => exact .refl

/-! ### Every reachable state -/

/-- **The count is right**, and within its limit. -/
structure Slotted (S : SignalingServer) : Prop where
  counted : S.activeHandshakes = taken S
  bounded : taken S ≤ maxConcurrentHandshakes

theorem slotted_new : Slotted (.new L) := ⟨rfl, Nat.zero_le _⟩

theorem Slotted.spares (h : Slotted S) (hspares : Spares S S') : Slotted S' :=
  ⟨by rw [hspares.active, hspares.taken, h.counted], by rw [hspares.taken]; exact h.bounded⟩

theorem Slotted.proceeds (h : Slotted S) (hproceeds : Proceeds S S') : Slotted S' := by
  have hcounted := h.counted
  have hbounded := h.bounded
  obtain ⟨hactive, htaken⟩ | ⟨hactive, htaken⟩ := hproceeds.counts
  · exact ⟨by omega, by omega⟩
  · exact ⟨by omega, by omega⟩

/-- A new connection takes a slot, if it is not refused. -/
theorem Slotted.handleConnection (h : Slotted S) (hlinked : Linked S) (ip : String) (now : ℕ) :
    Slotted (S.handleConnection ip now).1 := by
  have hrefuse : ∀ (limiter : RateLimiter) (reason : String),
      Slotted (({ S with rateLimiter := limiter } : SignalingServer).refuse ip reason).1 := by
    intro limiter reason
    refine h.spares ⟨rfl, ?_⟩
    exact tally_fresh (fun st => st.shaking.toNat) hlinked
      ⟨ip, true, false, [], [], false, .refused reason⟩ rfl
  unfold SignalingServer.handleConnection
  split
  · exact hrefuse S.rateLimiter _
  · dsimp only
    split
    · exact hrefuse _ _
    · split
      · exact hrefuse _ _
      · next hfree =>
        have hcounted := h.counted
        let S' : SignalingServer := { S with
          rateLimiter := (S.rateLimiter.take now ip).1
          conns := S.conns.set S.nextConn ⟨ip, false, false, [], [], true, .awaiting .hello⟩
          nextConn := S.nextConn + 1
          activeHandshakes := S.activeHandshakes + 1 }
        have htaken : taken S' = taken S + 1 :=
          tally_fresh (fun st => st.shaking.toNat) hlinked
            ⟨ip, false, false, [], [], true, .awaiting .hello⟩ rfl
        have hactive : S'.activeHandshakes = S.activeHandshakes + 1 := rfl
        have hslotted : Slotted S' := ⟨by omega, by omega⟩
        exact hslotted

/-- **One step.** -/
theorem slotted_next {e : Event} (h : Slotted S) (hlinked : Linked S) (henabled : Enabled L S e) :
    Slotted ((server L).next S e) := by
  cases e with
  | connection ip now => exact h.handleConnection hlinked ip now
  | deliver c frame => exact h.spares (spares_onFrame c frame)
  | drop c => exact h.spares (spares_dropConn c)
  | timeout c =>
    obtain ⟨k, hget, -⟩ := connIs_iff.mp henabled
    exact h.spares (spares_timeout hget)
  | flush c => exact h.spares (spares_flush c)
  | resume c draw =>
    obtain ⟨k, hget, hqueued⟩ := connIs_iff.mp henabled
    cases hst : k.stage.shaking with
    | true => exact h.proceeds (proceeds_resume draw hget hst hqueued)
    | false => exact h.spares (spares_resume draw hget hst)
  | tick p nonce now => exact h.spares (spares_tick p nonce now)
  | probed p endpoint reachable => exact h.spares (spares_probed p endpoint reachable)
  | mediaReply p reply => exact h.spares (spares_of_conns rfl rfl)
  | sendTo p body => exact h
  | broadcast body => exact h
  | transferHost => exact h.spares spares_transferHost
  | graceOver => exact h.spares (spares_of_conns rfl rfl)
  | close => exact h.spares (spares_shutDown true)
  | crash => exact h.spares (spares_shutDown false)
  | sourceLost reason => exact h.spares (spares_sourceLost reason)

/-- **A run.** -/
theorem slotted_exec {es : List Event} (hvalid : (server L).Valid S es) (hlinked : Linked S)
    (h : Slotted S) : Linked ((server L).exec S es) ∧ Slotted ((server L).exec S es) :=
  Machine.exec_invariant (I := fun S => Linked S ∧ Slotted S)
    (fun _ _ hI henabled => ⟨linked_next henabled hI.1, slotted_next hI.2 hI.1 henabled⟩)
    hvalid ⟨hlinked, h⟩

/-- Is it up to a handshake alone: the timer of its wait, or its continuation? -/
def OfHandshake (S : SignalingServer) : Event → Prop
  | .timeout c | .resume c _ => ConnIs S c fun k => k.stage.shaking
  | _ => False

/-- A handshake that is left alone comes nearer to its end. -/
theorem proceeds_own {e : Event} (henabled : Enabled L S e) (hown : OfHandshake S e) :
    Proceeds S ((server L).next S e) := by
  cases e with
  | timeout c =>
    obtain ⟨k, hget, hwaits⟩ := connIs_iff.mp henabled
    obtain ⟨k', hget', hshaking⟩ := connIs_iff.mp hown
    rw [hget] at hget'
    cases hget'
    exact proceeds_timeout hget hshaking hwaits
  | resume c draw =>
    obtain ⟨k, hget, hqueued⟩ := connIs_iff.mp henabled
    obtain ⟨k', hget', hshaking⟩ := connIs_iff.mp hown
    rw [hget] at hget'
    cases hget'
    exact proceeds_resume draw hget hshaking hqueued
  | _ => exact absurd hown id

/-- A slot that is taken can be worked on. -/
theorem exists_own (h : taken S ≠ 0) : ∃ e, Enabled L S e ∧ OfHandshake S e := by
  obtain ⟨c, k, hget, hshaking⟩ := exists_shaking h
  have hown : ConnIs S c fun k => k.stage.shaking := connIs_iff.mpr ⟨k, hget, hshaking⟩
  cases hst : k.stage with
  | awaiting type => exact ⟨.timeout c, connIs_iff.mpr ⟨k, hget, by rw [hst]; rfl⟩, hown⟩
  | received msg =>
    exact ⟨.resume c ⟨"", 0, 0, []⟩, connIs_iff.mpr ⟨k, hget, by rw [hst]; rfl⟩, hown⟩
  | failed reason =>
    exact ⟨.resume c ⟨"", 0, 0, []⟩, connIs_iff.mpr ⟨k, hget, by rw [hst]; rfl⟩, hown⟩
  | _ =>
    rw [hst] at hshaking
    cases hshaking

/-- The server turns a new connection away because too many handshakes are under way. -/
def TurnedAway (L : Config) (S : SignalingServer) (ip : String) (now : ℕ) : Prop :=
  .peerRejected ip "too_many_handshakes" ∈ (server L).out S (.connection ip now)

theorem turnedAway_iff (ip : String) (now : ℕ) :
    TurnedAway L S ip now ↔ S.closing = false ∧ (S.rateLimiter.take now ip).2 = none ∧
      maxConcurrentHandshakes ≤ S.activeHandshakes := by
  have hrefuse : ∀ (S : SignalingServer) (reason : String),
      Output.peerRejected ip "too_many_handshakes" ∉ (S.refuse ip reason).2 := by
    intro S reason hmem
    unfold SignalingServer.refuse at hmem
    dsimp only at hmem
    split at hmem
    · simp at hmem
    · cases hmem
  show .peerRejected ip "too_many_handshakes" ∈ (S.handleConnection ip now).2 ↔ _
  unfold SignalingServer.handleConnection
  split
  · next hclosing => exact ⟨fun hmem => absurd hmem (hrefuse S _), fun h => by simp [hclosing] at h⟩
  · next hopen =>
    have hclosing : S.closing = false := Bool.eq_false_iff.mpr hopen
    dsimp only
    split
    · next hwait =>
      refine ⟨fun hmem => ?_, fun h => by simp [h.2.1] at hwait⟩
      obtain hmem | hmem := List.mem_append.mp hmem
      · exact absurd hmem (hrefuse _ _)
      · simp at hmem
    · next hwait =>
      have hnone : (S.rateLimiter.take now ip).2 = none := by simpa using hwait
      split
      · next hbusy => exact ⟨fun _ => ⟨hclosing, hnone, hbusy⟩, fun _ => List.mem_append_right _ (by simp)⟩
      · next hfree => exact ⟨fun hmem => absurd hmem List.not_mem_nil, fun h => absurd h.2.2 hfree⟩

/-- **What the slots are worth**: `#activeHandshakes` is the number of handshakes under way, and at most
three; a new connection is turned away as busy exactly when there are three; and handshakes of which
nothing more is heard are over after their timers, in whatever order they run out. -/
structure Accounted (L : Config) (S : SignalingServer) : Prop where
  counted : S.activeHandshakes = taken S
  bounded : taken S ≤ maxConcurrentHandshakes
  turnedAway : ∀ ip now, TurnedAway L S ip now ↔
    S.closing = false ∧ (S.rateLimiter.take now ip).2 = none ∧ taken S = maxConcurrentHandshakes
  givenBack : ∀ es, (server L).Along (fun S e => Enabled L S e ∧ OfHandshake S e) S es →
    es.length ≤ 3 * taken S ∧
      (taken ((server L).exec S es) = 0 ∨ ∃ e, Enabled L ((server L).exec S es) e ∧
        OfHandshake ((server L).exec S es) e)

/-- **No slot is lost**, in any state that is reached. -/
theorem slots_accounted (L : Config) (es : List Event) (hvalid : (server L).Valid (.new L) es) :
    Accounted L ((server L).exec (.new L) es) := by
  obtain ⟨-, hslotted⟩ := slotted_exec hvalid linked_new slotted_new
  refine ⟨hslotted.counted, hslotted.bounded, fun ip now => ?_, fun later hlater => ⟨?_, ?_⟩⟩
  · rw [turnedAway_iff, hslotted.counted]
    have hbounded := hslotted.bounded
    exact and_congr_right fun _ => and_congr_right fun _ => ⟨fun h => by omega, fun h => by omega⟩
  · have hlength : later.length + tally Stage.toGo
        ((server L).exec ((server L).exec (.new L) es) later) ≤
          tally Stage.toGo ((server L).exec (.new L) es) :=
      Machine.length_add_rank_le (I := fun _ => True) (fun _ _ _ _ => trivial)
        (fun _ _ _ hown => (proceeds_own hown.1 hown.2).toGo) hlater trivial
    have hrank := tally_toGo_le ((server L).exec (.new L) es)
    omega
  · by_cases hzero : taken ((server L).exec ((server L).exec (.new L) es) later) = 0
    · exact .inl hzero
    · exact .inr (exists_own hzero)

/-- Three peers begin a handshake and say nothing more; a fourth is turned away. -/
def threeSilent : List Event :=
  [.connection "10.0.0.1" 0, .connection "10.0.0.2" 0, .connection "10.0.0.3" 0]

theorem slots_accounted_three :
    Accounted smallRoom ((server smallRoom).exec (.new smallRoom) threeSilent) ∧
      TurnedAway smallRoom ((server smallRoom).exec (.new smallRoom) threeSilent) "10.0.0.4" 1 :=
  ⟨slots_accounted smallRoom threeSilent (by decide +kernel),
    (turnedAway_iff _ _).mpr (by decide +kernel)⟩

end ScreenSharing.Signaling
