import Mathlib.Data.List.Basic
import ScreenSharing.Lib.InsertionMap
import ScreenSharing.Renderer.Publication

/-!
# What the renderer watches

The subscribing half of `useMedia`, and the hook as a whole: the connections on which streams come in, the
owners whose streams the user wants to watch, and the two effects that run when the session shows another list
of streams or another epoch.  A connection is made as a placeholder when a stream is asked for, and once more
when the offer for it comes; the second one is negotiated, which takes several `await`s.

Connections are numbered in the order in which they are made.  A commit of React hands over the list of
streams if it is another one than before.
-/

namespace ScreenSharing.Renderer

open Lib

/-- How far the negotiation of a connection is. -/
inductive PcStage
  | placeholder
  | answering
  | settled
  deriving DecidableEq

/-- An `RTCPeerConnection` that was made to receive a stream. -/
structure SubPc where
  streamId : String
  stage : PcStage
  closed : Bool
  deriving DecidableEq

/-- The state and the refs of `useMedia` that belong to what is watched. -/
structure Watch where
  pcs : List SubPc
  subPcs : InsertionMap String ℕ
  /-- the owners in the order in which they were added -/
  wantedOwners : List String
  /-- the inbound streams, by their connections -/
  remote : InsertionMap String ℕ
  streams : List StreamInfo
  epoch : ℕ
  mounted : Bool

/-- `streams.find((s) => s.streamId === streamId)?.ownerPeerId`. -/
def ownerOf (streams : List StreamInfo) (streamId : String) : Option String :=
  (streams.find? fun s => s.streamId = streamId).map StreamInfo.ownerPeerId

/-- `byOwner.get(owner)`: a later stream of an owner takes the place of an earlier one. -/
def byOwner (streams : List StreamInfo) (owner : String) : Option String :=
  (streams.reverse.find? fun s => s.ownerPeerId = owner).map StreamInfo.streamId

namespace Watch

/-- A new connection takes its place in the table. -/
def make (streamId : String) (stage : PcStage) (W : Watch) : Watch :=
  { W with
    pcs := W.pcs ++ [⟨streamId, stage, false⟩]
    subPcs := W.subPcs.set streamId W.pcs.length }

/-- `pc.close()`. -/
def shut (k : ℕ) (W : Watch) : Watch :=
  { W with pcs := W.pcs.modify k fun pc => { pc with closed := true } }

/-- `subPcs.current.get(streamId)?.close()`. -/
def closeSub (streamId : String) (W : Watch) : Watch :=
  match W.subPcs.get streamId with
  | none => W
  | some k => W.shut k

def deleteSub (streamId : String) (W : Watch) : Watch := { W with subPcs := W.subPcs.delete streamId }

def setRemoteStream (streamId : String) (stream : Option ℕ) (W : Watch) : Watch :=
  match stream with
  | some k => { W with remote := W.remote.set streamId k }
  | none => { W with remote := W.remote.delete streamId }

def teardownSub (streamId : String) (W : Watch) : Watch :=
  ((W.closeSub streamId).deleteSub streamId).setRemoteStream streamId none

def startSub (streamId : String) (W : Watch) : Watch × List Body :=
  if W.subPcs.has streamId then (W, []) else (W.make streamId .placeholder, [.subscribe streamId])

/-- The owner of a stream; an empty id passes for none. -/
def owner (streamId : String) (W : Watch) : Option String :=
  (ownerOf W.streams streamId).filter fun owner => owner ≠ ""

/-- `wantedOwners.current.add(owner)`. -/
def want (streamId : String) (W : Watch) : Watch :=
  match W.owner streamId with
  | some owner => if owner ∈ W.wantedOwners then W else { W with wantedOwners := W.wantedOwners ++ [owner] }
  | none => W

/-- `wantedOwners.current.delete(owner)`. -/
def unwant (streamId : String) (W : Watch) : Watch :=
  match W.owner streamId with
  | some owner => { W with wantedOwners := W.wantedOwners.filter fun o => o ≠ owner }
  | none => W

def subscribe (streamId : String) (W : Watch) : Watch × List Body := (W.want streamId).startSub streamId

def unsubscribe (streamId : String) (W : Watch) : Watch × List Body :=
  ((W.unwant streamId).teardownSub streamId, [.unsubscribe streamId])

/-- The `subscribe_offer` case of `handleMediaBody`, until its first `await`. -/
def subscribeOffer (streamId : String) (W : Watch) : Watch :=
  (W.closeSub streamId).make streamId .answering

/-- The negotiation of a connection is over. -/
def settle (k : ℕ) (W : Watch) : Watch :=
  { W with pcs := W.pcs.modify k fun pc => { pc with stage := .settled } }

/-- The rest of the `subscribe_offer` case, with the answer or with an error. -/
def negotiated (k : ℕ) (answer : Option String) (W : Watch) : Watch × List Body :=
  match W.pcs[k]? with
  | none => (W, [])
  | some pc =>
    match answer with
    | some sdp => (W.settle k, [.subscribeAnswer pc.streamId sdp])
    | none => (((W.settle k).shut k).deleteSub pc.streamId, [])

/-- The listener of the event `track`. -/
def track (k : ℕ) (W : Watch) : Watch :=
  match W.pcs[k]? with
  | none => W
  | some pc => W.setRemoteStream pc.streamId (some k)

/-- One turn of the loop over `wantedOwners`. -/
def followOwner (streams : List StreamInfo) (owner : String) (W : Watch) : Watch × List Body :=
  match (byOwner streams owner).filter fun streamId => streamId ≠ "" with
  | none => (W, [])
  | some streamId =>
    if W.subPcs.keys.any fun id => ownerOf streams id = some owner then (W, []) else W.startSub streamId

def followOwners (streams : List StreamInfo) : List String → Watch → Watch × List Body
  | [], W => (W, [])
  | owner :: owners, W =>
    let r := W.followOwner streams owner
    let r' := followOwners streams owners r.1
    (r'.1, r.2 ++ r'.2)

def teardownSubs (ids : List String) (W : Watch) : Watch := ids.foldl (fun W id => W.teardownSub id) W

/-- The effect that reconciles the subscriptions with another list of streams. -/
def reconcile (streams : List StreamInfo) (W : Watch) : Watch × List Body :=
  let W := { W with streams := streams }
  let W := W.teardownSubs (W.subPcs.keys.filter fun id => id ∉ streams.map StreamInfo.streamId)
  followOwners streams W.wantedOwners W

/-- That effect runs if the list is another one. -/
def restream (streams : Option (List StreamInfo)) (W : Watch) : Watch × List Body :=
  match streams with
  | none => (W, [])
  | some streams => W.reconcile streams

/-- What the effect for another epoch does to the subscriptions. -/
def leaveEpoch (epoch : ℕ) (W : Watch) : Watch :=
  { W.teardownSubs W.subPcs.keys with epoch := epoch }

/-- The effect that runs when the component goes away. -/
def unmount (W : Watch) : Watch :=
  { W.subPcs.values.foldl (fun W k => W.shut k) W with subPcs := .empty, mounted := false }

end Watch

/-- What the effect for another epoch does to the publication; nothing is told to the host. -/
def Engine.leaveEpoch (stillLive : Bool) (streamId : String) (E : Engine) : Engine × List Body :=
  let E' := { E with publishPc := none, localId := none, publishIdle := false }
  match E.publishStream with
  | none => (E', [])
  | some stream => if stillLive then E'.publish stream streamId else (E', [])

/-- `useMedia`. -/
structure Media where
  engine : Engine
  watch : Watch

inductive MediaEvent
  /-- an event of the publication -/
  | publication (e : Event)
  | subscribe (streamId : String)
  | unsubscribe (streamId : String)
  | subscribeOffer (streamId sdp : String)
  | mediaError (streamId reason : String)
  | streamState (stream : StreamInfo) (state : StreamState)
  /-- the negotiation of a connection ends, with the SDP of its answer or with an error -/
  | negotiated (pc : ℕ) (answer : Option String)
  | track (pc : ℕ)
  /-- React commits a render; `streamId` is the random id for another publication -/
  | commit (streams : Option (List StreamInfo)) (epoch : ℕ) (stillLive : Bool) (streamId : String)
  | unmount

namespace Media

def new (streams : List StreamInfo) (epoch : ℕ) : Media :=
  ⟨.new, [], .empty, [], .empty, streams, epoch, true⟩

/-- The `media_error` case of `handleMediaBody`. -/
def mediaError (streamId : String) (M : Media) : Media × List Body :=
  let r := if M.engine.localId = some streamId then M.engine.unpublish else (M.engine, [])
  (⟨r.1, M.watch.teardownSub streamId⟩, r.2)

/-- The two effects of a commit, in their order. -/
def commit (streams : Option (List StreamInfo)) (epoch : ℕ) (stillLive : Bool) (streamId : String)
    (M : Media) : Media × List Body :=
  let r := M.watch.restream streams
  if epoch = M.watch.epoch then (⟨M.engine, r.1⟩, r.2)
  else
    let r' := M.engine.leaveEpoch stillLive streamId
    (⟨r'.1, r.1.leaveEpoch epoch⟩, r.2 ++ r'.2)

def react (M : Media) : MediaEvent → Media × List Body
  | .publication e => ({ M with engine := Renderer.engine.next M.engine e }, Renderer.engine.out M.engine e)
  | .subscribe streamId => ({ M with watch := (M.watch.subscribe streamId).1 }, (M.watch.subscribe streamId).2)
  | .unsubscribe streamId =>
    ({ M with watch := (M.watch.unsubscribe streamId).1 }, (M.watch.unsubscribe streamId).2)
  | .subscribeOffer streamId _ => ({ M with watch := M.watch.subscribeOffer streamId }, [])
  | .mediaError streamId _ => M.mediaError streamId
  | .streamState stream state =>
    if state = .ended then ({ M with watch := M.watch.teardownSub stream.streamId }, []) else (M, [])
  | .negotiated k answer =>
    ({ M with watch := (M.watch.negotiated k answer).1 }, (M.watch.negotiated k answer).2)
  | .track k => ({ M with watch := M.watch.track k }, [])
  | .commit streams epoch stillLive streamId => M.commit streams epoch stillLive streamId
  | .unmount => ({ M with watch := M.watch.unmount }, [])

/-- A negotiation ends once; tracks come on connections that are open and were offered something.  Once the
component is gone only negotiations end. -/
def Enabled (M : Media) : MediaEvent → Prop
  | .negotiated k _ => ∃ pc, M.watch.pcs[k]? = some pc ∧ pc.stage = .answering
  | .track k =>
    M.watch.mounted = true ∧
      ∃ pc, M.watch.pcs[k]? = some pc ∧ pc.stage ≠ .placeholder ∧ pc.closed = false
  | _ => M.watch.mounted = true

end Media

/-- `useMedia` and its effects. -/
def media : Machine Media MediaEvent Body := ⟨Media.Enabled, Media.react⟩

/-! ### Open connections -/

namespace Watch

variable {W W' : Watch} {s t : String} {k : ℕ}

/-- The connection `k` was made for the stream `s`, and is open. -/
def OpenAt (W : Watch) (k : ℕ) (s : String) : Prop :=
  ∃ pc, W.pcs[k]? = some pc ∧ pc.streamId = s ∧ pc.closed = false

theorem OpenAt.unique (h : W.OpenAt k s) (h' : W.OpenAt k t) : s = t := by
  obtain ⟨pc, hpc, hs, -⟩ := h
  obtain ⟨pc', hpc', ht, -⟩ := h'
  obtain rfl : pc = pc' := Option.some.inj (hpc.symm.trans hpc')
  exact hs.symm.trans ht

theorem openAt_make (stage : PcStage) :
    (W.make s stage).OpenAt k t ↔ W.OpenAt k t ∨ k = W.pcs.length ∧ t = s := by
  unfold OpenAt make
  simp only [List.getElem?_append]
  split
  · next hlt =>
    have hne : k ≠ W.pcs.length := by omega
    simp [hne]
  · next hge =>
    have hnone : W.pcs[k]? = none := List.getElem?_eq_none (by omega)
    rw [hnone]
    by_cases hk : k = W.pcs.length
    · rw [hk, Nat.sub_self]
      have hnew : ([⟨s, stage, false⟩] : List SubPc)[0]? = some ⟨s, stage, false⟩ := rfl
      rw [hnew]
      simp only [Option.some.injEq, reduceCtorEq, false_and, exists_false, false_or, true_and]
      exact ⟨fun h => by obtain ⟨pc, rfl, hs, -⟩ := h; exact hs.symm, fun h => ⟨_, rfl, h.symm, rfl⟩⟩
    · have hout : ([⟨s, stage, false⟩] : List SubPc)[k - W.pcs.length]? = none :=
        List.getElem?_eq_none (by simp; omega)
      rw [hout]
      simp [hk]

theorem openAt_shut (j : ℕ) : (W.shut j).OpenAt k s ↔ W.OpenAt k s ∧ k ≠ j := by
  unfold OpenAt shut
  simp only [List.getElem?_modify]
  by_cases hk : j = k
  · subst hk
    cases W.pcs[j]? <;> simp
  · have hne : k ≠ j := fun h => hk h.symm
    simp [hk, hne]

theorem openAt_settle (j : ℕ) : (W.settle j).OpenAt k s ↔ W.OpenAt k s := by
  unfold OpenAt settle
  simp only [List.getElem?_modify]
  by_cases hk : j = k
  · subst hk
    cases W.pcs[j]? <;> simp
  · simp [hk]

theorem openAt_closeSub : (W.closeSub t).OpenAt k s ↔ W.OpenAt k s ∧ W.subPcs.get t ≠ some k := by
  unfold closeSub
  cases hget : W.subPcs.get t with
  | none => simp
  | some j =>
    show (W.shut j).OpenAt k s ↔ _
    rw [openAt_shut]
    simp [eq_comm]

@[simp] theorem subPcs_closeSub : (W.closeSub t).subPcs = W.subPcs := by
  unfold closeSub
  split <;> rfl

@[simp] theorem pcs_setRemoteStream (stream : Option ℕ) : (W.setRemoteStream t stream).pcs = W.pcs := by
  cases stream <;> rfl

@[simp] theorem subPcs_setRemoteStream (stream : Option ℕ) :
    (W.setRemoteStream t stream).subPcs = W.subPcs := by
  cases stream <;> rfl

theorem openAt_congr (h : W'.pcs = W.pcs) : W'.OpenAt k s ↔ W.OpenAt k s := by
  unfold OpenAt
  rw [h]

theorem openAt_teardownSub : (W.teardownSub t).OpenAt k s ↔ W.OpenAt k s ∧ W.subPcs.get t ≠ some k := by
  rw [← openAt_closeSub]
  exact openAt_congr (pcs_setRemoteStream none)

theorem subPcs_teardownSub : (W.teardownSub t).subPcs = W.subPcs.delete t := by
  unfold teardownSub
  rw [subPcs_setRemoteStream]
  show (W.closeSub t).subPcs.delete t = _
  rw [subPcs_closeSub]

/-- The connections of the table are open. -/
def Kept (W : Watch) : Prop := ∀ s k, W.subPcs.get s = some k → W.OpenAt k s

/-- **No connection is lost**: one that is open is in the table. -/
def NoneLost (W : Watch) : Prop := ∀ s k, W.OpenAt k s → W.subPcs.get s = some k

/-- An operation that keeps the table of the connections. -/
structure Sound (W W' : Watch) : Prop where
  kept : W.Kept → W'.Kept
  noneLost : W.Kept → W.NoneLost → W'.NoneLost

theorem Sound.refl : Sound W W := ⟨id, fun _ h => h⟩

theorem Sound.trans {W'' : Watch} (h : Sound W W') (h' : Sound W' W'') : Sound W W'' :=
  ⟨fun hkept => h'.kept (h.kept hkept), fun hkept hlost => h'.noneLost (h.kept hkept) (h.noneLost hkept hlost)⟩

/-- Operations that neither open, close nor register anything. -/
theorem sound_of_eq (hpcs : W'.pcs = W.pcs) (hsub : W'.subPcs = W.subPcs) : Sound W W' := by
  constructor
  · intro hkept s k hget
    rw [hsub] at hget
    exact (openAt_congr hpcs).2 (hkept s k hget)
  · intro _ hlost s k hopen
    rw [hsub]
    exact hlost s k ((openAt_congr hpcs).1 hopen)

theorem pcs_want : (W.want t).pcs = W.pcs ∧ (W.want t).subPcs = W.subPcs := by
  unfold want
  split
  · split <;> exact ⟨rfl, rfl⟩
  · exact ⟨rfl, rfl⟩

theorem pcs_unwant : (W.unwant t).pcs = W.pcs ∧ (W.unwant t).subPcs = W.subPcs := by
  unfold unwant
  split <;> exact ⟨rfl, rfl⟩

theorem sound_settle (j : ℕ) : Sound W (W.settle j) := by
  constructor
  · intro hkept s k hget
    exact (openAt_settle j).2 (hkept s k hget)
  · intro _ hlost s k hopen
    exact hlost s k ((openAt_settle j).1 hopen)

theorem sound_teardownSub (t : String) : Sound W (W.teardownSub t) := by
  constructor
  · intro hkept s k hget
    rw [subPcs_teardownSub] at hget
    by_cases hst : s = t
    · rw [hst, InsertionMap.get_delete_self] at hget
      cases hget
    · rw [InsertionMap.get_delete_ne _ hst] at hget
      refine openAt_teardownSub.2 ⟨hkept s k hget, fun hother => hst ?_⟩
      exact (hkept s k hget).unique (hkept t k hother)
  · intro _ hlost s k hopen
    obtain ⟨hopen, hother⟩ := openAt_teardownSub.1 hopen
    have hget := hlost s k hopen
    have hst : s ≠ t := by
      rintro rfl
      exact hother hget
    rw [subPcs_teardownSub, InsertionMap.get_delete_ne _ hst]
    exact hget

theorem kept_make (stage : PcStage) (hkept : W.Kept) : (W.make t stage).Kept := by
  intro s k hget
  have hget' : (W.subPcs.set t W.pcs.length).get s = some k := hget
  apply (openAt_make stage).2
  by_cases hst : s = t
  · rw [hst, InsertionMap.get_set_self] at hget'
    exact .inr ⟨(Option.some.inj hget').symm, hst⟩
  · rw [InsertionMap.get_set_ne _ _ hst] at hget'
    exact .inl (hkept s k hget')

/-- A connection may be made for a stream that has no open one. -/
theorem noneLost_make (stage : PcStage) (hfree : ∀ k, ¬ W.OpenAt k t) (hlost : W.NoneLost) :
    (W.make t stage).NoneLost := by
  intro s k hopen
  show (W.subPcs.set t W.pcs.length).get s = some k
  rcases (openAt_make stage).1 hopen with hbefore | ⟨rfl, rfl⟩
  · have hst : s ≠ t := by
      rintro rfl
      exact hfree k hbefore
    rw [InsertionMap.get_set_ne _ _ hst]
    exact hlost s k hbefore
  · rw [InsertionMap.get_set_self]

theorem sound_startSub (t : String) : Sound W (W.startSub t).1 := by
  unfold startSub
  split
  · exact .refl
  · next hhas =>
    refine ⟨kept_make _, fun hkept hlost => noneLost_make _ (fun k hopen => ?_) hlost⟩
    apply hhas
    exact (InsertionMap.has_iff _ _).2 ⟨k, hlost t k hopen⟩

theorem sound_subscribeOffer (t : String) : Sound W (W.subscribeOffer t) := by
  constructor
  · -- the connection that is closed gives its place to the new one
    intro hkept s k hget
    have hget' : ((W.closeSub t).subPcs.set t (W.closeSub t).pcs.length).get s = some k := hget
    apply (openAt_make _).2
    by_cases hst : s = t
    · rw [hst, InsertionMap.get_set_self] at hget'
      exact .inr ⟨(Option.some.inj hget').symm, hst⟩
    · rw [InsertionMap.get_set_ne _ _ hst, subPcs_closeSub] at hget'
      refine .inl (openAt_closeSub.2 ⟨hkept s k hget', fun hother => hst ?_⟩)
      exact (hkept s k hget').unique (hkept t k hother)
  · intro hkept hlost
    apply noneLost_make _
    · intro k hopen
      obtain ⟨hopen, hother⟩ := openAt_closeSub.1 hopen
      exact hother (hlost t k hopen)
    · intro s k hopen
      rw [subPcs_closeSub]
      exact hlost s k (openAt_closeSub.1 hopen).1

theorem sound_teardownSubs (ids : List String) : Sound W (W.teardownSubs ids) := by
  induction ids generalizing W with
  | nil => exact .refl
  | cons id ids ih => exact (sound_teardownSub id).trans ih

theorem sound_followOwner (streams : List StreamInfo) (owner : String) :
    Sound W (W.followOwner streams owner).1 := by
  unfold followOwner
  split
  · exact .refl
  · split
    · exact .refl
    · exact sound_startSub _

theorem sound_followOwners (streams : List StreamInfo) (owners : List String) :
    Sound W (followOwners streams owners W).1 := by
  induction owners generalizing W with
  | nil => exact .refl
  | cons owner owners ih => exact (sound_followOwner streams owner).trans ih

theorem sound_reconcile (streams : List StreamInfo) : Sound W (W.reconcile streams).1 := by
  have hstreams : Sound W { W with streams := streams } := sound_of_eq rfl rfl
  show Sound W (followOwners streams _ (teardownSubs _ { W with streams := streams })).1
  exact (hstreams.trans (sound_teardownSubs _)).trans (sound_followOwners streams _)

theorem sound_leaveEpoch (epoch : ℕ) : Sound W (W.leaveEpoch epoch) :=
  (sound_teardownSubs _).trans (sound_of_eq rfl rfl)

theorem openAt_shuts (ks : List ℕ) :
    (ks.foldl (fun W k => W.shut k) W).OpenAt k s ↔ W.OpenAt k s ∧ k ∉ ks := by
  induction ks generalizing W with
  | nil => simp
  | cons j ks ih =>
    rw [List.foldl_cons, ih, openAt_shut, List.mem_cons, not_or, and_assoc]

theorem sound_unmount : Sound W W.unmount := by
  constructor
  · intro _ s k hget
    cases hget
  · intro _ hlost s k hopen
    have hopen' : (W.subPcs.values.foldl (fun W k => W.shut k) W).OpenAt k s := hopen
    obtain ⟨hopen', hnot⟩ := (openAt_shuts _).1 hopen'
    exact absurd ((InsertionMap.mem_values _ _).2 ⟨s, hlost s k hopen'⟩) hnot

/-- The table holds exactly the open connections; so a stream has one of them at most. -/
def Tidy (W : Watch) : Prop := ∀ s k, W.subPcs.get s = some k ↔ W.OpenAt k s

theorem tidy_iff (hkept : W.Kept) : W.Tidy ↔ W.NoneLost :=
  ⟨fun h s k => (h s k).2, fun h s k => ⟨hkept s k, h s k⟩⟩

/-- A negotiation that fails deletes the entry of its stream, whatever connection that has. -/
def Own (k : ℕ) (W : Watch) : Prop :=
  ∀ pc, W.pcs[k]? = some pc → W.subPcs.get pc.streamId = some k ∨ W.subPcs.get pc.streamId = none

theorem negotiated_none {pc : SubPc} (hpc : W.pcs[k]? = some pc) :
    (W.negotiated k none).1 = ((W.settle k).shut k).deleteSub pc.streamId := by
  unfold negotiated
  rw [hpc]

theorem openAt_failed (pc : SubPc) {j : ℕ} :
    (((W.settle k).shut k).deleteSub pc.streamId).OpenAt j s ↔ W.OpenAt j s ∧ j ≠ k := by
  have hsame : (((W.settle k).shut k).deleteSub pc.streamId).OpenAt j s ↔ ((W.settle k).shut k).OpenAt j s :=
    openAt_congr rfl
  rw [hsame, openAt_shut, openAt_settle]

theorem kept_negotiated (answer : Option String) (hkept : W.Kept) : (W.negotiated k answer).1.Kept := by
  cases hpc : W.pcs[k]? with
  | none =>
    have hsame : (W.negotiated k answer).1 = W := by simp [negotiated, hpc]
    rw [hsame]
    exact hkept
  | some pc =>
    cases answer with
    | some sdp =>
      have hsettled : (W.negotiated k (some sdp)).1 = W.settle k := by simp [negotiated, hpc]
      rw [hsettled]
      exact (sound_settle k).kept hkept
    | none =>
      rw [negotiated_none hpc]
      intro s j hget
      have hget' : (W.subPcs.delete pc.streamId).get s = some j := hget
      by_cases hs : s = pc.streamId
      · rw [hs, InsertionMap.get_delete_self] at hget'
        cases hget'
      · rw [InsertionMap.get_delete_ne _ hs] at hget'
        have hopen := hkept s j hget'
        refine (openAt_failed pc).2 ⟨hopen, ?_⟩
        rintro rfl
        obtain ⟨pc', hpc', hs', -⟩ := hopen
        obtain rfl : pc = pc' := Option.some.inj (hpc.symm.trans hpc')
        exact hs hs'.symm

/-- **Exactly so a connection is lost**: the one that took the place of a connection whose negotiation fails
afterwards. -/
theorem noneLost_negotiated (answer : Option String) (hkept : W.Kept) (hlost : W.NoneLost) :
    (W.negotiated k answer).1.NoneLost ↔ (answer = none → W.Own k) := by
  cases hpc : W.pcs[k]? with
  | none =>
    have hsame : (W.negotiated k answer).1 = W := by simp [negotiated, hpc]
    rw [hsame]
    refine ⟨fun _ _ pc hpc' => ?_, fun _ => hlost⟩
    rw [hpc] at hpc'
    cases hpc'
  | some pc =>
    cases answer with
    | some sdp =>
      have hsettled : (W.negotiated k (some sdp)).1 = W.settle k := by simp [negotiated, hpc]
      rw [hsettled]
      exact ⟨(fun _ h => by cases h), fun _ => (sound_settle k).noneLost hkept hlost⟩
    | none =>
      rw [negotiated_none hpc]
      constructor
      · intro hafter _ pc' hpc'
        obtain rfl : pc = pc' := Option.some.inj (hpc.symm.trans hpc')
        cases hget : W.subPcs.get pc.streamId with
        | none => exact .inr rfl
        | some j =>
          refine .inl ?_
          by_contra hother
          have hjk : j ≠ k := fun h => hother (by rw [h])
          have hfound := hafter _ j ((openAt_failed pc).2 ⟨hkept _ j hget, hjk⟩)
          have hgone : (W.subPcs.delete pc.streamId).get pc.streamId = none := InsertionMap.get_delete_self ..
          exact absurd (hgone.symm.trans hfound) nofun
      · intro hown s j hopen
        obtain ⟨hopen, hjk⟩ := (openAt_failed pc).1 hopen
        have hget := hlost s j hopen
        show (W.subPcs.delete pc.streamId).get s = some j
        have hs : s ≠ pc.streamId := by
          rintro rfl
          rcases hown rfl pc hpc with h | h
          · exact hjk (Option.some.inj (hget.symm.trans h))
          · rw [hget] at h
            cases h
        rw [InsertionMap.get_delete_ne _ hs]
        exact hget

end Watch

namespace Media

/-- The condition on an event: a negotiation that fails finds its own connection in the table, or none. -/
def FailsOwn (M : Media) : MediaEvent → Prop
  | .negotiated k none => M.watch.Own k
  | _ => True

/-- **What one event does to the connections.** -/
theorem sound_react {M : Media} {e : MediaEvent} (he : ∀ k answer, e ≠ .negotiated k answer) :
    Watch.Sound M.watch (media.next M e).watch := by
  cases e with
  | publication e => exact .refl
  | subscribe s =>
    exact (Watch.sound_of_eq Watch.pcs_want.1 Watch.pcs_want.2).trans (Watch.sound_startSub s)
  | unsubscribe s =>
    exact (Watch.sound_of_eq Watch.pcs_unwant.1 Watch.pcs_unwant.2).trans (Watch.sound_teardownSub s)
  | subscribeOffer s sdp => exact Watch.sound_subscribeOffer s
  | mediaError s reason => exact Watch.sound_teardownSub s
  | streamState stream state =>
    show Watch.Sound M.watch (if state = .ended then _ else (M, [])).1.watch
    split
    · exact Watch.sound_teardownSub _
    · exact .refl
  | negotiated k answer => exact absurd rfl (he k answer)
  | track k =>
    show Watch.Sound M.watch (M.watch.track k)
    unfold Watch.track
    split
    · exact .refl
    · exact Watch.sound_of_eq rfl rfl
  | commit streams epoch stillLive streamId =>
    have hfirst : Watch.Sound M.watch (M.watch.restream streams).1 := by
      cases streams with
      | none => exact .refl
      | some streams => exact Watch.sound_reconcile streams
    show Watch.Sound M.watch (M.commit streams epoch stillLive streamId).1.watch
    unfold commit
    dsimp only
    split
    · exact hfirst
    · exact hfirst.trans (Watch.sound_leaveEpoch epoch)
  | unmount => exact Watch.sound_unmount

theorem kept_next {M : Media} (e : MediaEvent) (hkept : M.watch.Kept) : (media.next M e).watch.Kept := by
  by_cases he : ∃ k answer, e = .negotiated k answer
  · obtain ⟨k, answer, rfl⟩ := he
    exact Watch.kept_negotiated answer hkept
  · exact (sound_react fun k answer h => he ⟨k, answer, h⟩).kept hkept

theorem noneLost_next {M : Media} (e : MediaEvent) (hkept : M.watch.Kept) (hlost : M.watch.NoneLost) :
    (media.next M e).watch.NoneLost ↔ FailsOwn M e := by
  by_cases he : ∃ k answer, e = .negotiated k answer
  · obtain ⟨k, answer, rfl⟩ := he
    show (M.watch.negotiated k answer).1.NoneLost ↔ _
    rw [Watch.noneLost_negotiated answer hkept hlost]
    cases answer with
    | none => exact ⟨fun h => h rfl, fun h _ => h⟩
    | some sdp => exact ⟨fun _ => trivial, fun _ h => by cases h⟩
  · have hother : FailsOwn M e := by
      cases e with
      | negotiated k answer => exact absurd ⟨k, answer, rfl⟩ he
      | _ => trivial
    exact ⟨fun _ => hother, fun _ => (sound_react fun k answer h => he ⟨k, answer, h⟩).noneLost hkept hlost⟩

/-- **The renderer loses no connection.**  In every state of a run the table holds exactly the open
connections, if and only if no negotiation fails after another connection has taken the entry: that of a newer
offer, or the placeholder of a renewed `subscribe`. -/
theorem connections_tidy_iff (streams : List StreamInfo) (epoch : ℕ) (es : List MediaEvent)
    (hvalid : media.Valid (.new streams epoch) es) :
    media.Along (fun M e => (media.next M e).watch.Tidy) (.new streams epoch) es ↔
      media.Along FailsOwn (.new streams epoch) es := by
  have hstart : (new streams epoch).watch.Kept := fun s k hget => by cases hget
  have hnone : (new streams epoch).watch.NoneLost := by
    intro s k hopen
    obtain ⟨pc, hpc, -⟩ := hopen
    cases hpc
  have htidy : media.Along (fun M e => (media.next M e).watch.Tidy) (.new streams epoch) es ↔
      media.Along (fun M e => (media.next M e).watch.NoneLost) (.new streams epoch) es :=
    Machine.along_congr (fun M e hkept _ => kept_next e hkept)
      (fun M e hkept _ => Watch.tidy_iff (kept_next e hkept)) hvalid hstart
  rw [htidy]
  exact Machine.along_next_iff (J := fun M => M.watch.NoneLost) (Q := FailsOwn)
    (fun M e hkept _ => kept_next e hkept) (fun M e hkept hlost _ => noneLost_next e hkept hlost)
    hvalid hstart hnone

/-- A stream is asked for and offered twice; the first negotiation ends before the second offer comes. -/
def offeredTwiceRun : List MediaEvent :=
  [.subscribe "s", .subscribeOffer "s" "a", .negotiated 1 none, .subscribeOffer "s" "b", .negotiated 2 (some "c")]

theorem tidy_offeredTwiceRun :
    media.Along (fun M e => (media.next M e).watch.Tidy) (.new [] 1) offeredTwiceRun := by
  refine (connections_tidy_iff [] 1 offeredTwiceRun ?_).2 ⟨trivial, trivial, ?_, trivial, trivial, trivial⟩
  · exact ⟨rfl, rfl, ⟨⟨"s", .answering, false⟩, rfl, rfl⟩, rfl, ⟨⟨"s", .answering, false⟩, rfl, rfl⟩, trivial⟩
  · intro pc hpc
    obtain rfl : (⟨"s", .answering, false⟩ : SubPc) = pc := Option.some.inj hpc
    exact .inl (by decide)

end Media

end ScreenSharing.Renderer
