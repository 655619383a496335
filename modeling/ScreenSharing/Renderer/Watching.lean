import Mathlib.Data.List.Nodup
import ScreenSharing.Renderer.Subscriptions

/-!
# Asking for streams

When `useMedia` asks the host for a stream, and when it does not.  The placeholder that it puts in the table of
connections keeps it from asking twice, until something ends the subscription (`asks_at_most`).  A commit with
another list of streams makes it ask for a stream of every owner that the user wants to watch, and it stays with
that owner (`follows_owner`); only when the epoch changes in the same commit, the effect that runs second takes
back what the first one did.
-/

namespace ScreenSharing.Renderer

open Lib

/-- How often the host is asked for the stream. -/
def asked (s : String) (out : List Body) : ℕ := out.count (.subscribe s)

theorem asked_append (s : String) (out out' : List Body) : asked s (out ++ out') = asked s out + asked s out' :=
  List.count_append

theorem asked_eq_zero {s : String} {out : List Body} (h : .subscribe s ∉ out) : asked s out = 0 :=
  List.count_eq_zero.2 h

/-- Is it a live stream? -/
def Live (streams : List StreamInfo) (s : String) : Prop := s ∈ streams.map StreamInfo.streamId

namespace Watch

variable {W : Watch} {s t owner : String} {streams : List StreamInfo}

/-- The number of entries of the stream. -/
def standing (s : String) (W : Watch) : ℕ := if W.subPcs.has s then 1 else 0

theorem standing_le_one (s : String) (W : Watch) : W.standing s ≤ 1 := by
  unfold standing
  split <;> omega

theorem has_make (stage : PcStage) :
    (W.make t stage).subPcs.has s = true ↔ W.subPcs.has s = true ∨ s = t := by
  show (W.subPcs.set t W.pcs.length).has s = true ↔ _
  rw [InsertionMap.has_iff, InsertionMap.has_iff, InsertionMap.get_set]
  by_cases hst : s = t
  · simp [hst]
  · simp [hst]

theorem has_teardownSub : (W.teardownSub t).subPcs.has s = true ↔ W.subPcs.has s = true ∧ s ≠ t := by
  rw [subPcs_teardownSub, InsertionMap.has_iff, InsertionMap.has_iff, InsertionMap.get_delete]
  by_cases hst : s = t
  · simp [hst]
  · simp [hst]

theorem has_teardownSubs (ids : List String) :
    (W.teardownSubs ids).subPcs.has s = true ↔ W.subPcs.has s = true ∧ s ∉ ids := by
  induction ids generalizing W with
  | nil => simp [teardownSubs]
  | cons id ids ih =>
    show ((W.teardownSub id).teardownSubs ids).subPcs.has s = true ↔ _
    rw [ih, has_teardownSub, List.mem_cons, not_or, and_assoc]

theorem wantedOwners_teardownSub : (W.teardownSub t).wantedOwners = W.wantedOwners := by
  show ((W.closeSub t).deleteSub t).wantedOwners = _
  unfold closeSub
  split <;> rfl

theorem wantedOwners_teardownSubs (ids : List String) :
    (W.teardownSubs ids).wantedOwners = W.wantedOwners := by
  induction ids generalizing W with
  | nil => rfl
  | cons id ids ih => exact ih.trans wantedOwners_teardownSub

/-- **A stream is asked for exactly when its entry is new.** -/
theorem asked_startSub (s t : String) (W : Watch) :
    asked s (W.startSub t).2 + W.standing s = (W.startSub t).1.standing s := by
  unfold startSub
  split
  · next hhas => simp [asked]
  · next hhas =>
    unfold standing
    simp only [has_make]
    by_cases hst : s = t
    · subst hst
      simp [asked, hhas]
    · have hne : Body.subscribe t ≠ .subscribe s := fun h => hst (Body.subscribe.inj h).symm
      simp [asked, hst, hne]

theorem asked_followOwner (s : String) (streams : List StreamInfo) (owner : String) (W : Watch) :
    asked s (W.followOwner streams owner).2 + W.standing s = (W.followOwner streams owner).1.standing s := by
  unfold followOwner
  split
  · simp [asked]
  · split
    · simp [asked]
    · exact asked_startSub s _ W

theorem asked_followOwners (s : String) (streams : List StreamInfo) (owners : List String) :
    ∀ W : Watch, asked s (followOwners streams owners W).2 + W.standing s =
      (followOwners streams owners W).1.standing s := by
  induction owners with
  | nil => intro W; simp [followOwners, asked]
  | cons owner owners ih =>
    intro W
    show asked s ((W.followOwner streams owner).2 ++
      (followOwners streams owners (W.followOwner streams owner).1).2) + _ = _
    rw [asked_append]
    have hfirst := asked_followOwner s streams owner W
    have hrest := ih (W.followOwner streams owner).1
    show _ = (followOwners streams owners (W.followOwner streams owner).1).1.standing s
    omega

/-! ### The streams of an owner -/

theorem exists_of_byOwner (h : byOwner streams owner = some t) :
    ∃ stream ∈ streams, stream.ownerPeerId = owner ∧ stream.streamId = t := by
  unfold byOwner at h
  obtain ⟨stream, hfind, hid⟩ := Option.map_eq_some_iff.1 h
  have howner := List.find?_some hfind
  have hmem := List.mem_of_find?_eq_some hfind
  exact ⟨stream, List.mem_reverse.1 hmem, of_decide_eq_true howner, hid⟩

theorem byOwner_isSome {stream : StreamInfo} (hmem : stream ∈ streams)
    (howner : stream.ownerPeerId = owner) : ∃ t, byOwner streams owner = some t := by
  have hfound : (streams.reverse.find? fun s => s.ownerPeerId = owner).isSome = true :=
    List.find?_isSome.2 ⟨stream, List.mem_reverse.2 hmem, by simp [howner]⟩
  obtain ⟨stream', hfind⟩ := Option.isSome_iff_exists.1 hfound
  exact ⟨stream'.streamId, by simp [byOwner, hfind]⟩

theorem ownerOf_of_mem (hids : (streams.map StreamInfo.streamId).Nodup) {stream : StreamInfo}
    (hmem : stream ∈ streams) : ownerOf streams stream.streamId = some stream.ownerPeerId := by
  induction streams with
  | nil => cases hmem
  | cons first rest ih =>
    unfold ownerOf
    rw [List.map_cons, List.nodup_cons] at hids
    rcases List.mem_cons.1 hmem with rfl | hmem
    · simp
    · have hne : first.streamId ≠ stream.streamId := by
        intro heq
        exact hids.1 (heq ▸ List.mem_map_of_mem hmem)
      rw [List.find?_cons_of_neg (by simpa using hne)]
      exact ih hids.2 hmem

theorem exists_of_ownerOf (h : ownerOf streams t = some owner) :
    ∃ stream ∈ streams, stream.ownerPeerId = owner ∧ stream.streamId = t := by
  unfold ownerOf at h
  obtain ⟨stream, hfind, howner⟩ := Option.map_eq_some_iff.1 h
  have hid := List.find?_some hfind
  exact ⟨stream, List.mem_of_find?_eq_some hfind, howner, of_decide_eq_true hid⟩

/-- Only live streams are asked for. -/
theorem live_of_followOwner (h : .subscribe s ∈ (W.followOwner streams owner).2) : Live streams s := by
  unfold followOwner at h
  split at h
  · cases h
  · next t hby =>
    split at h
    · cases h
    · have hby' : byOwner streams owner = some t := (Option.filter_eq_some_iff.1 hby).1
      obtain ⟨stream, hmem, -, rfl⟩ := exists_of_byOwner hby'
      unfold startSub at h
      split at h
      · cases h
      · obtain rfl : s = stream.streamId := by simpa using h
        exact List.mem_map_of_mem hmem

theorem live_of_followOwners (owners : List String) :
    ∀ W : Watch, .subscribe s ∈ (followOwners streams owners W).2 → Live streams s := by
  induction owners with
  | nil => intro W h; cases h
  | cons owner owners ih =>
    intro W h
    rcases List.mem_append.1 h with h | h
    · exact live_of_followOwner h
    · exact ih _ h

/-- What `reconcile` works on, once the connections to streams that are gone are closed. -/
def pruned (streams : List StreamInfo) (W : Watch) : Watch :=
  teardownSubs (W.subPcs.keys.filter fun id => id ∉ streams.map StreamInfo.streamId)
    { W with streams := streams }

theorem reconcile_eq (streams : List StreamInfo) (W : Watch) :
    W.reconcile streams = followOwners streams W.wantedOwners (W.pruned streams) := by
  show followOwners streams (W.pruned streams).wantedOwners (W.pruned streams) = _
  have hwanted : (W.pruned streams).wantedOwners = W.wantedOwners := wantedOwners_teardownSubs _
  rw [hwanted]

theorem has_pruned : (W.pruned streams).subPcs.has s = true ↔ W.subPcs.has s = true ∧ Live streams s := by
  unfold pruned
  rw [has_teardownSubs]
  refine and_congr_right fun hhas => ?_
  have hkey : s ∈ W.subPcs.keys := (InsertionMap.mem_keys _ _).2 ((InsertionMap.has_iff _ _).1 hhas)
  rw [List.mem_filter]
  unfold Live
  constructor
  · intro h
    by_contra hgone
    exact h ⟨hkey, by simpa using hgone⟩
  · rintro hlive ⟨-, hgone⟩
    exact absurd hlive (by simpa using hgone)

theorem asked_reconcile_live (hlive : Live streams s) (W : Watch) :
    asked s (W.reconcile streams).2 + W.standing s = (W.reconcile streams).1.standing s := by
  rw [reconcile_eq, ← asked_followOwners]
  have hsame : W.standing s = (W.pruned streams).standing s := by
    unfold standing
    simp only [has_pruned, hlive, and_true]
  rw [hsame]

theorem asked_reconcile_gone (hgone : ¬ Live streams s) (W : Watch) : asked s (W.reconcile streams).2 = 0 := by
  apply asked_eq_zero
  rw [reconcile_eq]
  exact fun h => hgone (live_of_followOwners _ _ h)

theorem has_subscribeOffer : (W.subscribeOffer t).subPcs.has s = true ↔ W.subPcs.has s = true ∨ s = t := by
  unfold subscribeOffer
  rw [has_make, subPcs_closeSub]

theorem has_negotiated {k : ℕ} {answer : Option String} (hhas : W.subPcs.has s = true) :
    (W.negotiated k answer).1.subPcs.has s = true ∨
      answer = none ∧ ∃ pc, W.pcs[k]? = some pc ∧ pc.streamId = s := by
  unfold negotiated
  split
  · exact .inl hhas
  · next pc hpc =>
    split
    · exact .inl hhas
    · by_cases hs : pc.streamId = s
      · exact .inr ⟨rfl, pc, hpc, hs⟩
      · refine .inl ?_
        show (W.subPcs.delete pc.streamId).has s = true
        obtain ⟨j, hj⟩ := (InsertionMap.has_iff _ _).1 hhas
        refine (InsertionMap.has_iff _ _).2 ⟨j, ?_⟩
        rw [InsertionMap.get_delete_ne _ (fun h => hs h.symm)]
        exact hj

theorem asked_negotiated (k : ℕ) (answer : Option String) : asked s (W.negotiated k answer).2 = 0 := by
  apply asked_eq_zero
  unfold negotiated
  split
  · exact List.not_mem_nil
  · split
    · simp
    · exact List.not_mem_nil

end Watch

namespace Media

variable {s : String}

/-- The event ends the subscription of the stream: there is an entry, which goes.  In a commit with another epoch
the second effect also ends what the first one has just begun. -/
def Ends (s : String) (M : Media) : MediaEvent → Prop
  | .unsubscribe t | .mediaError t _ => t = s ∧ M.watch.subPcs.has s = true
  | .streamState stream state => (stream.streamId = s ∧ state = .ended) ∧ M.watch.subPcs.has s = true
  | .negotiated k answer =>
    (answer = none ∧ ∃ pc ∈ M.watch.pcs[k]?, pc.streamId = s) ∧ M.watch.subPcs.has s = true
  | .commit streams epoch _ _ =>
    (∃ l ∈ streams, ¬ Live l s) ∧ M.watch.subPcs.has s = true ∨
      epoch ≠ M.watch.epoch ∧ (M.watch.restream streams).1.subPcs.has s = true
  | .unmount => M.watch.subPcs.has s = true
  | _ => False

instance decidableEnds (s : String) (M : Media) : ∀ e, Decidable (Ends s M e)
  | .unsubscribe t => inferInstanceAs (Decidable (t = s ∧ M.watch.subPcs.has s = true))
  | .mediaError t _ => inferInstanceAs (Decidable (t = s ∧ M.watch.subPcs.has s = true))
  | .streamState stream state =>
    inferInstanceAs (Decidable ((stream.streamId = s ∧ state = .ended) ∧ M.watch.subPcs.has s = true))
  | .negotiated k answer =>
    inferInstanceAs (Decidable ((answer = none ∧ ∃ pc ∈ M.watch.pcs[k]?, pc.streamId = s) ∧
      M.watch.subPcs.has s = true))
  | .commit streams epoch _ _ =>
    inferInstanceAs (Decidable ((∃ l ∈ streams, ¬ s ∈ l.map StreamInfo.streamId) ∧ M.watch.subPcs.has s = true ∨
      epoch ≠ M.watch.epoch ∧ (M.watch.restream streams).1.subPcs.has s = true))
  | .unmount => inferInstanceAs (Decidable (M.watch.subPcs.has s = true))
  | .publication _ => isFalse not_false
  | .subscribe _ => isFalse not_false
  | .subscribeOffer _ _ => isFalse not_false
  | .track _ => isFalse not_false

/-- The events of a run that end the subscription of the stream. -/
def endings (s : String) (M : Media) (es : List MediaEvent) : List MediaEvent :=
  media.induced (fun M e => if Ends s M e then [e] else []) M es

/-- The publication does not ask for streams. -/
theorem asked_publication (E : Engine) (e : Event) : asked s (Renderer.engine.out E e) = 0 := by
  apply asked_eq_zero
  cases e with
  | publish stream streamId =>
    show Body.subscribe s ∉ (E.publish stream streamId).2
    unfold Engine.publish Engine.unpublish
    simp
  | offered stream streamId sdp =>
    show Body.subscribe s ∉ (E.offered stream streamId sdp).2
    unfold Engine.offered
    simp
  | unpublish =>
    show Body.subscribe s ∉ E.unpublish.2
    unfold Engine.unpublish
    simp
  | directive d => exact List.not_mem_nil

theorem asked_leaveEpoch (E : Engine) (stillLive : Bool) (streamId : String) :
    asked s (E.leaveEpoch stillLive streamId).2 = 0 := by
  apply asked_eq_zero
  unfold Engine.leaveEpoch
  dsimp only
  split
  · exact List.not_mem_nil
  · split
    · simp [Engine.publish, Engine.unpublish]
    · exact List.not_mem_nil

theorem asked_mediaError (M : Media) (t : String) : asked s (M.mediaError t).2 = 0 := by
  apply asked_eq_zero
  unfold mediaError
  dsimp only
  split
  · simp [Engine.unpublish]
  · exact List.not_mem_nil

/-- The host is asked for the stream only if there is no entry of it, and then there is one, unless the event
ends the subscription. -/
def AsksOnce (s : String) (M : Media) (e : MediaEvent) : Prop :=
  asked s (media.out M e) + M.watch.standing s ≤
    (if Ends s M e then 1 else 0) + (media.next M e).watch.standing s

/-- An event that asks for nothing, and takes an entry away only by ending the subscription. -/
theorem asksOnce_of_silent {M : Media} {e : MediaEvent} (hzero : asked s (media.out M e) = 0)
    (hkeeps : M.watch.subPcs.has s = true → ¬ Ends s M e → (media.next M e).watch.subPcs.has s = true) :
    AsksOnce s M e := by
  unfold AsksOnce
  rw [hzero]
  by_cases hhas : M.watch.subPcs.has s = true
  · by_cases hends : Ends s M e
    · have hone := M.watch.standing_le_one s
      rw [if_pos hends]
      omega
    · have hstanding : (media.next M e).watch.standing s = 1 := if_pos (hkeeps hhas hends)
      have hone := M.watch.standing_le_one s
      omega
  · have hnone : M.watch.standing s = 0 := if_neg hhas
    omega

theorem asksOnce_publication (M : Media) (e : Event) : AsksOnce s M (.publication e) :=
  asksOnce_of_silent (asked_publication M.engine e) fun hhas _ => hhas

theorem asksOnce_subscribe (M : Media) (t : String) : AsksOnce s M (.subscribe t) := by
  have h := Watch.asked_startSub s t (M.watch.want t)
  have hsame : (M.watch.want t).standing s = M.watch.standing s := by
    unfold Watch.standing
    rw [Watch.pcs_want.2]
  show asked s (M.watch.subscribe t).2 + M.watch.standing s ≤ _ + (M.watch.subscribe t).1.standing s
  unfold Watch.subscribe
  omega

theorem asksOnce_unsubscribe (M : Media) (t : String) : AsksOnce s M (.unsubscribe t) := by
  refine asksOnce_of_silent ?_ fun hhas hends => ?_
  · exact asked_eq_zero (by simp [media, react, Machine.out, Watch.unsubscribe])
  · have ht : s ≠ t := fun heq => hends ⟨heq.symm, hhas⟩
    exact Watch.has_teardownSub.2 ⟨Watch.pcs_unwant.2.symm ▸ hhas, ht⟩

theorem asksOnce_subscribeOffer (M : Media) (t sdp : String) : AsksOnce s M (.subscribeOffer t sdp) :=
  asksOnce_of_silent rfl fun hhas _ => Watch.has_subscribeOffer.2 (.inl hhas)

theorem asksOnce_mediaError (M : Media) (t reason : String) : AsksOnce s M (.mediaError t reason) := by
  refine asksOnce_of_silent (asked_mediaError M t) fun hhas hends => ?_
  have ht : s ≠ t := fun heq => hends ⟨heq.symm, hhas⟩
  exact Watch.has_teardownSub.2 ⟨hhas, ht⟩

theorem asksOnce_streamState (M : Media) (stream : StreamInfo) (state : StreamState) :
    AsksOnce s M (.streamState stream state) := by
  by_cases hended : state = .ended
  · have hreact : media.step M (.streamState stream state) =
        ({ M with watch := M.watch.teardownSub stream.streamId }, []) := by simp [media, react, hended]
    refine asksOnce_of_silent (congrArg (fun res => asked s res.2) hreact) fun hhas hends => ?_
    have hs : s ≠ stream.streamId := fun heq => hends ⟨⟨heq.symm, hended⟩, hhas⟩
    show (media.step M (.streamState stream state)).1.watch.subPcs.has s = true
    rw [hreact]
    exact Watch.has_teardownSub.2 ⟨hhas, hs⟩
  · have hreact : media.step M (.streamState stream state) = (M, []) := by simp [media, react, hended]
    refine asksOnce_of_silent (congrArg (fun res => asked s res.2) hreact) fun hhas _ => ?_
    show (media.step M (.streamState stream state)).1.watch.subPcs.has s = true
    rw [hreact]
    exact hhas

theorem asksOnce_negotiated (M : Media) (k : ℕ) (answer : Option String) :
    AsksOnce s M (.negotiated k answer) :=
  asksOnce_of_silent (Watch.asked_negotiated k answer) fun hhas hends =>
    (Watch.has_negotiated hhas).resolve_right fun hfail => hends ⟨hfail, hhas⟩

theorem asksOnce_track (M : Media) (k : ℕ) : AsksOnce s M (.track k) := by
  refine asksOnce_of_silent rfl fun hhas _ => ?_
  show (M.watch.track k).subPcs.has s = true
  unfold Watch.track
  split
  · exact hhas
  · exact hhas

theorem asksOnce_unmount (M : Media) : AsksOnce s M .unmount :=
  asksOnce_of_silent rfl fun hhas hends => absurd hhas hends

/-- The first effect of a commit. -/
theorem asked_restream (s : String) (streams : Option (List StreamInfo)) (W : Watch) :
    (∀ l ∈ streams, Live l s) ∧
        asked s (W.restream streams).2 + W.standing s = (W.restream streams).1.standing s ∨
      (∃ l ∈ streams, ¬ Live l s) ∧ asked s (W.restream streams).2 = 0 := by
  cases streams with
  | none => exact .inl ⟨nofun, Nat.zero_add _⟩
  | some l =>
    by_cases hlive : Live l s
    · refine .inl ⟨?_, Watch.asked_reconcile_live hlive W⟩
      intro l' hl'
      obtain rfl : l = l' := Option.some.inj hl'
      exact hlive
    · exact .inr ⟨⟨l, rfl, hlive⟩, Watch.asked_reconcile_gone hlive W⟩

/-- A commit that the stream is missing from. -/
theorem asksOnce_commit_gone {M : Media} {streams : Option (List StreamInfo)} {epoch : ℕ} {stillLive : Bool}
    {streamId : String} (hgone : ∃ l ∈ streams, ¬ Live l s)
    (hzero : asked s (media.out M (.commit streams epoch stillLive streamId)) = 0) :
    AsksOnce s M (.commit streams epoch stillLive streamId) :=
  asksOnce_of_silent hzero fun hhas hends => absurd (.inl ⟨hgone, hhas⟩) hends

/-- A commit, whose second effect may take back what the first one did. -/
theorem asksOnce_commit (M : Media) (streams : Option (List StreamInfo)) (epoch : ℕ) (stillLive : Bool)
    (streamId : String) : AsksOnce s M (.commit streams epoch stillLive streamId) := by
  have hout : asked s (media.out M (.commit streams epoch stillLive streamId)) =
      asked s (M.watch.restream streams).2 := by
    show asked s (M.commit streams epoch stillLive streamId).2 = _
    unfold commit
    dsimp only
    split
    · rfl
    · rw [asked_append, asked_leaveEpoch, Nat.add_zero]
  rcases asked_restream s streams M.watch with ⟨-, heq⟩ | ⟨hgone, hzero⟩
  · unfold AsksOnce
    rw [hout, heq]
    by_cases hepoch : epoch = M.watch.epoch
    · have hnext : (media.next M (.commit streams epoch stillLive streamId)).watch =
          (M.watch.restream streams).1 := by
        show (M.commit streams epoch stillLive streamId).1.watch = _
        unfold commit
        rw [if_pos hepoch]
      rw [hnext]
      omega
    · by_cases hhas : (M.watch.restream streams).1.subPcs.has s = true
      · have hone := (M.watch.restream streams).1.standing_le_one s
        rw [if_pos (show Ends s M (.commit streams epoch stillLive streamId) from .inr ⟨hepoch, hhas⟩)]
        omega
      · have hnone : (M.watch.restream streams).1.standing s = 0 := if_neg hhas
        omega
  · exact asksOnce_commit_gone hgone (hout.trans hzero)

/-- **One event asks at most once.** -/
theorem asked_react (M : Media) (e : MediaEvent) : AsksOnce s M e := by
  cases e with
  | publication e => exact asksOnce_publication M e
  | subscribe t => exact asksOnce_subscribe M t
  | unsubscribe t => exact asksOnce_unsubscribe M t
  | subscribeOffer t sdp => exact asksOnce_subscribeOffer M t sdp
  | mediaError t reason => exact asksOnce_mediaError M t reason
  | streamState stream state => exact asksOnce_streamState M stream state
  | negotiated k answer => exact asksOnce_negotiated M k answer
  | track k => exact asksOnce_track M k
  | commit streams epoch stillLive streamId => exact asksOnce_commit M streams epoch stillLive streamId
  | unmount => exact asksOnce_unmount M

theorem asked_run (s : String) (es : List MediaEvent) : ∀ M : Media,
    asked s (media.trace M es) + M.watch.standing s ≤
      (endings s M es).length + (media.exec M es).watch.standing s := by
  induction es with
  | nil =>
    intro M
    show 0 + M.watch.standing s ≤ 0 + M.watch.standing s
    omega
  | cons e es ih =>
    intro M
    show asked s (media.out M e ++ media.trace (media.next M e) es) + _ ≤
      ((if Ends s M e then [e] else []) ++ endings s (media.next M e) es).length + _
    rw [asked_append, List.length_append]
    have hfirst : AsksOnce s M e := asked_react M e
    have hrest := ih (media.next M e)
    unfold AsksOnce at hfirst
    have hlength : (if Ends s M e then [e] else []).length = if Ends s M e then 1 else 0 := by
      split <;> rfl
    rw [hlength]
    show _ ≤ _ + (media.exec (media.next M e) es).watch.standing s
    omega

/-- **The renderer does not ask twice.**  However often the user asks for a stream, and however often the list
of streams changes, the host is asked for it at most once more than the subscription was ended, and not more
often than that while there is no entry of it. -/
theorem asks_at_most (streams : List StreamInfo) (epoch : ℕ) (s : String) (es : List MediaEvent) :
    asked s (media.trace (.new streams epoch) es) ≤
      (endings s (.new streams epoch) es).length +
        if (media.exec (.new streams epoch) es).watch.subPcs.has s then 1 else 0 := by
  have h := asked_run s es (.new streams epoch)
  have hzero : (new streams epoch).watch.standing s = 0 := rfl
  rw [hzero] at h
  exact h

end Media

/-! ### Following an owner -/

namespace Watch

variable {W W' : Watch} {s t owner : String} {streams : List StreamInfo} {k : ℕ}

theorem has_of_standing_le (h : W.standing s ≤ W'.standing s) (hhas : W.subPcs.has s = true) :
    W'.subPcs.has s = true := by
  unfold standing at h
  rw [if_pos hhas] at h
  by_contra hnot
  rw [if_neg hnot] at h
  omega

theorem has_followOwners (owners : List String) (hhas : W.subPcs.has s = true) :
    (followOwners streams owners W).1.subPcs.has s = true := by
  have h := asked_followOwners s streams owners W
  exact has_of_standing_le (by omega) hhas

/-- An owner who has a stream is watched after their turn. -/
theorem watches_followOwner (hids : (streams.map StreamInfo.streamId).Nodup)
    (hfilled : ∀ stream ∈ streams, stream.streamId ≠ "") {stream : StreamInfo} (hmem : stream ∈ streams)
    (howner : stream.ownerPeerId = owner) :
    ∃ id, ownerOf streams id = some owner ∧ (W.followOwner streams owner).1.subPcs.has id = true := by
  obtain ⟨t, hby⟩ := byOwner_isSome hmem howner
  obtain ⟨stream', hmem', howner', rfl⟩ := exists_of_byOwner hby
  have hfilter : (byOwner streams owner).filter (fun id => id ≠ "") = some stream'.streamId := by
    rw [hby, Option.filter_some, if_pos (by simpa using hfilled stream' hmem')]
  unfold followOwner
  rw [hfilter]
  dsimp only
  split
  · next halready =>
    obtain ⟨id, hkey, hof⟩ := List.any_eq_true.1 halready
    refine ⟨id, of_decide_eq_true hof, ?_⟩
    exact (InsertionMap.has_iff _ _).2 ((InsertionMap.mem_keys _ _).1 hkey)
  · refine ⟨stream'.streamId, ?_, ?_⟩
    · rw [ownerOf_of_mem hids hmem', howner']
    · unfold startSub
      split
      · next hhas => exact hhas
      · exact (has_make _).2 (.inr rfl)

theorem watches_followOwners (hids : (streams.map StreamInfo.streamId).Nodup)
    (hfilled : ∀ stream ∈ streams, stream.streamId ≠ "") {stream : StreamInfo} (hmem : stream ∈ streams)
    (howner : stream.ownerPeerId = owner) (owners : List String) :
    ∀ W : Watch, owner ∈ owners →
      ∃ id, ownerOf streams id = some owner ∧ (followOwners streams owners W).1.subPcs.has id = true := by
  induction owners with
  | nil => intro W h; cases h
  | cons first owners ih =>
    intro W h
    rcases List.mem_cons.1 h with rfl | h
    · obtain ⟨id, hof, hhas⟩ := watches_followOwner (W := W) hids hfilled hmem howner
      exact ⟨id, hof, has_followOwners owners hhas⟩
    · exact ih _ h

theorem get_startSub (hget : W.subPcs.get s = some k) : (W.startSub t).1.subPcs.get s = some k := by
  unfold startSub
  split
  · exact hget
  · next hhas =>
    show (W.subPcs.set t W.pcs.length).get s = some k
    have hst : s ≠ t := by
      rintro rfl
      exact hhas ((InsertionMap.has_iff _ _).2 ⟨k, hget⟩)
    rw [InsertionMap.get_set_ne _ _ hst]
    exact hget

theorem get_followOwners (owners : List String) :
    ∀ W : Watch, W.subPcs.get s = some k → (followOwners streams owners W).1.subPcs.get s = some k := by
  induction owners with
  | nil => intro W hget; exact hget
  | cons first owners ih =>
    intro W hget
    apply ih
    unfold followOwner
    split
    · exact hget
    · split
      · exact hget
      · exact get_startSub hget

theorem get_teardownSubs (ids : List String) :
    ∀ W : Watch, s ∉ ids → (W.teardownSubs ids).subPcs.get s = W.subPcs.get s := by
  induction ids with
  | nil => intro W _; rfl
  | cons id ids ih =>
    intro W hs
    rw [List.mem_cons, not_or] at hs
    show ((W.teardownSub id).teardownSubs ids).subPcs.get s = _
    rw [ih _ hs.2, subPcs_teardownSub, InsertionMap.get_delete_ne _ hs.1]

/-- A connection to a stream that is still there is left alone. -/
theorem get_reconcile (hlive : Live streams s) (hget : W.subPcs.get s = some k) :
    (W.reconcile streams).1.subPcs.get s = some k := by
  rw [reconcile_eq]
  apply get_followOwners
  unfold pruned
  rw [get_teardownSubs]
  · exact hget
  · intro hgone
    exact of_decide_eq_true (List.mem_filter.1 hgone).2 hlive

theorem live_followOwners (owners : List String) :
    ∀ W : Watch, (∀ s, W.subPcs.has s = true → Live streams s) →
      ∀ s, (followOwners streams owners W).1.subPcs.has s = true → Live streams s := by
  intro W hlive s hhas
  by_cases hbefore : W.subPcs.has s = true
  · exact hlive s hbefore
  · apply live_of_followOwners owners W
    have h := asked_followOwners s streams owners W
    unfold standing at h
    rw [if_pos hhas, if_neg hbefore] at h
    exact List.count_pos_iff.1 (by unfold asked at h; omega)

theorem live_reconcile (hhas : (W.reconcile streams).1.subPcs.has s = true) : Live streams s := by
  rw [reconcile_eq] at hhas
  exact live_followOwners _ _ (fun s hs => (has_pruned.1 hs).2) s hhas

end Watch

namespace Media

theorem has_next {M : Media} {e : MediaEvent} {s : String} (he : ¬ Ends s M e)
    (hhas : M.watch.subPcs.has s = true) : (media.next M e).watch.subPcs.has s = true := by
  have h : AsksOnce s M e := asked_react M e
  unfold AsksOnce at h
  rw [if_neg he] at h
  exact Watch.has_of_standing_le (by omega) hhas

theorem has_exec {s : String} (es : List MediaEvent) : ∀ {M : Media},
    media.Along (fun M e => ¬ Ends s M e) M es → M.watch.subPcs.has s = true →
    (media.exec M es).watch.subPcs.has s = true := by
  induction es with
  | nil => intro M _ hhas; exact hhas
  | cons e es ih => intro M hno hhas; exact ih hno.2 (has_next hno.1 hhas)

/-- **The renderer follows the owners it wants to watch.**  Another list of streams closes the connections to
the streams that are gone, leaves the others alone, and every owner that is wanted and has a stream is watched
from then on, until something ends the subscription. -/
theorem follows_owner (M : Media) (l : List StreamInfo) (stillLive : Bool) (streamId : String)
    (hids : (l.map StreamInfo.streamId).Nodup) (hfilled : ∀ stream ∈ l, stream.streamId ≠ "") :
    (∀ s, (media.next M (.commit (some l) M.watch.epoch stillLive streamId)).watch.subPcs.has s = true →
        Live l s) ∧
      (∀ s k, Live l s → M.watch.subPcs.get s = some k →
        (media.next M (.commit (some l) M.watch.epoch stillLive streamId)).watch.subPcs.get s = some k) ∧
      ∀ owner ∈ M.watch.wantedOwners, (∃ stream ∈ l, stream.ownerPeerId = owner) → ∀ es,
        media.Along (fun M e => ∀ stream ∈ l, stream.ownerPeerId = owner → ¬ Ends stream.streamId M e)
          (media.next M (.commit (some l) M.watch.epoch stillLive streamId)) es →
        ∃ stream ∈ l, stream.ownerPeerId = owner ∧
          (media.exec M (.commit (some l) M.watch.epoch stillLive streamId :: es)).watch.subPcs.has
            stream.streamId = true := by
  have hnext : (media.next M (.commit (some l) M.watch.epoch stillLive streamId)).watch =
      (M.watch.reconcile l).1 := by
    show (M.commit (some l) M.watch.epoch stillLive streamId).1.watch = _
    unfold commit
    rw [if_pos rfl]
    rfl
  refine ⟨?_, ?_, ?_⟩
  · intro s hhas
    rw [hnext] at hhas
    exact Watch.live_reconcile hhas
  · intro s k hlive hget
    rw [hnext]
    exact Watch.get_reconcile hlive hget
  · intro owner hwanted hstream es hno
    obtain ⟨stream, hmem, howner⟩ := hstream
    obtain ⟨id, hof, hhas⟩ := Watch.watches_followOwners hids hfilled hmem howner
      M.watch.wantedOwners (M.watch.pruned l) hwanted
    rw [← Watch.reconcile_eq, ← hnext] at hhas
    obtain ⟨stream', hmem', howner', rfl⟩ := Watch.exists_of_ownerOf hof
    exact ⟨stream', hmem', howner', has_exec es (hno.mono fun M e h => h stream' hmem' howner') hhas⟩

/-- The stream that the room shows before and after it has another host. -/
def oldStream : StreamInfo := ⟨"old", "p_00000001", true, true⟩

def newStream : StreamInfo := ⟨"new", "p_00000001", true, true⟩

/-- The user watches a stream; the room gets another host, and its streams are gone. -/
def rehomedRun : List MediaEvent :=
  [.subscribe "old", .subscribeOffer "old" "offer", .negotiated 1 (some "answer"), .commit (some []) 2 false ""]

/-- The owner publishes again, and is watched again. -/
theorem follows_rehomedRun :
    ∃ stream ∈ [newStream], stream.ownerPeerId = "p_00000001" ∧
      (media.exec (media.exec (.new [oldStream] 1) rehomedRun)
        [.commit (some [newStream]) 2 false ""]).watch.subPcs.has stream.streamId = true :=
  (follows_owner (media.exec (.new [oldStream] 1) rehomedRun) [newStream] false "" (by decide) (by decide)).2.2
    "p_00000001" (by decide) ⟨newStream, by decide, rfl⟩ [] trivial

end Media

end ScreenSharing.Renderer
