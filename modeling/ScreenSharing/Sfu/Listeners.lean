import ScreenSharing.Sfu.MediaPlane

/-!
# What the governor hears of the router

The governor keeps its own table of streams.  It learns of the router's only through three events,
`stream-live`, `stream-ended` and `demand-changed`, in the order in which they are emitted; `heard`
is what one of them does, and `heardAt` the same seen from a single stream.  The media plane also
calls it directly, with the samples of a report, with the departure of a peer, and once in each
period to evaluate.

The lemmas here say what each of these does to the entry of one stream, so that no later proof opens
the governor's table.  `Evolves` is what an evaluation may change, and `FromLadder` what it may send
(`evaluate_spec`).
-/

namespace ScreenSharing.Sfu

open Lib

variable {G : Governor} {M : MediaPlane}

namespace Governor

/-! ### Entries -/

theorem get_modify (G : Governor) (s t : String) (f : StreamState → StreamState) :
    (G.modify s f).streams.get t =
      if t = s then (G.streams.get s).map f else G.streams.get t := by
  unfold modify
  split
  · next hnone =>
    split
    · next heq => rw [heq, hnone]; rfl
    · rfl
  · next st hst =>
    rw [InsertionMap.get_set, hst]
    rfl

theorem baseKbps_modify (G : Governor) (s : String) (f : StreamState → StreamState) :
    (G.modify s f).baseKbps = G.baseKbps := by
  unfold modify
  split <;> rfl

theorem get_setPaused (G : Governor) (s t : String) (paused : Bool) :
    (G.setPaused s paused).streams.get t =
      if t = s then (G.streams.get s).map fun st => { st with paused := paused }
      else G.streams.get t :=
  get_modify ..

theorem get_forget (G : Governor) (s t : String) :
    (G.forget s).streams.get t = if t = s then none else G.streams.get t :=
  InsertionMap.get_delete ..

/-- What is known of a stream that has just been registered. -/
def fresh (owner : String) : StreamState := ⟨owner, 0, false, 0, .restored, .empty, none⟩

theorem get_register (G : Governor) (s t owner : String) :
    (G.register s owner).streams.get t =
      if t = s then some ((G.streams.get s).getD (fresh owner)) else G.streams.get t := by
  unfold register
  split
  · next hhas =>
    obtain ⟨st, hst⟩ := (InsertionMap.has_iff _ _).mp hhas
    split
    · next heq => rw [heq, hst]; rfl
    · rfl
  · next hnew =>
    rw [Bool.not_eq_true, InsertionMap.has_eq_false] at hnew
    rw [InsertionMap.get_set, hnew]
    rfl

theorem get_dropSubscriberKeys (p : String) (keys : List String) : ∀ (G : Governor) (t : String),
    (keys.foldl (fun G s => G.modify s fun st => { st with subs := st.subs.delete p }) G).streams.get
        t =
      if t ∈ keys then
        (G.streams.get t).map fun st => { st with subs := st.subs.delete p }
      else G.streams.get t := by
  induction keys with
  | nil => intro G t; rfl
  | cons s keys ih =>
    intro G t
    rw [List.foldl_cons, ih, get_modify]
    by_cases hts : t = s
    · subst hts
      rw [if_pos rfl, if_pos List.mem_cons_self]
      split
      · cases G.streams.get t with
        | none => rfl
        | some st =>
          -- a second deletion changes nothing
          simp [InsertionMap.delete, List.filter_filter]
      · rfl
    · rw [if_neg hts]
      simp only [List.mem_cons, hts, false_or]

/-- `dropSubscriber` takes the samples of one peer out of every stream. -/
theorem get_dropSubscriber (G : Governor) (p t : String) :
    (G.dropSubscriber p).streams.get t =
      (G.streams.get t).map fun st => { st with subs := st.subs.delete p } := by
  unfold dropSubscriber
  rw [get_dropSubscriberKeys]
  split
  · rfl
  · next hmem =>
    cases hget : G.streams.get t with
    | none => rfl
    | some st => exact absurd ((InsertionMap.mem_keys _ _).mpr ⟨st, hget⟩) hmem

theorem baseKbps_dropSubscriber (G : Governor) (p : String) :
    (G.dropSubscriber p).baseKbps = G.baseKbps := by
  have hkeys : ∀ (keys : List String) (G : Governor), (keys.foldl (fun G s =>
      G.modify s fun st => { st with subs := st.subs.delete p }) G).baseKbps = G.baseKbps := by
    intro keys
    induction keys with
    | nil => exact fun G => rfl
    | cons s keys ih => exact fun G => (ih _).trans (G.baseKbps_modify s _)
  exact hkeys _ G

/-! ### Evaluation -/

/-- What an evaluation may change of a stream: its level, within the ladder, and the streak. -/
structure Evolves (st st' : StreamState) : Prop where
  owner : st'.ownerPeerId = st.ownerPeerId
  paused : st'.paused = st.paused
  subs : st'.subs = st.subs
  pub : st'.pub = st.pub
  level : st.level < qualityLadder.length → st'.level < qualityLadder.length

theorem Evolves.refl (st : StreamState) : Evolves st st := ⟨rfl, rfl, rfl, rfl, id⟩

theorem Evolves.trans {st₁ st₂ st₃ : StreamState} (h : Evolves st₁ st₂) (h' : Evolves st₂ st₃) :
    Evolves st₁ st₃ :=
  ⟨h'.owner.trans h.owner, h'.paused.trans h.paused, h'.subs.trans h.subs, h'.pub.trans h.pub,
    fun hlt => h'.level (h.level hlt)⟩

/-- Every stream of the one table is in the other one, evolved. -/
def AllEvolve (G G' : Governor) : Prop :=
  ∀ t, (G.streams.get t = none ∧ G'.streams.get t = none) ∨
    ∃ st st', G.streams.get t = some st ∧ G'.streams.get t = some st' ∧ Evolves st st'

theorem AllEvolve.refl (G : Governor) : AllEvolve G G := by
  intro t
  cases hget : G.streams.get t with
  | none => exact .inl ⟨rfl, rfl⟩
  | some st => exact .inr ⟨st, st, rfl, rfl, .refl st⟩

theorem AllEvolve.trans {G₁ G₂ G₃ : Governor} (h : AllEvolve G₁ G₂) (h' : AllEvolve G₂ G₃) :
    AllEvolve G₁ G₃ := by
  intro t
  rcases h t with ⟨hnone, hnone'⟩ | ⟨st, st', hst, hst', hev⟩
  · rcases h' t with ⟨-, hnone''⟩ | ⟨u, _, hu, -, -⟩
    · exact .inl ⟨hnone, hnone''⟩
    · rw [hnone'] at hu
      cases hu
  · rcases h' t with ⟨hnone', -⟩ | ⟨u, u', hu, hu', hev'⟩
    · rw [hnone'] at hst'
      cases hst'
    · have heq : u = st' := Option.some.inj (hu.symm.trans hst')
      subst heq
      exact .inr ⟨st, u', hst, hu', hev.trans hev'⟩

/-- One entry is replaced by an evolved one. -/
theorem allEvolve_set {s : String} {st st' : StreamState} (hst : G.streams.get s = some st)
    (hev : Evolves st st') : AllEvolve G { G with streams := G.streams.set s st' } := by
  intro t
  by_cases hts : t = s
  · subst hts
    exact .inr ⟨st, st', hst, InsertionMap.get_set_self .., hev⟩
  · have hsame : (G.streams.set s st').get t = G.streams.get t := InsertionMap.get_set_ne _ _ hts
    rcases AllEvolve.refl G t with ⟨hnone, -⟩ | ⟨u, u', hu, hu', hev'⟩
    · exact .inl ⟨hnone, hsame.trans hnone⟩
    · exact .inr ⟨u, u', hu, hsame.trans hu', hev'⟩

theorem nextLevel_lt (G : Governor) {st : StreamState} (h : st.level < qualityLadder.length) :
    (G.nextLevel st).1 < qualityLadder.length := by
  unfold nextLevel
  dsimp only
  split
  · split
    · next hlt =>
      show st.level + 1 < qualityLadder.length
      omega
    · exact h
  · split
    · show st.level - 1 < qualityLadder.length
      omega
    · exact h

/-- The directive is one for a stream that is not paused, at a level of the ladder. -/
structure FromLadder (G : Governor) (d : GovernorDirective) : Prop where
  stream : ∃ st, G.streams.get d.streamId = some st ∧ st.paused = false ∧
    d.ownerPeerId = st.ownerPeerId
  rate : (∀ s st, G.streams.get s = some st → st.level < qualityLadder.length) →
    ∃ level < qualityLadder.length, d.maxKbps = round (G.baseKbps * (levelAt level).kbpsFactor)

/-- A directive of a later turn is one for the table at the beginning. -/
theorem FromLadder.back {G' : Governor} {d : GovernorDirective} (h : FromLadder G' d)
    (hev : AllEvolve G G') (hbase : G'.baseKbps = G.baseKbps) : FromLadder G d := by
  obtain ⟨⟨st', hst', hpaused, howner⟩, hrate⟩ := h
  refine ⟨?_, fun hlevel => ?_⟩
  · rcases hev d.streamId with ⟨-, hnone⟩ | ⟨st, u, hst, hu, hev'⟩
    · rw [hnone] at hst'
      cases hst'
    · have heq : u = st' := Option.some.inj (hu.symm.trans hst')
      subst heq
      exact ⟨st, hst, hev'.paused.symm.trans hpaused, howner.trans hev'.owner⟩
  · rw [← hbase]
    refine hrate fun s st hst => ?_
    rcases hev s with ⟨-, hnone⟩ | ⟨u, u', hu, hu', hev'⟩
    · rw [hnone] at hst
      cases hst
    · have heq : u' = st := Option.some.inj (hu'.symm.trans hst)
      subst heq
      exact hev'.level (hlevel s u hu)

/-- One turn of the loop. -/
theorem evaluateStream_spec (G : Governor) {s : String} {st : StreamState}
    (hst : G.streams.get s = some st) :
    (G.evaluateStream s st).1.baseKbps = G.baseKbps ∧
    AllEvolve G (G.evaluateStream s st).1 ∧
    (∀ t, t ≠ s → (G.evaluateStream s st).1.streams.get t = G.streams.get t) ∧
    ∀ d ∈ (G.evaluateStream s st).2, FromLadder G d := by
  unfold evaluateStream
  split
  · exact ⟨rfl, .refl G, fun _ _ => rfl, fun d hd => by cases hd⟩
  · next hwindow =>
    dsimp only
    split
    · exact ⟨rfl, allEvolve_set hst ⟨rfl, rfl, rfl, rfl, id⟩,
        fun t ht => InsertionMap.get_set_ne _ _ ht, fun d hd => by cases hd⟩
    · refine ⟨rfl, allEvolve_set hst ⟨rfl, rfl, rfl, rfl, G.nextLevel_lt⟩,
        fun t ht => InsertionMap.get_set_ne _ _ ht, fun d hd => ?_⟩
      cases List.mem_singleton.mp hd
      refine ⟨⟨st, hst, ?_, rfl⟩, fun hlevel => ⟨_, G.nextLevel_lt (hlevel s st hst), rfl⟩⟩
      unfold StreamState.hasWindow at hwindow
      cases hp : st.paused with
      | false => rfl
      | true => simp [hp] at hwindow

/-- The loop, over entries of the table with distinct keys. -/
theorem evaluateAll_spec (es : List (String × StreamState)) : ∀ G : Governor,
    (es.map Prod.fst).Nodup → (∀ s st, (s, st) ∈ es → G.streams.get s = some st) →
    (G.evaluateAll es).1.baseKbps = G.baseKbps ∧ AllEvolve G (G.evaluateAll es).1 ∧
    ∀ d ∈ (G.evaluateAll es).2, FromLadder G d := by
  induction es with
  | nil =>
    intro G _ _
    exact ⟨rfl, .refl G, fun d hd => by cases hd⟩
  | cons entry es ih =>
    intro G hnodup hmem
    obtain ⟨s, st⟩ := entry
    rw [List.map_cons, List.nodup_cons] at hnodup
    obtain ⟨hbase, hev, hother, hdirs⟩ := G.evaluateStream_spec (hmem s st List.mem_cons_self)
    generalize hG₁ : G.evaluateStream s st = res at hbase hev hother hdirs
    obtain ⟨hbase', hev', hdirs'⟩ := ih res.1 hnodup.2 fun t u hin => by
      have hne : t ≠ s := by
        rintro rfl
        exact hnodup.1 (List.mem_map.mpr ⟨_, hin, rfl⟩)
      rw [hother t hne]
      exact hmem t u (List.mem_cons_of_mem _ hin)
    have hall : G.evaluateAll ((s, st) :: es) =
        ((res.1.evaluateAll es).1, res.2 ++ (res.1.evaluateAll es).2) := by
      rw [evaluateAll, hG₁]
    rw [hall]
    refine ⟨hbase'.trans hbase, hev.trans hev', fun d hd => ?_⟩
    rcases List.mem_append.mp hd with hfirst | hrest
    · exact hdirs d hfirst
    · exact (hdirs' d hrest).back hev hbase

/-- **An evaluation** changes levels and streaks only, and every directive it sends is one for a
stream that is not paused. -/
theorem evaluate_spec (G : Governor) :
    G.evaluate.1.baseKbps = G.baseKbps ∧ AllEvolve G G.evaluate.1 ∧
      ∀ d ∈ G.evaluate.2, FromLadder G d :=
  evaluateAll_spec _ G G.streams.nodup fun _ _ hin => (InsertionMap.mem_entries _ _ _).mp hin

/-! ### The router's events -/

/-- What one output of the router makes the governor do. -/
def heard : Output → Governor → Governor
  | .streamLive info, G => G.register info.streamId info.ownerPeerId
  | .streamEnded s, G => G.forget s
  | .demandChanged s _ subscribers, G => G.setPaused s (subscribers = 0)
  | _, G => G

/-- The same for the entry of one stream. -/
def heardAt (s : String) (st : Option StreamState) : Output → Option StreamState
  | .streamLive info => if s = info.streamId then some (st.getD (fresh info.ownerPeerId)) else st
  | .streamEnded t => if s = t then none else st
  | .demandChanged t _ subscribers =>
    if s = t then st.map fun st => { st with paused := subscribers = 0 } else st
  | _ => st

theorem get_heard (o : Output) (G : Governor) (s : String) :
    (heard o G).streams.get s = heardAt s (G.streams.get s) o := by
  cases o with
  | streamLive info =>
    show (G.register _ _).streams.get s = _
    rw [get_register]
    simp only [heardAt]
    split
    · next heq => rw [heq]
    · rfl
  | streamEnded t => exact get_forget ..
  | demandChanged t owner n =>
    show (G.setPaused _ _).streams.get s = _
    rw [get_setPaused]
    simp only [heardAt]
    split
    · next heq => rw [heq]
    · rfl
  | answered => rfl
  | resolved => rfl
  | rejected => rfl

theorem baseKbps_heard (o : Output) (G : Governor) : (heard o G).baseKbps = G.baseKbps := by
  cases o with
  | streamLive info =>
    show (G.register _ _).baseKbps = _
    unfold register
    split <;> rfl
  | streamEnded => rfl
  | demandChanged => exact baseKbps_modify ..
  | answered => rfl
  | resolved => rfl
  | rejected => rfl

end Governor

theorem onOutput_governor (M : MediaPlane) (o : Output) :
    (M.onOutput o).1.governor = Governor.heard o M.governor := by
  cases o with
  | demandChanged s owner n =>
    rw [MediaPlane.onOutput]
    split
    · next h => simp [Governor.heard, h]
    · next h => simp [Governor.heard, h]
  | streamLive => rfl
  | streamEnded => rfl
  | answered => rfl
  | resolved => rfl
  | rejected => rfl

/-- The entry of one stream after all the outputs of a step. -/
theorem onOutputs_get (os : List Output) : ∀ (M : MediaPlane) (s : String),
    (M.onOutputs os).1.governor.streams.get s =
      os.foldl (Governor.heardAt s) (M.governor.streams.get s) := by
  induction os with
  | nil => intro M s; rfl
  | cons o os ih =>
    intro M s
    show ((M.onOutput o).1.onOutputs os).1.governor.streams.get s = _
    rw [ih, onOutput_governor, Governor.get_heard]
    rfl

theorem onOutputs_baseKbps (os : List Output) : ∀ M : MediaPlane,
    (M.onOutputs os).1.governor.baseKbps = M.governor.baseKbps := by
  induction os with
  | nil => intro M; rfl
  | cons o os ih =>
    intro M
    show ((M.onOutput o).1.onOutputs os).1.governor.baseKbps = _
    rw [ih, onOutput_governor, Governor.baseKbps_heard]

/-! ### Reports -/

/-- What a report of `p` makes of the entry of stream `s`. -/
structure Ingested (p : PeerId) (s : String) (subs : List SubscriptionStats)
    (pubs : List PublicationStats) (st st' : Governor.StreamState) : Prop where
  owner : st'.ownerPeerId = st.ownerPeerId
  level : st'.level = st.level
  paused : st'.paused = st.paused
  /-- whose samples are held: those of before, and the reporter's if the report names the stream -/
  subs : ∀ q, st'.subs.has q = true ↔
    st.subs.has q = true ∨ (q = p.text ∧ s ∈ subs.map SubscriptionStats.streamId)
  pub : st'.pub = none ↔ st.pub = none ∧ s ∉ pubs.map PublicationStats.streamId

theorem ingested_subs (p : PeerId) (s : String) (subs : List SubscriptionStats) :
    ∀ (G : Governor) (st : Governor.StreamState), G.streams.get s = some st →
      ∃ st', (subs.foldl (fun G sub => G.ingestSubscriber
          ⟨sub.streamId, p.text, sub.fractionLost, sub.rttMs, sub.fps⟩) G).streams.get s = some st' ∧
        Ingested p s subs [] st st' := by
  induction subs with
  | nil =>
    intro G st hst
    exact ⟨st, hst, rfl, rfl, rfl, fun q => by simp, by simp⟩
  | cons sub subs ih =>
    intro G st hst
    by_cases hs : s = sub.streamId
    · have hnext : (G.ingestSubscriber ⟨sub.streamId, p.text, sub.fractionLost, sub.rttMs,
          sub.fps⟩).streams.get s = some { st with subs := (st.subs.set p.text
            ⟨sub.streamId, p.text, sub.fractionLost, sub.rttMs, sub.fps⟩) } := by
        unfold Governor.ingestSubscriber
        rw [Governor.get_modify, if_pos hs, ← hs, hst]
        rfl
      obtain ⟨st', hst', hin⟩ := ih _ _ hnext
      refine ⟨st', hst', hin.owner, hin.level, hin.paused, fun q => ?_, hin.pub⟩
      rw [hin.subs q, InsertionMap.has_set, List.map_cons, List.mem_cons, ← hs]
      tauto
    · have hnext : (G.ingestSubscriber ⟨sub.streamId, p.text, sub.fractionLost, sub.rttMs,
          sub.fps⟩).streams.get s = some st := by
        unfold Governor.ingestSubscriber
        rw [Governor.get_modify, if_neg hs, hst]
      obtain ⟨st', hst', hin⟩ := ih _ _ hnext
      refine ⟨st', hst', hin.owner, hin.level, hin.paused, fun q => ?_, hin.pub⟩
      rw [hin.subs q, List.map_cons, List.mem_cons]
      simp [hs]

theorem ingested_pubs (p : PeerId) (s : String) (pubs : List PublicationStats) :
    ∀ (G : Governor) (st : Governor.StreamState), G.streams.get s = some st →
      ∃ st', (pubs.foldl (fun G pub => G.ingestPublisher
          ⟨pub.streamId, pub.cpuPressure, pub.fps⟩) G).streams.get s = some st' ∧
        Ingested p s [] pubs st st' := by
  induction pubs with
  | nil =>
    intro G st hst
    exact ⟨st, hst, rfl, rfl, rfl, fun q => by simp, by simp⟩
  | cons pub pubs ih =>
    intro G st hst
    by_cases hs : s = pub.streamId
    · have hnext : (G.ingestPublisher ⟨pub.streamId, pub.cpuPressure, pub.fps⟩).streams.get s =
          some { st with pub := some ⟨pub.streamId, pub.cpuPressure, pub.fps⟩ } := by
        unfold Governor.ingestPublisher
        rw [Governor.get_modify, if_pos hs, ← hs, hst]
        rfl
      obtain ⟨st', hst', hin⟩ := ih _ _ hnext
      refine ⟨st', hst', hin.owner, hin.level, hin.paused, hin.subs, ?_⟩
      rw [hin.pub]
      simp [hs]
    · have hnext : (G.ingestPublisher ⟨pub.streamId, pub.cpuPressure, pub.fps⟩).streams.get s =
          some st := by
        unfold Governor.ingestPublisher
        rw [Governor.get_modify, if_neg hs, hst]
      obtain ⟨st', hst', hin⟩ := ih _ _ hnext
      refine ⟨st', hst', hin.owner, hin.level, hin.paused, hin.subs, ?_⟩
      rw [hin.pub, List.map_cons, List.mem_cons]
      simp [hs]

/-- **A report** changes the entries of the streams it names, if the governor knows them. -/
theorem ingest_get (M : MediaPlane) (p : PeerId) (subs : List SubscriptionStats)
    (pubs : List PublicationStats) {s : String} {st : Governor.StreamState}
    (hst : M.governor.streams.get s = some st) :
    ∃ st', (M.ingest p subs pubs).governor.streams.get s = some st' ∧
      Ingested p s subs pubs st st' := by
  obtain ⟨st₁, hst₁, hsubs⟩ := ingested_subs p s subs M.governor st hst
  obtain ⟨st₂, hst₂, hpubs⟩ := ingested_pubs p s pubs _ st₁ hst₁
  refine ⟨st₂, hst₂, hpubs.owner.trans hsubs.owner, hpubs.level.trans hsubs.level,
    hpubs.paused.trans hsubs.paused, fun q => ?_, ?_⟩
  · rw [hpubs.subs q, hsubs.subs q]
    simp
  · rw [hpubs.pub, hsubs.pub]
    simp

/-- A report does not make the governor know a stream. -/
theorem ingest_none (M : MediaPlane) (p : PeerId) (subs : List SubscriptionStats)
    (pubs : List PublicationStats) {s : String} (hnone : M.governor.streams.get s = none) :
    (M.ingest p subs pubs).governor.streams.get s = none := by
  have hmodify : ∀ (G : Governor) (t : String) (f : Governor.StreamState → Governor.StreamState),
      G.streams.get s = none → (G.modify t f).streams.get s = none := by
    intro G t f h
    rw [Governor.get_modify]
    split
    · next heq => rw [← heq, h]; rfl
    · exact h
  have hsubs : ∀ G : Governor, G.streams.get s = none → (subs.foldl (fun G sub =>
      G.ingestSubscriber ⟨sub.streamId, p.text, sub.fractionLost, sub.rttMs, sub.fps⟩)
      G).streams.get s = none := by
    induction subs with
    | nil => exact fun G h => h
    | cons sub subs ih => exact fun G h => ih _ (hmodify G _ _ h)
  have hpubs : ∀ G : Governor, G.streams.get s = none → (pubs.foldl (fun G pub =>
      G.ingestPublisher ⟨pub.streamId, pub.cpuPressure, pub.fps⟩) G).streams.get s = none := by
    induction pubs with
    | nil => exact fun G h => h
    | cons pub pubs ih => exact fun G h => ih _ (hmodify G _ _ h)
  exact hpubs _ (hsubs _ hnone)

theorem ingest_baseKbps (M : MediaPlane) (p : PeerId) (subs : List SubscriptionStats)
    (pubs : List PublicationStats) :
    (M.ingest p subs pubs).governor.baseKbps = M.governor.baseKbps := by
  have hsubs : ∀ G : Governor, (subs.foldl (fun G sub => G.ingestSubscriber
      ⟨sub.streamId, p.text, sub.fractionLost, sub.rttMs, sub.fps⟩) G).baseKbps = G.baseKbps := by
    induction subs with
    | nil => exact fun G => rfl
    | cons sub subs ih => exact fun G => (ih _).trans (G.baseKbps_modify _ _)
  have hpubs : ∀ G : Governor, (pubs.foldl (fun G pub => G.ingestPublisher
      ⟨pub.streamId, pub.cpuPressure, pub.fps⟩) G).baseKbps = G.baseKbps := by
    induction pubs with
    | nil => exact fun G => rfl
    | cons pub pubs ih => exact fun G => (ih _).trans (G.baseKbps_modify _ _)
  exact (hpubs _).trans (hsubs _)

end ScreenSharing.Sfu
