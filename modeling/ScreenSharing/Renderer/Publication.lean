import Mathlib.Data.List.Induction
import ScreenSharing.Lib.Machine
import ScreenSharing.Shared.Protocol

/-!
# The local publication in the renderer

The publishing half of `useMedia`: the stream that is published, the connection that sends it, and what the
handler of media messages does to its senders.  A `quality_directive` with rate 0 takes the track of every
sender away, and one with another rate puts it back.  To know which track that is, the handler asks for the
kind of the track that the sender has; a sender without one passes for video.

`replaceTrack` refuses a track of another kind, and what it changes it changes at once.
-/

namespace ScreenSharing.Renderer

open Lib

inductive TrackKind
  | audio
  | video
  deriving DecidableEq

/-- A `MediaStreamTrack`. -/
structure Track where
  id : String
  kind : TrackKind
  deriving DecidableEq

/-- A `MediaStream`, by its `getTracks()`. -/
structure MediaStream where
  tracks : List Track

namespace MediaStream

def getAudioTracks (stream : MediaStream) : List Track := stream.tracks.filter fun t => t.kind = .audio

def getVideoTracks (stream : MediaStream) : List Track := stream.tracks.filter fun t => t.kind = .video

/-- The track of a kind: the first one. -/
def first (stream : MediaStream) : TrackKind → Option Track
  | .audio => stream.getAudioTracks.head?
  | .video => stream.getVideoTracks.head?

end MediaStream

/-- `RTCRtpEncodingParameters`. -/
structure Encoding where
  maxBitrate : Option ℤ
  maxFramerate : Option ℕ
  scaleResolutionDownBy : Option ℚ
  deriving DecidableEq

/-- An `RTCRtpSender`; its transceiver has the kind that it was made with. -/
structure Sender where
  kind : TrackKind
  track : Option Track
  encodings : List Encoding
  deriving DecidableEq

namespace Sender

/-- `replaceTrack`. -/
def replaceTrack (track : Option Track) (sender : Sender) : Sender :=
  match track with
  | none => { sender with track := none }
  | some t => if t.kind = sender.kind then { sender with track := some t } else sender

/-- The new parameters, which `setParameters` takes. -/
def setParameters (d : QualityDirective) (sender : Sender) : Sender :=
  let encodings := if sender.encodings.isEmpty then [⟨none, none, none⟩] else sender.encodings
  { sender with
    encodings := encodings.modifyHead fun enc =>
      { enc with
        maxBitrate := some (d.maxKbps * 1000)
        maxFramerate := if d.maxFps = 0 then enc.maxFramerate else some d.maxFps
        scaleResolutionDownBy := some d.scaleDownBy } }

/-- The body of the loop of `quality_directive`. -/
def direct (src : Option MediaStream) (d : QualityDirective) (sender : Sender) : Sender :=
  let kind := (sender.track.map Track.kind).getD .video
  if d.maxKbps = 0 then sender.replaceTrack none
  else
    match src with
    | none => sender
    | some src =>
      let track := sender.track.or (match kind with
        | .audio => src.getAudioTracks.head?
        | .video => src.getVideoTracks.head?)
      let sender' :=
        if track.isSome ∧ sender.track ≠ track then sender.replaceTrack track else sender
      match kind with
      | .audio => sender'
      | .video => sender'.setParameters d

end Sender

/-- The state and the refs of `useMedia` that belong to the local publication. -/
structure Engine where
  localId : Option String
  publishStream : Option MediaStream
  /-- the senders of `publishPc` -/
  publishPc : Option (List Sender)
  publishIdle : Bool
  localStream : Option MediaStream

inductive Event
  | publish (stream : MediaStream) (streamId : String)
  /-- the offer that `publish` waits for is there -/
  | offered (stream : MediaStream) (streamId sdp : String)
  | unpublish
  | directive (d : QualityDirective)

namespace Engine

def new : Engine := ⟨none, none, none, false, none⟩

def unpublish (E : Engine) : Engine × List Body :=
  (new, E.localId.toList.map .unpublish)

/-- `publish`, until its first `await`. -/
def publish (stream : MediaStream) (streamId : String) (E : Engine) : Engine × List Body :=
  let (E, out) := E.unpublish
  ({ E with
      publishPc := some (stream.tracks.map fun t => ⟨t.kind, some t, []⟩)
      publishStream := some stream
      localId := some streamId }, out)

/-- The rest of `publish`.  It does not ask whether the stream is still the one that is published. -/
def offered (stream : MediaStream) (streamId sdp : String) (E : Engine) : Engine × List Body :=
  ({ E with localStream := some stream },
    [.publishOffer streamId (!stream.getVideoTracks.isEmpty) (!stream.getAudioTracks.isEmpty) sdp])

/-- The `quality_directive` case of `handleMediaBody`. -/
def directive (d : QualityDirective) (E : Engine) : Engine :=
  if E.localId ≠ some d.streamId then E
  else
    match E.publishPc with
    | none => E
    | some senders =>
      { E with
        publishPc := some (senders.map (Sender.direct E.publishStream d))
        publishIdle := d.maxKbps = 0 }

end Engine

def engine : Machine Engine Event Body where
  enabled := fun _ _ => True
  step E e :=
    match e with
    | .publish stream streamId => E.publish stream streamId
    | .offered stream streamId sdp => E.offered stream streamId sdp
    | .unpublish => E.unpublish
    | .directive d => (E.directive d, [])

variable {src : MediaStream} {sender : Sender} {senders : List Sender} {d : QualityDirective}

/-! ### One sender -/

/-- The sender has the track of its kind, or none. -/
def Sender.Attached (src : MediaStream) (sender : Sender) : Prop :=
  sender.track = none ∨ sender.track = src.first sender.kind

theorem kind_of_first {kind : TrackKind} {t : Track} (h : src.first kind = some t) : t.kind = kind := by
  cases kind with
  | audio => exact of_decide_eq_true (List.mem_filter.mp (List.mem_of_head? h)).2
  | video => exact of_decide_eq_true (List.mem_filter.mp (List.mem_of_head? h)).2

@[simp] theorem kind_replaceTrack (track : Option Track) :
    (sender.replaceTrack track).kind = sender.kind := by
  unfold Sender.replaceTrack
  split
  · rfl
  · split <;> rfl

@[simp] theorem kind_setParameters : (sender.setParameters d).kind = sender.kind := rfl

@[simp] theorem track_setParameters : (sender.setParameters d).track = sender.track := rfl

@[simp] theorem kind_direct (src : Option MediaStream) : (sender.direct src d).kind = sender.kind := by
  unfold Sender.direct
  dsimp only
  split
  · exact kind_replaceTrack _
  · split
    · rfl
    · split
      all_goals
        simp only [kind_setParameters]
        split
        · exact kind_replaceTrack _
        · rfl

theorem track_direct_zero (src : Option MediaStream) (hzero : d.maxKbps = 0) :
    (sender.direct src d).track = none := by
  unfold Sender.direct
  dsimp only
  rw [if_pos hzero]
  rfl

/-- A sender that has a track keeps it. -/
theorem track_direct_some (hne : d.maxKbps ≠ 0) {t : Track} (ht : sender.track = some t) :
    (sender.direct (some src) d).track = some t := by
  unfold Sender.direct
  dsimp only
  rw [if_neg hne, ht]
  dsimp only [Option.map_some, Option.getD_some]
  generalize t.kind = kind
  cases kind <;> simp [ht]

/-- One that has none gets the video track, if it takes it. -/
theorem track_direct_none (hne : d.maxKbps ≠ 0) (hnone : sender.track = none) :
    (sender.direct (some src) d).track =
      match sender.kind with
      | .audio => none
      | .video => src.first .video := by
  unfold Sender.direct
  dsimp only
  rw [if_neg hne, hnone]
  dsimp only [Option.map_none, Option.getD_none, Option.none_or]
  rw [track_setParameters]
  have hvideo : src.getVideoTracks.head? = src.first .video := rfl
  rw [hvideo]
  cases hfirst : src.first .video with
  | none => cases sender.kind <;> simp [hnone]
  | some t =>
    have hkind := kind_of_first hfirst
    cases hsender : sender.kind <;> simp [Sender.replaceTrack, hkind, hsender, hnone]

/-! ### A sequence of directives -/

/-- A sender after some directives. -/
def Sender.directs (src : MediaStream) (ds : List QualityDirective) (sender : Sender) : Sender :=
  ds.foldl (fun sender d => sender.direct (some src) d) sender

theorem directs_snoc (ds : List QualityDirective) :
    sender.directs src (ds ++ [d]) = (sender.directs src ds).direct (some src) d :=
  List.foldl_concat ..

theorem kind_directs (ds : List QualityDirective) : (sender.directs src ds).kind = sender.kind := by
  induction ds using List.reverseRecOn with
  | nil => rfl
  | append_singleton ds d ih => rw [directs_snoc, kind_direct, ih]

/-- **A video sender** always has its track or none. -/
theorem attached_directs (hvideo : sender.kind = .video) (h : sender.Attached src)
    (ds : List QualityDirective) : (sender.directs src ds).Attached src := by
  induction ds using List.reverseRecOn with
  | nil => exact h
  | append_singleton ds d ih =>
    rw [directs_snoc]
    by_cases hzero : d.maxKbps = 0
    · exact .inl (track_direct_zero _ hzero)
    · have hkind : (sender.directs src ds).kind = .video := (kind_directs ds).trans hvideo
      cases htrack : (sender.directs src ds).track with
      | none =>
        refine .inr ?_
        rw [track_direct_none hzero htrack, kind_direct, hkind]
      | some t =>
        rw [Sender.Attached, track_direct_some hzero htrack, kind_direct, ← htrack]
        exact ih

/-- **An audio sender** has its track until the first pause, and then none. -/
theorem track_directs_audio (haudio : sender.kind = .audio) (ds : List QualityDirective) :
    (sender.directs src ds).track = if ∃ d ∈ ds, d.maxKbps = 0 then none else sender.track := by
  induction ds using List.reverseRecOn with
  | nil => simp [Sender.directs]
  | append_singleton ds d ih =>
    rw [directs_snoc]
    by_cases hzero : d.maxKbps = 0
    · rw [track_direct_zero _ hzero, if_pos ⟨d, by simp, hzero⟩]
    · have hkind : (sender.directs src ds).kind = .audio := (kind_directs ds).trans haudio
      have hsame : (∃ d' ∈ ds ++ [d], d'.maxKbps = 0) ↔ ∃ d' ∈ ds, d'.maxKbps = 0 := by
        simp [or_and_right, exists_or, hzero]
      rw [if_congr hsame rfl rfl, ← ih]
      cases htrack : (sender.directs src ds).track with
      | none => rw [track_direct_none hzero htrack, hkind]
      | some t => exact track_direct_some hzero htrack

/-! ### Pausing and resuming -/

/-- **What a directive asks for**: no tracks at rate 0, and otherwise the track of its kind for every
sender, where the source has one. -/
def Obeyed (src : MediaStream) (d : QualityDirective) (sender : Sender) : Prop :=
  (d.maxKbps = 0 → sender.track = none) ∧
    (0 < d.maxKbps → ∀ t ∈ src.first sender.kind, sender.track = some t)

/-- Every directive of a sequence finds itself obeyed. -/
def AllObeyed (src : MediaStream) (ds : List QualityDirective) (sender : Sender) : Prop :=
  ∀ pre d post, ds = pre ++ d :: post → Obeyed src d (sender.directs src (pre ++ [d]))

/-- The condition on a sender: if it is for audio, and the source has audio, then it starts with its track,
and no directive with a rate comes after one without. -/
def NeverSilenced (src : MediaStream) (ds : List QualityDirective) (sender : Sender) : Prop :=
  sender.kind = .audio → src.first .audio ≠ none →
    ∀ pre d post, ds = pre ++ d :: post → 0 < d.maxKbps →
      sender.track ≠ none ∧ ∀ d' ∈ pre, d'.maxKbps ≠ 0

/-- **One sender**, in any sequence of directives. -/
theorem allObeyed_iff (h : sender.Attached src) (ds : List QualityDirective) :
    AllObeyed src ds sender ↔ NeverSilenced src ds sender := by
  have hpaused : ∀ pre d, d.maxKbps = 0 → (sender.directs src (pre ++ [d])).track = none := by
    intro pre d hzero
    rw [directs_snoc]
    exact track_direct_zero _ hzero
  cases hkind : sender.kind with
  | video =>
    refine iff_of_true (fun pre d post _ => ⟨hpaused pre d, fun hpos t ht => ?_⟩)
      fun haudio => by rw [hkind] at haudio; cases haudio
    rw [kind_directs, hkind] at ht
    have hpre := attached_directs hkind h pre
    rw [directs_snoc]
    cases htrack : (sender.directs src pre).track with
    | none =>
      rw [track_direct_none (by omega) htrack, kind_directs, hkind]
      exact ht
    | some u =>
      have hsame : (sender.directs src pre).kind = sender.kind := kind_directs pre
      rw [track_direct_some (by omega) htrack, ← ht, ← htrack, ← hkind, ← hsame]
      exact hpre.resolve_left (by simp [htrack])
  | audio =>
    constructor
    · intro hobeyed _ hsource pre d post hds hpos
      obtain ⟨t, ht⟩ := Option.ne_none_iff_exists'.mp hsource
      have htrack := (hobeyed pre d post hds).2 hpos t (by rw [kind_directs, hkind]; exact ht)
      rw [track_directs_audio hkind] at htrack
      split at htrack
      · cases htrack
      · next hnone =>
        refine ⟨by simp [htrack], fun d' hd' hzero => hnone ⟨d', ?_, hzero⟩⟩
        exact List.mem_append_left _ hd'
    · intro hnever pre d post hds
      refine ⟨hpaused pre d, fun hpos t ht => ?_⟩
      rw [kind_directs, hkind] at ht
      obtain ⟨hstarts, hpre⟩ := hnever hkind (by rw [ht]; simp) pre d post hds hpos
      have hrate : ¬ ∃ d' ∈ pre ++ [d], d'.maxKbps = 0 := by
        rintro ⟨d', hd', hzero⟩
        rcases List.mem_append.mp hd' with hmem | hmem
        · exact hpre d' hmem hzero
        · rw [List.mem_singleton.mp hmem] at hzero
          omega
      rw [track_directs_audio hkind, if_neg hrate, ← ht, ← hkind]
      exact h.resolve_left hstarts

/-! ### The publication -/

variable {E : Engine} {streamId : String}

/-- Directives for the local stream go to every sender. -/
theorem exec_directives (hid : E.localId = some streamId) (hsrc : E.publishStream = some src)
    (hpc : E.publishPc = some senders) (ds : List QualityDirective)
    (hlocal : ∀ d ∈ ds, d.streamId = streamId) :
    (engine.exec E (ds.map .directive)).localId = some streamId ∧
      (engine.exec E (ds.map .directive)).publishStream = some src ∧
      (engine.exec E (ds.map .directive)).publishPc = some (senders.map (Sender.directs src ds)) := by
  induction ds using List.reverseRecOn with
  | nil =>
    have hnone : Sender.directs src [] = id := rfl
    rw [hnone, List.map_id]
    exact ⟨hid, hsrc, hpc⟩
  | append_singleton ds d ih =>
    obtain ⟨hid', hsrc', hpc'⟩ := ih fun d' hd' => hlocal d' (List.mem_append_left _ hd')
    have hd : d.streamId = streamId := hlocal d (by simp)
    rw [List.map_append, Machine.exec_append]
    generalize engine.exec E (ds.map .directive) = E' at hid' hsrc' hpc'
    have hstep : engine.exec E' ([d].map .directive) =
        { E' with
          publishPc := some ((senders.map (Sender.directs src ds)).map (Sender.direct (some src) d))
          publishIdle := d.maxKbps = 0 } := by
      show E'.directive d = _
      unfold Engine.directive
      rw [if_neg (by rw [hid', hd]; simp), hpc', hsrc']
    rw [hstep]
    refine ⟨hid', hsrc', congrArg some ?_⟩
    rw [List.map_map]
    exact List.map_congr_left fun sender _ => (directs_snoc ds).symm

/-- Behind every directive, the senders carry what it asks for. -/
def Restores (E : Engine) (src : MediaStream) (ds : List QualityDirective) : Prop :=
  ∀ pre d post, ds = pre ++ d :: post →
    ∀ senders ∈ (engine.exec E ((pre ++ [d]).map .directive)).publishPc, ∀ sender ∈ senders,
      Obeyed src d sender

/-- **Resuming restores what was paused exactly if no sound was**: for any senders, each with the track of
its kind or none, and any directives for the local stream. -/
theorem restores_iff (hid : E.localId = some streamId) (hsrc : E.publishStream = some src)
    (hpc : E.publishPc = some senders) (hattached : ∀ sender ∈ senders, sender.Attached src)
    (ds : List QualityDirective) (hlocal : ∀ d ∈ ds, d.streamId = streamId) :
    Restores E src ds ↔ ∀ sender ∈ senders, NeverSilenced src ds sender := by
  have hpcs : ∀ pre d post, ds = pre ++ d :: post →
      (engine.exec E ((pre ++ [d]).map .directive)).publishPc =
        some (senders.map (Sender.directs src (pre ++ [d]))) := by
    intro pre d post hds
    refine (exec_directives hid hsrc hpc _ fun d' hd' => hlocal d' ?_).2.2
    rw [hds]
    simp only [List.mem_append, List.mem_cons, List.not_mem_nil, or_false] at hd' ⊢
    tauto
  constructor
  · intro hrestores sender hsender
    refine (allObeyed_iff (hattached sender hsender) ds).mp fun pre d post hds => ?_
    exact hrestores pre d post hds _ (hpcs pre d post hds) _ (List.mem_map_of_mem hsender)
  · intro hnever pre d post hds senders' hsenders' sender hsender
    rw [hpcs pre d post hds] at hsenders'
    cases hsenders'
    obtain ⟨sender, hmem, rfl⟩ := List.mem_map.mp hsender
    exact (allObeyed_iff (hattached sender hmem) ds).mpr (hnever sender hmem) pre d post hds

/-- **What `publish` makes**: with one track of a kind at most, every sender has the track of its kind. -/
theorem attached_publish {stream : MediaStream} (E : Engine) (streamId : String)
    (hone : ∀ t ∈ stream.tracks, stream.first t.kind = some t) :
    ∀ senders ∈ (E.publish stream streamId).1.publishPc, ∀ sender ∈ senders,
      sender.Attached stream := by
  intro senders hsenders sender hsender
  cases hsenders
  obtain ⟨t, ht, rfl⟩ := List.mem_map.mp hsender
  exact .inr (hone t ht).symm

/-- A screen with its sound. -/
def screen : MediaStream := ⟨[⟨"sound", .audio⟩, ⟨"picture", .video⟩]⟩

def screenSenders : List Sender := screen.tracks.map fun t => ⟨t.kind, some t, []⟩

/-- The screen is published. -/
def sharing : Engine := (Engine.new.publish screen "s").1

/-- Nobody watches. -/
def pause : QualityDirective := ⟨"s", 0, 0, 1, .noViewers⟩

/-- Somebody does again. -/
def resume : QualityDirective := ⟨"s", 2500, 60, 1, .restored⟩

theorem attached_screen : ∀ sender ∈ screenSenders, sender.Attached screen :=
  attached_publish .new "s" (by decide) screenSenders rfl

/-- Behind a pause the sound does not come back. -/
theorem resumed_silent :
    ¬ ∀ (E : Engine) (src : MediaStream) (senders : List Sender) (streamId : String)
      (ds : List QualityDirective), E.localId = some streamId → E.publishStream = some src →
      E.publishPc = some senders → (∀ sender ∈ senders, sender.Attached src) →
      (∀ d ∈ ds, d.streamId = streamId) → Restores E src ds := by
  intro h
  have hobeyed := h sharing screen screenSenders "s" [pause, resume] rfl rfl rfl attached_screen
    (by decide) [pause] resume [] rfl _ rfl
    -- it passes for a video sender now
    ⟨.audio, none, [⟨some 2500000, some 60, some 1⟩]⟩ (by decide +kernel)
  have hsilent := hobeyed.2 (by decide) ⟨"sound", .audio⟩ rfl
  cases hsilent

theorem restores_iff_screen : Restores sharing screen [resume, pause] ↔
    ∀ sender ∈ screenSenders, NeverSilenced screen [resume, pause] sender :=
  restores_iff rfl rfl rfl attached_screen [resume, pause] (by decide)

end ScreenSharing.Renderer
