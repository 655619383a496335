import ScreenSharing.Signaling.Links

/-!
# What a closing server says on a connection

`Heard` is about a set of connections: some output is a frame on one of them.  This module says, for
the parts that the handlers share, on which connections they send.  Closing a connection on a
closing server sends nothing at all, and a message of a peer is answered on its own connection, and
only if it is a ping.
-/

namespace ScreenSharing.Signaling

open Lib Election SignalingServer

variable {L : Config} {A : Conn → Draw → Prop} {S S' : SignalingServer} {cs : List ℕ}
  {out out' : List Output}

/-- The connection an output is a frame on. -/
def Output.on : Output → Option ℕ
  | .send c _ => some c
  | .sendHandshake c _ => some c
  | _ => none

/-- Some output is a frame on one of the connections. -/
def Heard (cs : List ℕ) (out : List Output) : Prop := ∃ o ∈ out, ∃ c ∈ cs, o.on = some c

def Item.isPing : Item → Bool
  | .message (.ping _ _) => true
  | _ => false

def Frame.isPing : Frame → Bool
  | .binary (some (.ping _ _)) => true
  | _ => false

def Item.isBye : Item → Bool
  | .message (.bye _) => true
  | _ => false

/-- Is there a ping among the held messages, before any `bye`? -/
def pingsFirst : List Item → Bool
  | [] => false
  | item :: rest => item.isPing || (!item.isBye && pingsFirst rest)

/-- A peer whose connection is among `cs`, and open. -/
def OpenLink (cs : List ℕ) (S : SignalingServer) (p : String) (l : PeerLink) : Prop :=
  S.links.get p = some l ∧ l.conn ∈ cs ∧ S.reaches l.conn = true

/-! ### Frames among the outputs -/

@[simp] theorem not_heard_nil : ¬ Heard cs [] := fun ⟨_, ho, _⟩ => by cases ho

theorem heard_append : Heard cs (out ++ out') ↔ Heard cs out ∨ Heard cs out' := by
  unfold Heard
  simp only [List.mem_append]
  constructor
  · rintro ⟨o, ho | ho, h⟩
    · exact .inl ⟨o, ho, h⟩
    · exact .inr ⟨o, ho, h⟩
  · rintro (⟨o, ho, h⟩ | ⟨o, ho, h⟩)
    · exact ⟨o, .inl ho, h⟩
    · exact ⟨o, .inr ho, h⟩

theorem heard_singleton {o : Output} : Heard cs [o] ↔ ∃ c ∈ cs, o.on = some c := by
  simp [Heard]

/-- Outputs that are frames on `c` at most are not heard on other connections. -/
theorem not_heard_of_on {c : ℕ} (hc : c ∉ cs) (h : ∀ o ∈ out, o.on = none ∨ o.on = some c) :
    ¬ Heard cs out := by
  rintro ⟨o, ho, d, hd, hon⟩
  rcases h o ho with hnone | hsome
  · rw [hnone] at hon
    cases hon
  · rw [hsome] at hon
    cases hon
    exact hc hd

theorem not_heard_of_none (h : ∀ o ∈ out, o.on = none) : ¬ Heard cs out := by
  rintro ⟨o, ho, d, _, hon⟩
  rw [h o ho] at hon
  cases hon

theorem heard_send {c : ℕ} {body : Body} :
    Heard cs (S.send c body) ↔ c ∈ cs ∧ S.reaches c = true := by
  unfold SignalingServer.send
  split
  · next h =>
    rw [heard_singleton]
    constructor
    · rintro ⟨d, hd, hon⟩
      cases hon
      exact ⟨hd, h⟩
    · rintro ⟨hc, -⟩
      exact ⟨c, hc, rfl⟩
  · next h => simp [h]

theorem on_send {c : ℕ} {body : Body} : ∀ o ∈ S.send c body, o.on = none ∨ o.on = some c := by
  intro o ho
  rw [mem_send ho]
  exact .inr rfl

theorem on_sendHandshake {c : ℕ} {msg : HostMessage} :
    ∀ o ∈ S.sendHandshake c msg, o.on = none ∨ o.on = some c := by
  intro o ho
  rw [mem_sendHandshake ho]
  exact .inr rfl

theorem heard_broadcast (hlinked : Linked S) {body : Body} {except : Option String} :
    Heard cs (S.broadcast body except) ↔ ∃ p l, OpenLink cs S p l ∧ some p ≠ except := by
  constructor
  · rintro ⟨o, ho, d, hd, hon⟩
    obtain ⟨p, l, hl, hne, rfl, hreach⟩ := mem_broadcast ho
    cases hon
    rw [(hlinked.linked p l hl).1] at hne
    exact ⟨p, l, ⟨hl, hd, hreach⟩, hne⟩
  · rintro ⟨p, l, ⟨hl, hc, hreach⟩, hne⟩
    refine ⟨.send l.conn body, ?_, l.conn, hc, rfl⟩
    refine List.mem_flatMap.mpr ⟨l, (InsertionMap.mem_values _ _).mpr ⟨p, hl⟩, ?_⟩
    rw [(hlinked.linked p l hl).1, if_neg hne, SignalingServer.send, if_pos hreach]
    exact List.mem_singleton_self _

theorem heard_broadcast_all (hlinked : Linked S) {body : Body} :
    Heard cs (S.broadcast body none) ↔ ∃ p l, OpenLink cs S p l := by
  rw [heard_broadcast hlinked]
  simp

theorem heard_sendTo {body : Body} {p : String} :
    Heard cs (S.sendTo p body) ↔ ∃ l, OpenLink cs S p l := by
  unfold SignalingServer.sendTo
  cases hl : S.links.get p with
  | none => simp [OpenLink, hl]
  | some l => simp [OpenLink, hl, heard_send]

/-! ### Closing connections on a closing server -/

/-- The end of a connection on a closing server: its record is marked closed, and nothing is said.
-/
theorem dropConn_closing (hclosing : S.closing = true) {c : ℕ} {k : Conn}
    (hget : S.conns.get c = some k) :
    ∃ k', S.dropConn L c = ({ S with conns := S.conns.set c k' }, []) ∧ k'.closed = true ∧
      (k.stage.admittedAs = none ∨ k'.stage = k.stage) := by
  rw [dropConn_eq hget]
  cases hst : k.stage with
  | admitted p =>
    dsimp only
    rw [onPeerGone_closing (S := { S with conns := S.conns.set c k.shut }) hclosing]
    exact ⟨k.shut, rfl, rfl, .inr hst⟩
  | _ => exact ⟨_, rfl, rfl, .inl rfl⟩

theorem reaches_iff {c : ℕ} : S.reaches c = true ↔
    S.sourceOpen = true ∧ ∃ k, S.conns.get c = some k ∧ k.closed = false := by
  unfold SignalingServer.reaches
  cases hget : S.conns.get c with
  | none => simp
  | some k => simp

theorem reaches_set {c d : ℕ} {k : Conn} (hne : d ≠ c) :
    ({ S with conns := S.conns.set c k } : SignalingServer).reaches d = S.reaches d := by
  unfold SignalingServer.reaches
  dsimp only
  rw [InsertionMap.get_set_ne _ _ hne]
  rfl

/-- Admitted connections stay admitted. -/
def KeepsStages (S S' : SignalingServer) : Prop :=
  ∀ d k, S.conns.get d = some k → k.stage.admittedAs ≠ none →
    ∃ k', S'.conns.get d = some k' ∧ k'.stage = k.stage

theorem KeepsStages.refl : KeepsStages S S := fun _ k hk _ => ⟨k, hk, rfl⟩

theorem KeepsStages.trans {S'' : SignalingServer} (h : KeepsStages S S')
    (h' : KeepsStages S' S'') : KeepsStages S S'' := by
  intro d k hk hadm
  obtain ⟨k', hk', hstage⟩ := h d k hk hadm
  obtain ⟨k'', hk'', hstage'⟩ := h' d k' hk' (by rw [hstage]; exact hadm)
  exact ⟨k'', hk'', hstage'.trans hstage⟩

theorem keepsStages_set {c : ℕ} {k : Conn} (k' : Conn) (hget : S.conns.get c = some k)
    (hstage : k.stage.admittedAs = none ∨ k'.stage = k.stage) :
    KeepsStages S { S with conns := S.conns.set c k' } := by
  intro d kd hkd hadm
  by_cases hd : d = c
  · subst hd
    rw [hget] at hkd
    cases hkd
    exact ⟨k', InsertionMap.get_set_self _ _ _, hstage.resolve_left hadm⟩
  · exact ⟨kd, by rw [InsertionMap.get_set_ne _ _ hd]; exact hkd, rfl⟩

/-- What `Connection.close` does on a closing server. -/
structure Shuts (c : ℕ) (S S' : SignalingServer) (out : List Output) : Prop where
  quiet : ∀ o ∈ out, o.on = none
  reaches : ∀ d, S'.reaches d = true ↔ S.reaches d = true ∧ d ≠ c
  closing : S'.closing = true
  links : S'.links = S.links
  stages : KeepsStages S S'

/-- **`Connection.close` on a closing server**: nothing is said, and that connection is out of
reach. -/
theorem closeConn_closing (hclosing : S.closing = true) (c : ℕ) :
    Shuts c S (S.closeConn L c).1 (S.closeConn L c).2 := by
  by_cases hclosed : ((S.conns.get c).map Conn.closed).getD true = true
  · rw [closeConn_closed hclosed]
    refine ⟨fun o ho => (by cases ho), fun d => ⟨fun hd => ⟨hd, ?_⟩, And.left⟩, hclosing, rfl,
      .refl⟩
    rintro rfl
    obtain ⟨-, k, hk, hopen⟩ := reaches_iff.mp hd
    rw [hk, Option.map_some, Option.getD_some, hopen] at hclosed
    cases hclosed
  · obtain ⟨k, hget⟩ : ∃ k, S.conns.get c = some k := by
      cases hget : S.conns.get c with
      | none =>
        rw [hget] at hclosed
        exact absurd rfl hclosed
      | some k => exact ⟨k, rfl⟩
    have hopen : k.closed = false := by
      rw [hget] at hclosed
      simpa using hclosed
    obtain ⟨k', hdrop, hk'closed, hk'stage⟩ := dropConn_closing (L := L) hclosing hget
    rw [closeConn_open hget hopen, hdrop]
    refine ⟨fun o ho => ?_, fun d => ?_, hclosing, rfl, keepsStages_set _ hget hk'stage⟩
    · rw [List.append_nil] at ho
      split at ho
      · rw [List.mem_singleton.mp ho]
        rfl
      · cases ho
    · by_cases hd : d = c
      · subst hd
        simp [reaches_iff, hk'closed]
      · rw [reaches_set hd]
        exact ⟨fun h => ⟨h, hd⟩, And.left⟩

/-! ### Messages on a closing server -/

/-- What handling an item of `p` does on a closing server. -/
structure Handles (cs : List ℕ) (p : String) (item : Item) (S S' : SignalingServer)
    (out : List Output) : Prop where
  heard : Heard cs out ↔ (∃ l, OpenLink cs S p l) ∧ item.isPing = true
  openLink : (∃ l, OpenLink cs S' p l) ↔ (∃ l, OpenLink cs S p l) ∧ item.isBye = false
  closing : S'.closing = true
  stages : KeepsStages S S'

theorem handles_onPeerMessage (hclosing : S.closing = true) (p : String) (body : Body) :
    Handles cs p (.message body) S (S.onPeerMessage L p body).1 (S.onPeerMessage L p body).2 := by
  unfold SignalingServer.onPeerMessage
  cases hl : S.links.get p with
  | none =>
    have hno : ¬ ∃ l, OpenLink cs S p l := by
      rintro ⟨l, hget, -⟩
      rw [hl] at hget
      cases hget
    exact ⟨by simp [hno], by simp [hno], hclosing, .refl⟩
  | some link =>
    -- a message that is neither a ping nor a `bye`: nothing is said, and the link stays
    have hquiet : ∀ (item : Item) (S' : SignalingServer) (link' : PeerLink) (out' : List Output),
        S'.links.get p = some link' → link'.conn = link.conn → S'.reaches = S.reaches →
        S'.closing = true → KeepsStages S S' → (∀ o ∈ out', o.on = none) →
        item.isPing = false → item.isBye = false → Handles cs p item S S' out' := by
      intro item S' link' out' hl' hconn hreaches hclosing' hstages hout hping hbye
      refine ⟨?_, ?_, hclosing', hstages⟩
      · simp [not_heard_of_none hout, hping]
      · simp [OpenLink, hl, hl', hconn, hreaches, hbye]
    have hmedia : ∀ body : Body, (Item.message body).isPing = false →
        (Item.message body).isBye = false →
        Handles cs p (.message body) S
          (if body.isMediaMessage && L.media then
            ({ S with mediaPending := p :: S.mediaPending }, [Output.handleMessage p body])
          else (S, [Output.error ("unexpected " ++ body.type ++ " from " ++ p)])).1
          (if body.isMediaMessage && L.media then
            ({ S with mediaPending := p :: S.mediaPending }, [Output.handleMessage p body])
          else (S, [Output.error ("unexpected " ++ body.type ++ " from " ++ p)])).2 := by
      intro body hping hbye
      split
      · exact hquiet _ { S with mediaPending := p :: S.mediaPending } link _ hl rfl rfl hclosing
          .refl (by simp [Output.on]) hping hbye
      · exact hquiet _ S link _ hl rfl rfl hclosing .refl (by simp [Output.on]) hping hbye
    cases body with
    | ping nonce sentAt =>
      refine ⟨?_, ?_, hclosing, .refl⟩
      · simp [heard_send, OpenLink, hl, Item.isPing]
      · simp [Item.isBye]
    | pong nonce sentAt =>
      let link' := { link with heartbeat := link.heartbeat.map (Heartbeat.onPong nonce) }
      exact hquiet _ { S with links := S.links.set p link' } link' _
        (InsertionMap.get_set_self _ _ _) rfl rfl hclosing .refl (by simp) rfl rfl
    | bye reason =>
      let S₁ : SignalingServer :=
        { S with links := S.links.set p { link with reason := LeaveReason.bye } }
      have hshuts : Shuts link.conn S₁ (S₁.closeConn L link.conn).1 (S₁.closeConn L link.conn).2 :=
        closeConn_closing (S := S₁) hclosing link.conn
      refine ⟨?_, ?_, hshuts.closing, hshuts.stages⟩
      · exact iff_of_false (not_heard_of_none hshuts.quiet) (by simp [Item.isPing])
      · refine iff_of_false ?_ (by simp [Item.isBye])
        rintro ⟨l, hget, -, hreach⟩
        have hl₁ : S₁.links.get p = some l := by
          rw [← hshuts.links]
          exact hget
        rw [InsertionMap.get_set_self] at hl₁
        cases hl₁
        exact ((hshuts.reaches _).mp hreach).2 rfl
    | _ => exact hmedia _ rfl rfl

/-- **A held item of an admitted peer.** -/
theorem handles_deliverItem (hclosing : S.closing = true) {c : ℕ} {k : Conn} {p : String}
    (hget : S.conns.get c = some k) (hstage : k.stage = .admitted p) (item : Item) :
    Handles cs p item S (S.deliverItem L c item).1 (S.deliverItem L c item).2 := by
  unfold SignalingServer.deliverItem
  rw [hget]
  dsimp only
  rw [hstage]
  cases item with
  | message body => exact handles_onPeerMessage hclosing p body
  | handshake msg =>
    -- a handshake message has no listener any more: it goes back to the inbox
    have hdeaf : listens (.admitted p) (.handshake msg) = false := rfl
    rw [hdeaf, if_neg Bool.false_ne_true, modifyConn_some hget]
    have hreaches : ({ S with conns := S.conns.set c { k with
        inbox := k.inbox ++ [.handshake msg] } } : SignalingServer).reaches = S.reaches := by
      funext d
      by_cases hd : d = c
      · subst hd
        simp [SignalingServer.reaches, SignalingServer.sourceOpen, hget]
      · exact reaches_set hd
    refine ⟨?_, ?_, hclosing, keepsStages_set _ hget (.inr rfl)⟩
    · simp [Item.isPing]
    · simp [OpenLink, hreaches, Item.isBye]

/-- **The held items of an admitted peer**: something is said on its connection exactly if that is
open and a ping comes before any `bye`. -/
theorem heard_deliverItems (hclosing : S.closing = true) {c : ℕ} {k : Conn} {p : String}
    (hget : S.conns.get c = some k) (hstage : k.stage = .admitted p) (items : List Item) :
    Heard cs (deliverItems L c items S).2 ↔
      (∃ l, OpenLink cs S p l) ∧ pingsFirst items = true := by
  induction items generalizing S k with
  | nil => simp [deliverItems, pingsFirst]
  | cons item rest ih =>
    have hitem : Handles cs p item S (S.deliverItem L c item).1 (S.deliverItem L c item).2 :=
      handles_deliverItem hclosing hget hstage item
    obtain ⟨k', hget', hstage'⟩ := hitem.stages c k hget (by rw [hstage]; exact fun h => by cases h)
    have hrest := ih hitem.closing hget' (hstage'.trans hstage)
    have hsplit : Heard cs (deliverItems L c (item :: rest) S).2 ↔
        Heard cs (S.deliverItem L c item).2 ∨
          Heard cs (deliverItems L c rest (S.deliverItem L c item).1).2 := heard_append
    rw [hsplit, hitem.heard, hrest, hitem.openLink, pingsFirst, Bool.or_eq_true, Bool.and_eq_true,
      Bool.not_eq_true']
    tauto

/-- On a connection that is not admitted, no message is answered. -/
theorem deliverItem_unadmitted {c : ℕ} (item : Item)
    (h : ∀ k, S.conns.get c = some k → k.stage.admittedAs = none) :
    (S.deliverItem L c item).2 = [] ∧
      ∀ k, (S.deliverItem L c item).1.conns.get c = some k → k.stage.admittedAs = none := by
  unfold SignalingServer.deliverItem
  cases hget : S.conns.get c with
  | none => exact ⟨rfl, h⟩
  | some k =>
    have hset : ∀ f : Conn → Conn, (f k).stage.admittedAs = none →
        ∀ k', (S.modifyConn c f).conns.get c = some k' → k'.stage.admittedAs = none := by
      intro f hf k' hk'
      rw [modifyConn_some hget] at hk'
      rw [InsertionMap.get_set_self] at hk'
      cases hk'
      exact hf
    dsimp only
    split
    · unfold SignalingServer.emitItem
      split
      · refine ⟨rfl, hset _ ?_⟩
        dsimp only
        split <;> rfl
      · exact ⟨rfl, hset _ rfl⟩
      · exact ⟨rfl, hset _ rfl⟩
      · next p body hst _ =>
        have hadm := h k hget
        rw [hst] at hadm
        cases hadm
      · exact ⟨rfl, h⟩
    · exact ⟨rfl, hset _ (h k hget)⟩

theorem deliverItems_unadmitted {c : ℕ} (items : List Item)
    (h : ∀ k, S.conns.get c = some k → k.stage.admittedAs = none) :
    (deliverItems L c items S).2 = [] := by
  induction items generalizing S with
  | nil => rfl
  | cons item rest ih =>
    obtain ⟨hout, hkeeps⟩ := deliverItem_unadmitted (L := L) item h
    have hrest := ih hkeeps
    have hsplit : (deliverItems L c (item :: rest) S).2 =
        (S.deliverItem L c item).2 ++ (deliverItems L c rest (S.deliverItem L c item).1).2 := rfl
    rw [hsplit, hout, hrest]
    rfl

end ScreenSharing.Signaling
