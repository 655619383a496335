import ScreenSharing.Mirror.Roster
import ScreenSharing.Signaling.Silence

/-!
# What the server tells a peer of its roster

A peer is attached while it is in `#links` and its connection is open.  `Tells c` says of an operation of
the server that whoever is attached on `c` after it was so before, and gets updates that do to the snapshot
what the operation did to the roster.  Every operation is of this kind, except an admission, which attaches
a peer (`admission_admitPeer`), and the closing ones, about which nothing is said.
-/

namespace ScreenSharing.Mirror

open Lib Signaling SignalingServer

variable {L : Config} {S S' S'' : SignalingServer} {c d : ℕ} {k : Conn} {out out' : List Output}

/-! ### What goes out over one connection -/

/-- The bodies among the outputs that go out over a connection. -/
def sentTo (c : ℕ) (out : List Output) : List Body :=
  out.filterMap fun o =>
    match o with
    | .send d body => if d = c then some body else none
    | _ => none

/-- A peer that the server has on this connection, which is open. -/
def Attached (S : SignalingServer) (c : ℕ) : Prop :=
  S.reaches c = true ∧ ∃ p l, S.links.get p = some l ∧ l.conn = c

instance : Decidable (Attached S c) :=
  decidable_of_iff (S.reaches c = true ∧ ∃ l ∈ S.links.values, l.conn = c) <|
    and_congr_right fun _ => by
      simp only [InsertionMap.mem_values]
      exact ⟨fun ⟨l, ⟨p, hl⟩, hconn⟩ => ⟨p, l, hl, hconn⟩, fun ⟨p, l, hl, hconn⟩ => ⟨l, ⟨p, hl⟩, hconn⟩⟩

@[simp] theorem sentTo_nil : sentTo c [] = [] := rfl

@[simp] theorem sentTo_append : sentTo c (out ++ out') = sentTo c out ++ sentTo c out' :=
  List.filterMap_append

theorem mem_sentTo {body : Body} : body ∈ sentTo c out ↔ Output.send c body ∈ out := by
  unfold sentTo
  rw [List.mem_filterMap]
  constructor
  · rintro ⟨o, ho, heq⟩
    split at heq
    · split at heq
      · next hd =>
        cases heq
        rw [← hd]
        exact ho
      · cases heq
    · cases heq
  · intro ho
    exact ⟨_, ho, if_pos rfl⟩

theorem sentTo_send (hc : S.reaches c = true) (body : Body) : sentTo c (S.send c body) = [body] := by
  unfold SignalingServer.send
  rw [if_pos hc]
  simp [sentTo]

theorem sentTo_send_ne (h : d ≠ c) (body : Body) : sentTo c (S.send d body) = [] := by
  unfold SignalingServer.send
  split
  · simp [sentTo, h]
  · rfl

/-- Over the links, in the order of the table. -/
theorem sentTo_links {body : Body} {except : Option String} (hc : S.reaches c = true)
    (links : List PeerLink) (hnodup : (links.map PeerLink.conn).Nodup) :
    sentTo c (links.flatMap fun link =>
        if some link.peerId = except then [] else S.send link.conn body) =
      if ∃ l ∈ links, l.conn = c ∧ some l.peerId ≠ except then [body] else [] := by
  induction links with
  | nil => rfl
  | cons link links ih =>
    obtain ⟨hhead, hnodup⟩ := List.nodup_cons.mp hnodup
    rw [List.flatMap_cons, sentTo_append, ih hnodup]
    by_cases hconn : link.conn = c
    · -- the others are on other connections
      have hrest : ¬ ∃ l ∈ links, l.conn = c ∧ some l.peerId ≠ except := by
        rintro ⟨l, hl, heq, -⟩
        exact hhead (List.mem_map.mpr ⟨l, hl, heq.trans hconn.symm⟩)
      rw [if_neg hrest, List.append_nil]
      by_cases hexcept : some link.peerId = except
      · rw [if_pos hexcept, if_neg, sentTo_nil]
        rintro ⟨l, hl, heq, hne⟩
        rcases List.mem_cons.mp hl with rfl | hl
        · exact hne hexcept
        · exact hrest ⟨l, hl, heq, hne⟩
      · rw [if_neg hexcept, if_pos ⟨link, List.mem_cons_self, hconn, hexcept⟩, hconn,
          sentTo_send hc]
    · have hhere : sentTo c (if some link.peerId = except then [] else S.send link.conn body) = [] := by
        split
        · rfl
        · exact sentTo_send_ne hconn body
      rw [hhere, List.nil_append]
      refine if_congr ?_ rfl rfl
      constructor
      · rintro ⟨l, hl, h⟩
        exact ⟨l, List.mem_cons_of_mem _ hl, h⟩
      · rintro ⟨l, hl, heq, hne⟩
        rcases List.mem_cons.mp hl with rfl | hl
        · exact absurd heq hconn
        · exact ⟨l, hl, heq, hne⟩

theorem nodup_conns (h : Linked S) : (S.links.values.map PeerLink.conn).Nodup := by
  unfold InsertionMap.values
  rw [List.map_map]
  refine (List.Nodup.of_map Prod.fst S.links.nodup).map_on fun x hx y hy heq => ?_
  have hx' := (InsertionMap.mem_entries S.links x.1 x.2).mp hx
  have hy' := (InsertionMap.mem_entries S.links y.1 y.2).mp hy
  have hkey := h.inj hx' hy' heq
  rw [hkey, hy'] at hx'
  exact Prod.ext hkey (Option.some.inj hx').symm

/-- **A broadcast** reaches everybody attached, once, except the one it leaves out. -/
theorem sentTo_broadcast (h : Linked S) (hc : Attached S c) {body : Body} {except : Option String}
    (hexcept : ∀ p l, S.links.get p = some l → l.conn = c → some p ≠ except) :
    sentTo c (S.broadcast body except) = [body] := by
  obtain ⟨hreaches, p, l, hl, hconn⟩ := hc
  refine (sentTo_links hreaches S.links.values (nodup_conns h)).trans (if_pos ⟨l, (InsertionMap.mem_values _ _).mpr ⟨p, hl⟩, hconn, ?_⟩)
  rw [(h.linked p l hl).1]
  exact hexcept p l hl hconn

/-! ### What an operation tells -/

/-- All that goes out satisfies `P`. -/
def Sends (P : Body → Prop) (out : List Output) : Prop := ∀ d body, .send d body ∈ out → P body

theorem sends_nil {P : Body → Prop} : Sends P [] := fun _ _ h => by cases h

theorem sends_one {P : Body → Prop} {o : Output} (h : ∀ d body, o ≠ .send d body) : Sends P [o] :=
  fun d body hmem => absurd (List.mem_singleton.mp hmem).symm (h d body)

theorem Sends.append {P : Body → Prop} (h : Sends P out) (h' : Sends P out') :
    Sends P (out ++ out') := fun d body hmem =>
  (List.mem_append.mp hmem).elim (h d body) (h' d body)

theorem Sends.mono {P Q : Body → Prop} (h : Sends P out) (hPQ : ∀ body, P body → Q body) :
    Sends Q out := fun d body hmem => hPQ body (h d body hmem)

theorem sends_send {P : Body → Prop} {body : Body} (h : P body) : Sends P (S.send d body) := by
  intro e body' hmem
  cases mem_send hmem
  exact h

theorem sends_broadcast {P : Body → Prop} {body : Body} (h : P body) {except : Option String} :
    Sends P (S.broadcast body except) := by
  intro e body' hmem
  obtain ⟨_, _, _, _, heq, _⟩ := mem_broadcast hmem
  cases heq
  exact h

theorem sends_sendTo {P : Body → Prop} {body : Body} (h : P body) {p : String} :
    Sends P (S.sendTo p body) := by
  intro e body' hmem
  obtain ⟨_, heq⟩ := mem_sendTo hmem
  cases heq
  exact h

theorem sends_sendHandshake {P : Body → Prop} {msg : HostMessage} : Sends P (S.sendHandshake d msg) := by
  intro e body hmem
  cases mem_sendHandshake hmem

theorem foldl_aside (h : Sends Aside out) (roster : List RosterEntry) :
    (sentTo c out).foldl rosterAfter roster = roster :=
  foldl_still fun body hmem => (h c body (mem_sentTo.mp hmem)).roster roster

/-- The links and the roster are in order. -/
structure Ready (S : SignalingServer) : Prop where
  linked : Linked S
  seated : S.roster.Seated

theorem ready_new : Ready (.new L) := ⟨linked_new, Roster.seated_new _ _⟩

theorem Ready.does {A : Conn → Draw → Prop} {B : String → ℕ → Prop} (h : Ready S)
    (hdoes : Does L A B S S' out) : Ready S' := by
  refine hdoes.invariant (I := Ready) (fun S S' out h hatom => ⟨h.linked.atom hatom, ?_⟩) h
  cases hatom with
  | leave _ _ p => exact h.seated.remove p
  | entry p e e' hget hid hseq => exact h.seated.update hget hid hseq
  | admission => exact h.seated.add rfl
  | _ => exact h.seated

theorem Ready.modifyConn (L : Config) (h : Ready S) (d : ℕ) {f : Conn → Conn}
    (hstage : ∀ k, (f k).stage = k.stage) (hclosed : ∀ k, (f k).closed = k.closed) :
    Ready (S.modifyConn d f) :=
  h.does (does_modifyConn (L := L) (A := fun _ _ => True) (B := fun _ _ => True) d f hstage hclosed)

/-- What an operation does to the roster, it tells whoever is attached on `c` after it. -/
structure Tells (c : ℕ) (S S' : SignalingServer) (out : List Output) : Prop where
  ready : Ready S'
  calm : Sends Calm out
  follows : S'.closing = false → Attached S' c → S.closing = false ∧ Attached S c ∧
    (sentTo c out).foldl rosterAfter S.roster.snapshot = S'.roster.snapshot

theorem Tells.trans (h : Tells c S S' out) (h' : Tells c S' S'' out') :
    Tells c S S'' (out ++ out') := by
  refine ⟨h'.ready, h.calm.append h'.calm, fun hclosing hc => ?_⟩
  obtain ⟨hclosing', hc', hroster'⟩ := h'.follows hclosing hc
  obtain ⟨hclosing'', hc'', hroster⟩ := h.follows hclosing' hc'
  refine ⟨hclosing'', hc'', ?_⟩
  rw [sentTo_append, List.foldl_append, hroster, hroster']

/-- An operation that has nothing to tell. -/
theorem tells_aside (hready : Ready S') (hroster : S'.roster = S.roster)
    (hclosing : S'.closing = S.closing) (hback : Attached S' c → Attached S c)
    (hout : Sends Aside out) : Tells c S S' out := by
  refine ⟨hready, hout.mono fun _ h => h.calm, fun hopen hc => ?_⟩
  rw [foldl_aside hout, hroster]
  exact ⟨hclosing ▸ hopen, hback hc, rfl⟩

theorem tells_still (h : Ready S) (hout : Sends Aside out) : Tells c S S out :=
  tells_aside h rfl rfl id hout

/-- Outputs around an operation. -/
theorem Tells.around (h : Tells c S S' out) {before after : List Output} (hready : Ready S)
    (hbefore : Sends Aside before) (hafter : Sends Aside after) :
    Tells c S S' (before ++ out ++ after) :=
  ((tells_still hready hbefore).trans h).trans (tells_still h.ready hafter)

/-- An operation after which the server is closing. -/
theorem tells_closing (hready : Ready S') (hclosing : S'.closing = true) (hout : Sends Calm out) :
    Tells c S S' out :=
  ⟨hready, hout, fun hopen => by rw [hclosing] at hopen; cases hopen⟩

/-! ### The end of a connection -/

theorem attached_setConn {k' : Conn} (hget : S.conns.get d = some k)
    (hclosed : k'.closed = false → k.closed = false)
    (hc : Attached { S with conns := S.conns.set d k' } c) : Attached S c := by
  refine ⟨?_, hc.2⟩
  obtain ⟨hsource, kc, hkc, hopen⟩ := reaches_iff.mp hc.1
  refine reaches_iff.mpr ⟨hsource, ?_⟩
  change (S.conns.set d k').get c = some kc at hkc
  rw [InsertionMap.get_set] at hkc
  split at hkc
  · next heq =>
    cases hkc
    exact ⟨k, heq ▸ hget, hclosed hopen⟩
  · exact ⟨kc, hkc, hopen⟩

theorem tells_setConn {k' : Conn} (hget : S.conns.get d = some k)
    (hclosed : k'.closed = false → k.closed = false)
    (hready : Ready { S with conns := S.conns.set d k' }) :
    Tells c S { S with conns := S.conns.set d k' } [] :=
  tells_aside hready rfl rfl (attached_setConn hget hclosed) sends_nil

theorem tells_modifyConn {f : Conn → Conn} (hready : Ready (S.modifyConn d f))
    (hf : ∀ k, (f k).closed = k.closed) : Tells c S (S.modifyConn d f) [] := by
  cases hget : S.conns.get d with
  | none =>
    rw [modifyConn_none hget] at hready ⊢
    exact tells_still hready sends_nil
  | some k =>
    rw [modifyConn_some hget] at hready ⊢
    exact tells_setConn hget (fun h => (hf k).symm.trans h) hready

/-- The departure of a peer whose connection is closed. -/
theorem tells_onPeerGone (hget : S.conns.get d = some k) {p : String}
    (hS : S' = { S with conns := S.conns.set d k.shut }) (hseated : S.roster.Seated)
    (hready : Ready (S'.onPeerGone L p).1) :
    Tells c S (S'.onPeerGone L p).1 (S'.onPeerGone L p).2 := by
  have hback : ∀ {c}, Attached S' c → Attached S c := fun hc => by
    rw [hS] at hc
    exact attached_setConn hget (fun h => by cases h) hc
  have hroster' : S'.roster = S.roster := by rw [hS]
  have hclosing' : S'.closing = S.closing := by rw [hS]
  by_cases hclosing : S'.closing = true
  · rw [onPeerGone_closing hclosing] at hready ⊢
    exact tells_aside hready hroster' hclosing' hback sends_nil
  · have hopen : S'.closing = false := by simpa using hclosing
    have hstate := onPeerGone_open (L := L) (p := p) hopen
    have hlinks : ∀ {c}, Attached (S'.onPeerGone L p).1 c → Attached S c := fun hc => by
      rw [hstate] at hc
      obtain ⟨hreaches, q, l, hl, hconn⟩ := hc
      exact hback ⟨hreaches, q, l, (InsertionMap.get_of_get_delete hl).1, hconn⟩
    have hgone : ∀ P, Sends P (if L.media then [Output.mediaPeerGone p] else []) := by
      intro P
      split
      · exact sends_one fun _ _ h => by cases h
      · exact sends_nil
    cases hentry : S'.roster.entries.get p with
    | none =>
      have hout : (S'.onPeerGone L p).2 = if L.media then [Output.mediaPeerGone p] else [] := by
        unfold SignalingServer.onPeerGone
        rw [hopen, if_neg Bool.false_ne_true, hentry]
      have hkept : (S'.onPeerGone L p).1.roster = S.roster := by
        rw [hstate, ← hroster']
        show S'.roster.remove p = S'.roster
        unfold Roster.remove
        rw [InsertionMap.delete_of_free hentry]
      rw [hout]
      refine tells_aside hready hkept ?_ hlinks (hgone _)
      rw [hstate]
      exact hclosing'
    | some entry =>
      have hout : ∃ reason, (S'.onPeerGone L p).2 = (if L.media then [Output.mediaPeerGone p] else []) ++
          (S'.onPeerGone L p).1.broadcast (.rosterUpdate [] [p] []) none ++
            [.peerLeft p entry.nickname reason] := by
        rw [hstate]
        unfold SignalingServer.onPeerGone
        rw [hopen, if_neg Bool.false_ne_true, hentry]
        exact ⟨_, rfl⟩
      obtain ⟨reason, hout⟩ := hout
      have hleft : ∀ P, Sends P [Output.peerLeft p entry.nickname reason] := fun P =>
        sends_one fun _ _ h => by cases h
      refine ⟨hready, ?_, fun _ hc => ⟨hclosing' ▸ hopen, hlinks hc, ?_⟩⟩
      · rw [hout]
        exact ((hgone _).append (sends_broadcast trivial)).append (hleft _)
      · have hnone : ∀ q l, (S'.onPeerGone L p).1.links.get q = some l → l.conn = c →
            some q ≠ none := fun _ _ _ _ h => by cases h
        rw [hout, sentTo_append, sentTo_append, sentTo_broadcast hready.linked hc hnone,
          List.foldl_append, List.foldl_append, foldl_aside (hgone _), foldl_aside (hleft _), hstate,
          ← hroster']
        exact updateRoster_removed (hroster' ▸ hseated) p

theorem tells_dropConn (h : Ready S) (d : ℕ) :
    Tells c S (S.dropConn L d).1 (S.dropConn L d).2 := by
  have hready : Ready (S.dropConn L d).1 :=
    h.does (does_dropConn (A := fun _ _ => True) (B := fun _ _ => True) d)
  cases hget : S.conns.get d with
  | none =>
    rw [dropConn_none hget]
    exact tells_still h sends_nil
  | some k =>
    rw [dropConn_eq hget] at hready ⊢
    cases hst : k.stage with
    | admitted p =>
      rw [hst] at hready
      exact tells_onPeerGone hget rfl h.seated hready
    | _ =>
      rw [hst] at hready
      exact tells_setConn hget (fun hshut => by cases hshut) hready

theorem tells_closeConn (h : Ready S) (d : ℕ) :
    Tells c S (S.closeConn L d).1 (S.closeConn L d).2 := by
  unfold SignalingServer.closeConn
  split
  · exact tells_still h sends_nil
  · have hkick : Sends Aside (if S.sourceOpen then [Output.kick d] else []) := by
      split
      · exact sends_one fun _ _ h => by cases h
      · exact sends_nil
    exact (tells_still h hkick).trans (tells_dropConn h d)

/-! ### Messages -/

theorem tells_link (L : Config) (h : Ready S) {p : String} {l l' : PeerLink} (hget : S.links.get p = some l)
    (hconn : l'.conn = l.conn) (hid : l'.peerId = l.peerId) (htimer : l'.timer = l.timer) :
    Tells c S { S with links := S.links.set p l' } [] := by
  have hready : Ready { S with links := S.links.set p l' } := h.does
    (Atom.link (L := L) (A := fun _ _ => True) (B := fun _ _ => True) p l l' hget hconn hid htimer).does
  refine tells_aside hready rfl rfl (fun hc => ?_) sends_nil
  obtain ⟨hreaches, q, m, hm, hmc⟩ := hc
  change (S.links.set p l').get q = some m at hm
  rw [InsertionMap.get_set] at hm
  split at hm
  · cases hm
    exact ⟨hreaches, p, l, hget, hconn.symm.trans hmc⟩
  · exact ⟨hreaches, q, m, hm, hmc⟩

theorem tells_onPeerMessage (h : Ready S) (p : String) (body : Body) :
    Tells c S (S.onPeerMessage L p body).1 (S.onPeerMessage L p body).2 := by
  unfold SignalingServer.onPeerMessage
  cases hlink : S.links.get p with
  | none => exact tells_still h sends_nil
  | some link =>
    have herror : ∀ text, Sends Aside [Output.error text] := fun text =>
      sends_one fun _ _ h => by cases h
    cases body with
    | ping nonce sentAt => exact tells_still h (sends_send trivial)
    | pong nonce sentAt => exact tells_link L h hlink rfl rfl rfl
    | bye reason =>
      have hset : Tells c S
          { S with links := S.links.set p { link with reason := LeaveReason.bye } } [] :=
        tells_link L h hlink rfl rfl rfl
      exact hset.trans (tells_closeConn hset.ready link.conn)
    | _ =>
      dsimp only
      split
      · exact tells_aside ⟨⟨h.linked.fresh, h.linked.linked⟩, h.seated⟩ rfl rfl id (sends_one fun _ _ h => by cases h)
      · exact tells_still h (herror _)

theorem tells_deliverItem (h : Ready S) (d : ℕ) (item : Item) :
    Tells c S (S.deliverItem L d item).1 (S.deliverItem L d item).2 := by
  have hready : Ready (S.deliverItem L d item).1 :=
    h.does (does_deliverItem (A := fun _ _ => True) (B := fun _ _ => True) d item)
  unfold SignalingServer.deliverItem at hready ⊢
  cases hget : S.conns.get d with
  | none => exact tells_still h sends_nil
  | some k =>
    rw [hget] at hready
    dsimp only at hready ⊢
    split
    · next hlistens =>
      rw [if_pos hlistens] at hready
      unfold SignalingServer.emitItem at hready ⊢
      split at hready
      · exact tells_modifyConn hready fun _ => rfl
      · exact tells_modifyConn hready fun _ => rfl
      · exact tells_modifyConn hready fun _ => rfl
      · exact tells_onPeerMessage h _ _
      · exact tells_still h sends_nil
    · next hlistens =>
      rw [if_neg hlistens] at hready
      exact tells_modifyConn hready fun _ => rfl

theorem tells_fail (h : Ready S) (d : ℕ) (message : String) :
    Tells c S (S.fail L d message).1 (S.fail L d message).2 := by
  have huncaught : Sends Aside [Output.uncaught message] := sends_one fun _ _ h => by cases h
  unfold SignalingServer.fail
  cases hget : S.conns.get d with
  | none => exact tells_still h huncaught
  | some k =>
    rw [Option.map_some]
    cases hst : k.stage with
    | awaiting w =>
      have hset : Does L (fun _ _ => True) (fun _ _ => True) S (S.setStage d (.failed "bad_message")) [] :=
        does_modifyUnadmitted _ hget (by rw [hst]; rfl) rfl
      have hready := h.does hset
      exact (tells_modifyConn hready fun _ => rfl).trans (tells_closeConn hready d)
    | _ => exact tells_still h huncaught

theorem tells_onFrame (h : Ready S) (d : ℕ) (frame : Frame) :
    Tells c S (S.onFrame L d frame).1 (S.onFrame L d frame).2 := by
  unfold SignalingServer.onFrame
  split
  · exact tells_still h sends_nil
  · split
    · exact tells_fail h d _
    · exact tells_fail h d _
    · exact tells_deliverItem h d _
    · split
      · exact tells_modifyConn (h.modifyConn L d (fun _ => rfl) fun _ => rfl) fun _ => rfl
      · exact tells_fail h d _
    · exact tells_fail h d _
    · exact tells_deliverItem h d _

/-! ### `#handleConnection` -/

/-- A new connection is nobody's yet. -/
theorem attached_connect (h : Linked S) {k : Conn}
    (hc : Attached { S with conns := S.conns.set S.nextConn k, nextConn := S.nextConn + 1 } c) :
    Attached S c := by
  obtain ⟨hreaches, p, l, hl, hconn⟩ := hc
  obtain ⟨-, kl, hkl, -⟩ := h.linked p l hl
  have hne : c ≠ S.nextConn := by
    rw [← hconn]
    exact Nat.ne_of_lt (h.fresh _ kl hkl)
  exact ⟨(reaches_set hne).symm.trans hreaches, p, l, hl, hconn⟩

theorem tells_handleConnection (L : Config) (h : Ready S) (ip : String) (now : ℕ) :
    Tells c S (S.handleConnection ip now).1 (S.handleConnection ip now).2 := by
  have hready : Ready (S.handleConnection ip now).1 :=
    h.does (does_handleConnection (L := L) (A := fun _ _ => True) (B := fun _ _ => True) ip now trivial)
  have hrefuse : ∀ reason, Sends Aside (S.refuse ip reason).2 := by
    intro reason
    unfold SignalingServer.refuse
    dsimp only
    split
    · have hanswer : ∀ c body, Sends Aside [Output.sendHandshake c body] := fun _ _ =>
        sends_one fun _ _ h => by cases h
      exact (hanswer _ _).append (sends_one fun _ _ h => by cases h)
    · exact sends_nil
  have hrejected : ∀ reason, Sends Aside [Output.peerRejected ip reason] := fun reason =>
    sends_one fun _ _ h => by cases h
  have hback : ∀ {k : Conn} {limiter : RateLimiter} {active : ℕ}, Attached { S with
      conns := S.conns.set S.nextConn k, nextConn := S.nextConn + 1, rateLimiter := limiter
      activeHandshakes := active } c → Attached S c := fun hc => attached_connect h.linked ⟨hc.1, hc.2⟩
  unfold SignalingServer.handleConnection at hready ⊢
  dsimp only at hready ⊢
  split
  · next hclosing =>
    rw [if_pos hclosing] at hready
    exact tells_aside hready rfl rfl hback (hrefuse _)
  · next hclosing =>
    rw [if_neg hclosing] at hready
    split
    · next hwait =>
      rw [if_pos hwait] at hready
      exact tells_aside hready rfl rfl hback ((hrefuse _).append (hrejected _))
    · next hwait =>
      rw [if_neg hwait] at hready
      split
      · next hbusy =>
        rw [if_pos hbusy] at hready
        exact tells_aside hready rfl rfl hback ((hrefuse _).append (hrejected _))
      · next hbusy =>
        rw [if_neg hbusy] at hready
        exact tells_aside hready rfl rfl hback sends_nil

theorem tells_setStage (h : Ready (S.setStage d stage)) : Tells c S (S.setStage d stage) [] :=
  tells_modifyConn h fun _ => rfl

/-- Closing a connection whose continuation runs, and ending it. -/
theorem tells_closeAndEnd (h : Ready S) (hget : S.conns.get d = some k)
    (hdeaf : k.stage.hearsClose = false) :
    Tells c S ((S.closeConn L d).1.setStage d .ended) (S.closeConn L d).2 := by
  have hready : Ready ((S.closeConn L d).1.setStage d .ended) :=
    h.does (does_closeAndEnd (A := fun _ _ => True) (B := fun _ _ => True) hget hdeaf)
  have htells := (tells_closeConn (c := c) h d).trans (tells_setStage hready)
  rw [List.append_nil] at htells
  exact htells

theorem tells_handshakeFailed (h : Ready S) (ip reason : String) (hget : S.conns.get d = some k)
    (hdeaf : k.stage.hearsClose = false) :
    Tells c S (S.handshakeFailed L d ip reason).1 (S.handshakeFailed L d ip reason).2 := by
  have hready : Ready (S.handshakeFailed L d ip reason).1 :=
    h.does (does_handshakeFailed (A := fun _ _ => True) (B := fun _ _ => True) ip reason hget hdeaf)
  have hend := tells_closeAndEnd (c := c) (L := L) h hget hdeaf
  have haccount : Tells c ((S.closeConn L d).1.setStage d .ended) (S.handshakeFailed L d ip reason).1 [] :=
    tells_aside hready rfl rfl id sends_nil
  have hrejected : Sends Aside [Output.peerRejected ip reason] := sends_one fun _ _ h => by cases h
  have htells := ((tells_still h hrejected).trans hend).trans haccount
  rw [List.append_nil] at htells
  exact htells

theorem tells_upgrade (h : Ready S) (hget : S.conns.get d = some k)
    (hdeaf : k.stage.hearsClose = false) :
    Tells c S (S.upgrade L d k).1 (S.upgrade L d k).2 := by
  have hready : Ready (S.upgrade L d k).1 :=
    h.does (does_upgrade (A := fun _ _ => True) (B := fun _ _ => True) hget hdeaf)
  unfold SignalingServer.upgrade at hready ⊢
  generalize replay k.pendingBinary k.inbox = res at hready ⊢
  obtain ⟨inbox, ok⟩ := res
  let f : Conn → Conn := fun k => { k with encrypted := true, pendingBinary := [], inbox := inbox }
  have hmodified : Ready (S.modifyConn d f) := h.modifyConn L d (fun _ => rfl) fun _ => rfl
  have hone : Tells c S (S.modifyConn d f) [] := tells_modifyConn hmodified fun _ => rfl
  dsimp only at hready ⊢
  split
  · next hok =>
    rw [if_pos hok] at hready
    have haccount : Tells c (S.modifyConn d f) { S.modifyConn d f with
        activeHandshakes := (S.modifyConn d f).activeHandshakes - 1
        rateLimiter := (S.modifyConn d f).rateLimiter.clear k.ip } [] :=
      tells_aside ⟨⟨hmodified.linked.fresh, hmodified.linked.linked⟩, hmodified.seated⟩ rfl rfl id
        sends_nil
    exact (hone.trans haccount).trans (tells_modifyConn hready fun _ => rfl)
  · have hget' : (S.modifyConn d f).conns.get d = some (f k) := by
      rw [modifyConn_some hget]
      exact InsertionMap.get_set_self _ _ _
    exact hone.trans (tells_handshakeFailed hmodified k.ip _ hget' hdeaf)

theorem tells_onReceived (h : Ready S) (msg : HandshakeMessage) (hget : S.conns.get d = some k)
    (hdeaf : k.stage.hearsClose = false) :
    Tells c S (S.onReceived L d k msg).1 (S.onReceived L d k msg).2 := by
  have hready : Ready (S.onReceived L d k msg).1 :=
    h.does (does_onReceived (A := fun _ _ => True) (B := fun _ _ => True) msg hget hdeaf)
  have hfailed := fun reason => tells_handshakeFailed (c := c) (L := L) h k.ip reason hget hdeaf
  have hlisten : ∀ stage msg, Ready (S.listen d stage) →
      Tells c S (S.listen d stage) (S.sendHandshake d msg) := fun stage msg hlistening =>
    (tells_modifyConn hlistening fun _ => rfl).trans (tells_still hlistening sends_sendHandshake)
  cases msg with
  | hello protoVersion roomId =>
    simp only [SignalingServer.onReceived] at hready ⊢
    split
    · exact (tells_still h sends_sendHandshake).trans (hfailed _)
    · next hversion =>
      rw [if_neg hversion] at hready
      split
      · exact (tells_still h sends_sendHandshake).trans (hfailed _)
      · next hroom =>
        rw [if_neg hroom] at hready
        exact hlisten _ _ hready
  | pakePeer usable =>
    simp only [SignalingServer.onReceived] at hready ⊢
    split
    · next husable =>
      rw [if_pos husable] at hready
      exact hlisten _ _ hready
    · exact hfailed _
  | pakeConfirm verifies =>
    simp only [SignalingServer.onReceived]
    split
    · exact tells_upgrade h hget hdeaf
    · exact hfailed _
  | other => exact hfailed _

theorem tells_reject (h : Ready S) (ip : String) (reason : RejectedReason) (text : String)
    (hget : S.conns.get d = some k) (hdeaf : k.stage.hearsClose = false) :
    Tells c S (S.reject L d ip reason text).1 (S.reject L d ip reason text).2 :=
  (tells_closeAndEnd h hget hdeaf).around h (sends_send trivial)
    (sends_one fun _ _ h => by cases h)

/-- A continuation in which nobody is admitted. -/
theorem tells_resume (h : Ready S) (d : ℕ) (draw : Draw)
    (hno : ∀ k join, S.conns.get d = some k → k.stage = .joinReceived join →
      S.admits L join = false) : Tells c S (S.resume L d draw).1 (S.resume L d draw).2 := by
  unfold SignalingServer.resume
  cases hget : S.conns.get d with
  | none => exact tells_still h sends_nil
  | some k =>
    dsimp only
    cases hst : k.stage with
    | received msg => exact tells_onReceived h msg hget (by rw [hst]; rfl)
    | failed reason => exact tells_handshakeFailed h k.ip reason hget (by rw [hst]; rfl)
    | joinReceived join =>
      unfold SignalingServer.admitConn
      dsimp only
      split
      · exact tells_reject h k.ip _ _ hget (by rw [hst]; rfl)
      · next hroom =>
        split
        · exact tells_reject h k.ip _ _ hget (by rw [hst]; rfl)
        · next hname =>
          have hadmits : S.admits L join = true :=
            admits_iff.mpr ⟨Nat.lt_of_not_le hroom, by simpa using hname⟩
          rw [hno k join hget hst] at hadmits
          cases hadmits
    | joinFailed reason =>
      have herror : Sends Aside [Output.error reason] := sends_one fun _ _ h => by cases h
      exact (tells_still h herror).trans (tells_closeAndEnd h hget (by rw [hst]; rfl))
    | _ => exact tells_still h sends_nil

/-! ### Timers and calls -/

theorem tells_timeout (L : Config) (h : Ready S) (d : ℕ) : Tells c S (S.timeout d) [] := by
  have hready : Ready (S.timeout d) :=
    h.does (does_timeout (L := L) (A := fun _ _ => True) (B := fun _ _ => True) d)
  unfold SignalingServer.timeout at hready ⊢
  split at hready
  · exact tells_setStage hready
  · exact tells_setStage hready
  · exact tells_still h sends_nil

theorem tells_tick (h : Ready S) (p : String) (nonce : ℤ) (now : ℚ) :
    Tells c S (S.tick L p nonce now).1 (S.tick L p nonce now).2 := by
  unfold SignalingServer.tick
  cases hlink : S.links.get p with
  | none => exact tells_still h sends_nil
  | some link =>
    dsimp only
    cases link.heartbeat with
    | none => exact tells_still h sends_nil
    | some heartbeat =>
      have hbeat : ∀ l' : PeerLink, l'.conn = link.conn → l'.peerId = link.peerId →
          l'.timer = link.timer → Tells c S { S with links := S.links.set p l' } [] :=
        fun l' hconn hid htimer => tells_link L h hlink hconn hid htimer
      let link' := { link with heartbeat := some (heartbeat.tick nonce).1 }
      dsimp only
      split
      · exact hbeat link' rfl rfl rfl
      · have hset := hbeat link' rfl rfl rfl
        exact hset.trans (tells_still hset.ready (sends_send trivial))
      · have hset := hbeat { link' with reason := .timeout } rfl rfl rfl
        exact hset.trans (tells_closeConn hset.ready link.conn)

/-- The end of a probe changes an entry, and tells everybody. -/
theorem tells_probed (L : Config) (h : Ready S) (p : String) (endpoint : InboundEndpoint)
    (reachable : Bool) :
    Tells c S (S.probed p endpoint reachable).1 (S.probed p endpoint reachable).2 := by
  have hready : Ready (S.probed p endpoint reachable).1 :=
    h.does (does_probed (L := L) (A := fun _ _ => True) (B := fun _ _ => True) p endpoint reachable)
  unfold SignalingServer.probed at hready ⊢
  dsimp only at hready ⊢
  split
  · next link entry hlink hentry =>
    rw [hlink, hentry] at hready
    refine ⟨hready, sends_broadcast trivial, fun hopen hc => ⟨hopen, ⟨hc.1, hc.2⟩, ?_⟩⟩
    rw [sentTo_broadcast hready.linked hc fun _ _ _ _ h => by cases h]
    exact updateRoster_changed h.seated hentry rfl rfl
  · exact tells_aside ⟨⟨h.linked.fresh, h.linked.linked⟩, h.seated⟩ rfl rfl id sends_nil

theorem tells_mediaReply (h : Ready S) (p : String) {reply : Option Body}
    (hreply : ∀ body ∈ reply, Aside body) :
    Tells c S (S.mediaReply p reply).1 (S.mediaReply p reply).2 := by
  refine tells_aside ⟨⟨h.linked.fresh, h.linked.linked⟩, h.seated⟩ rfl rfl id ?_
  cases reply with
  | none => exact sends_nil
  | some body => exact sends_sendTo (hreply body rfl)

/-! ### Leaving -/

theorem calm_closeLinks (bye : Bool) (links : List PeerLink) : ∀ {S : SignalingServer}, Ready S →
    Sends Calm (closeLinks L bye links S).2 := by
  induction links with
  | nil => exact fun _ => sends_nil
  | cons link rest ih =>
    intro S h
    have htold : Sends Calm (if bye then S.send link.conn (.bye "room_closing") else []) := by
      split
      · exact sends_send trivial
      · exact sends_nil
    have hone := tells_closeConn (c := 0) (L := L) h link.conn
    exact (htold.append hone.calm).append (ih hone.ready)

theorem tells_shutDown (h : Ready S) (bye : Bool) :
    Tells c S (S.shutDown L bye).1 (S.shutDown L bye).2 := by
  have hdoes := does_shutDown (L := L) (A := fun _ _ => True) (B := fun _ _ => True) (S := S) bye
  have hset : Ready { S with closing := true } := ⟨⟨h.linked.fresh, h.linked.linked⟩, h.seated⟩
  have hlinks := does_closeLinks (L := L) (A := fun _ _ => True) (B := fun _ _ => True)
    (S := { S with closing := true }) bye S.links.values
  exact tells_closing (h.does hdoes) (hlinks.closing rfl) (calm_closeLinks bye S.links.values hset)

theorem tells_transferHost (h : Ready S) :
    Tells c S (S.transferHost L).1 (S.transferHost L).2 := by
  have hready : Ready (S.transferHost L).1 :=
    h.does (does_transferHost (A := fun _ _ => True) (B := fun _ _ => True))
  unfold SignalingServer.transferHost at hready ⊢
  split at hready
  · exact tells_shutDown h true
  · exact tells_closing hready rfl (sends_broadcast trivial)

theorem tells_dropAll (conns : List ℕ) : ∀ {S : SignalingServer}, Ready S →
    Tells c S (dropAll L conns S).1 (dropAll L conns S).2 := by
  induction conns with
  | nil => exact fun h => tells_still h sends_nil
  | cons d rest ih =>
    intro S h
    unfold dropAll
    dsimp only
    split
    · exact ih h
    · have hone := tells_dropConn (c := c) (L := L) h d
      exact hone.trans (ih hone.ready)

theorem tells_sourceLost (h : Ready S) (reason : String) :
    Tells c S (S.sourceLost L reason).1 (S.sourceLost L reason).2 := by
  have hgone : Ready { S with source := .gone } := ⟨⟨h.linked.fresh, h.linked.linked⟩, h.seated⟩
  have hlose : Tells c S { S with source := .gone } [] := by
    refine tells_aside hgone rfl rfl (fun hc => ?_) sends_nil
    obtain ⟨hsource, -⟩ := reaches_iff.mp hc.1
    cases hsource
  unfold SignalingServer.sourceLost
  dsimp only
  split
  · have hdrop := hlose.trans (tells_dropAll (L := L) S.conns.keys hgone)
    refine hdrop.trans (tells_still hdrop.ready ?_)
    split
    · exact sends_nil
    · exact sends_one fun _ _ h => by cases h
  · exact hlose

/-! ### Every event but an admission -/

/-- Nobody is admitted at this event. -/
def AdmitsNone (L : Config) (S : SignalingServer) : Event → Prop
  | .resume d _ => ∀ k join, S.conns.get d = some k → k.stage = .joinReceived join →
      S.admits L join = false
  | _ => True

/-- What the media plane has the server send leaves mirrors alone. -/
def MediaAside : Event → Prop
  | .mediaReply _ reply => ∀ body ∈ reply, Aside body
  | .sendTo _ body | .broadcast body => Aside body
  | _ => True

/-- **Every event but an admission** tells what it does to the roster. -/
theorem tells_react (h : Ready S) {e : Event} (hnone : AdmitsNone L S e) (haside : MediaAside e) :
    Tells c S (react L S e).1 (react L S e).2 := by
  cases e with
  | connection ip now => exact tells_handleConnection L h ip now
  | deliver d frame => exact tells_onFrame h d frame
  | drop d => exact tells_dropConn h d
  | timeout d => exact tells_timeout L h d
  | flush d =>
    have htake : Ready (S.modifyConn d fun k => { k with inbox := [], flushQueued := false }) :=
      h.modifyConn L d (fun _ => rfl) fun _ => rfl
    have hitems : ∀ (items : List Item) {S : SignalingServer}, Ready S →
        Tells c S (deliverItems L d items S).1 (deliverItems L d items S).2 := by
      intro items
      induction items with
      | nil => exact fun h => tells_still h sends_nil
      | cons item rest ih =>
        intro S h
        have hone := tells_deliverItem (c := c) (L := L) h d item
        exact hone.trans (ih hone.ready)
    exact (tells_modifyConn htake fun _ => rfl).trans (hitems _ htake)
  | resume d draw => exact tells_resume h d draw hnone
  | tick p nonce now => exact tells_tick h p nonce now
  | probed p endpoint reachable => exact tells_probed L h p endpoint reachable
  | mediaReply p reply => exact tells_mediaReply h p haside
  | sendTo p body => exact tells_still h (sends_sendTo haside)
  | broadcast body => exact tells_still h (sends_broadcast haside)
  | transferHost => exact tells_transferHost h
  | graceOver =>
    have hready : Ready S.graceOver :=
      h.does (does_graceOver (L := L) (A := fun _ _ => True) (B := fun _ _ => True))
    exact tells_closing hready rfl sends_nil
  | close => exact tells_shutDown h true
  | crash => exact tells_shutDown h false
  | sourceLost reason => exact tells_sourceLost h reason

/-! ### An admission -/

/-- A broadcast that leaves out the one on this connection. -/
theorem sentTo_broadcast_except {body : Body} {except : Option String} (h : Linked S)
    (hexcept : ∀ p l, S.links.get p = some l → l.conn = c → some p = except) :
    sentTo c (S.broadcast body except) = [] := by
  refine List.eq_nil_iff_forall_not_mem.mpr fun body' hmem => ?_
  obtain ⟨p, l, hl, hne, heq, -⟩ := mem_broadcast (mem_sentTo.mp hmem)
  have hconn : l.conn = c := by
    cases heq
    rfl
  rw [(h.linked p l hl).1] at hne
  exact hne (hexcept p l hl hconn)

/-- An id that nobody in the roster has, and nobody with a link. -/
def Unused (S : SignalingServer) (p : String) : Prop :=
  S.roster.entries.get p = none ∧ S.links.get p = none

instance (S : SignalingServer) (p : String) : Decidable (Unused S p) :=
  inferInstanceAs (Decidable (_ ∧ _))

/-- What an admission does, and whom it tells what. -/
structure Admission (L : Config) (S : SignalingServer) (d : ℕ) (draw : Draw) (S' : SignalingServer)
    (out : List Output) : Prop where
  ready : Ready S'
  closing : S'.closing = S.closing
  admitted : ∃ k, S'.conns.get d = some k ∧ k.stage = .admitted draw.peerId
  /-- only the new peer is sent anything else than updates of the roster -/
  calm : ∀ c body, c ≠ d → .send c body ∈ out → Calm body
  others : ∀ c, c ≠ d → Attached S' c → Attached S c ∧
    (sentTo c out).foldl rosterAfter S.roster.snapshot = S'.roster.snapshot
  own : Attached S' d → ∃ joinSeq, sentTo d out =
    [.joined draw.peerId joinSeq L.epoch L.roomParams S'.roster.snapshot
        (if L.media then draw.streams else []),
      .ping draw.nonce draw.now]

theorem admission_admitPeer (h : Ready S) (hget : S.conns.get d = some k) {join : Join}
    (hstage : k.stage = .joinReceived join) (hadmits : S.admits L join = true) {draw : Draw}
    (hunused : Unused S draw.peerId) : Admission L S d draw (S.admitPeer L d k.ip join draw).1
      (S.admitPeer L d k.ip join draw).2 := by
  have hready : Ready (S.admitPeer L d k.ip join draw).1 :=
    h.does (does_admitPeer (A := fun _ _ => True) (B := fun _ _ => True) draw hget hstage hadmits trivial)
  unfold SignalingServer.admitPeer at hready ⊢
  dsimp only at hready ⊢
  rw [listen_admitted _ _ _ hget] at hready ⊢
  have hseated : updateRoster [S.newEntry join draw] [] [] S.roster.snapshot =
      (({ S.roster with nextJoinSeq := S.roster.nextJoinSeq + 1 } : Roster).add
        (S.newEntry join draw)).snapshot := updateRoster_added h.seated hunused.1 rfl
  -- what is sent is sent from the state before the probe is noted
  generalize hS₁ : ({ S with
      conns := S.conns.set d { k with stage := .admitted draw.peerId, flushQueued := true }
      roster := ({ S.roster with nextJoinSeq := S.roster.nextJoinSeq + 1 } : Roster).add
        (S.newEntry join draw)
      links := S.links.set draw.peerId (newLink L d k.ip draw) } : SignalingServer) = S₁ at hready ⊢
  have hconns : S₁.conns = S.conns.set d { k with stage := .admitted draw.peerId, flushQueued := true } := by
    rw [← hS₁]
  have hlinks : S₁.links = S.links.set draw.peerId (newLink L d k.ip draw) := by rw [← hS₁]
  have hroster : S₁.roster = ({ S.roster with nextJoinSeq := S.roster.nextJoinSeq + 1 } : Roster).add
      (S.newEntry join draw) := by rw [← hS₁]
  have hlinked : Linked S₁ := ⟨hready.linked.fresh, hready.linked.linked⟩
  have hown : S₁.links.get draw.peerId = some (newLink L d k.ip draw) := by
    rw [hlinks]
    exact InsertionMap.get_set_self _ _ _
  refine ⟨hready, by rw [← hS₁], ?_, ?_, ?_, ?_⟩
  · rw [hconns]
    exact ⟨_, InsertionMap.get_set_self _ _ _, rfl⟩
  · intro c body hne hmem
    simp only [List.mem_append, List.mem_singleton] at hmem
    rcases hmem with ((hmem | hmem) | hmem) | hmem
    · cases mem_send hmem
      exact absurd rfl hne
    · have hupdate : Calm (.rosterUpdate [S.newEntry join draw] [] []) := trivial
      exact sends_broadcast hupdate c body hmem
    · cases hmem
    · cases mem_send hmem
      exact absurd rfl hne
  · intro c hne hc
    obtain ⟨hreaches, p, l, hl, hconn⟩ := hc
    have hother : ∀ q m, S₁.links.get q = some m → m.conn = c → some q ≠ some draw.peerId := by
      rintro q m hm hmc heq
      rw [Option.some.inj heq, hown] at hm
      cases hm
      exact hne hmc.symm
    have hl' := hl
    change S₁.links.get p = some l at hl'
    rw [hlinks, InsertionMap.get_set_ne _ _ fun heq => hother p l hl hconn (congrArg some heq)] at hl'
    have hreaches' : S.reaches c = true := by
      rw [← hreaches, ← hS₁]
      exact (reaches_set hne).symm
    refine ⟨⟨hreaches', p, l, hl', hconn⟩, ?_⟩
    have hnothing : ∀ body, sentTo c (S₁.send d body) = [] := sentTo_send_ne (Ne.symm hne)
    have hjoined : sentTo c [Output.peerJoined draw.peerId (S.newEntry join draw).nickname] = [] := rfl
    rw [sentTo_append, sentTo_append, sentTo_append, hnothing, hnothing, hjoined,
      sentTo_broadcast hlinked ⟨hreaches, p, l, hl, hconn⟩ hother]
    show updateRoster [S.newEntry join draw] [] [] S.roster.snapshot = S₁.roster.snapshot
    rw [hroster]
    exact hseated
  · intro hd
    have hreaches : S₁.reaches d = true := hd.1
    have hexcept : ∀ p l, S₁.links.get p = some l → l.conn = d → some p = some draw.peerId :=
      fun p l hl hconn => congrArg some (hlinked.inj hl hown hconn)
    have hjoined : sentTo d [Output.peerJoined draw.peerId (S.newEntry join draw).nickname] = [] := rfl
    refine ⟨(S.newEntry join draw).joinSeq, ?_⟩
    rw [sentTo_append, sentTo_append, sentTo_append, sentTo_send hreaches, sentTo_send hreaches,
      sentTo_broadcast_except hlinked hexcept, hjoined, ← hroster]
    rfl

end ScreenSharing.Mirror
