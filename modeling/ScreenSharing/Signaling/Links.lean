import ScreenSharing.Signaling.Changes

/-!
# The links of the server

`Linked` is what holds of `#links` in every state the server reaches: the link of a peer is stored
under its id, and its connection is one that was handed to the server and admitted as that peer.  A
connection is therefore in one link at most.
-/

namespace ScreenSharing.Signaling

open Lib SignalingServer

variable {L : Config} {A : Conn → Draw → Prop} {B : String → ℕ → Prop}
  {S S' : SignalingServer} {out : List Output}

structure Linked (S : SignalingServer) : Prop where
  fresh : ∀ c k, S.conns.get c = some k → c < S.nextConn
  linked : ∀ p l, S.links.get p = some l →
    l.peerId = p ∧ ∃ k, S.conns.get l.conn = some k ∧ k.stage.admittedAs = some p

/-- The link of a peer is not on a connection that was admitted as somebody else, or not at all. -/
theorem Linked.ne_conn (h : Linked S) {p : String} {l : PeerLink} {c : ℕ} {k : Conn}
    (hl : S.links.get p = some l) (hget : S.conns.get c = some k)
    (hne : k.stage.admittedAs ≠ some p) : l.conn ≠ c := by
  intro hc
  obtain ⟨-, k', hk', hadm⟩ := h.linked p l hl
  rw [hc, hget] at hk'
  cases hk'
  exact hne hadm

/-- One connection is in the link of one peer. -/
theorem Linked.inj (h : Linked S) {p q : String} {l m : PeerLink} (hl : S.links.get p = some l)
    (hm : S.links.get q = some m) (hconn : l.conn = m.conn) : p = q := by
  obtain ⟨-, k, hk, hadm⟩ := h.linked p l hl
  by_contra hne
  refine h.ne_conn hm hk ?_ hconn.symm
  rw [hadm]
  exact fun heq => hne (Option.some.inj heq)

theorem fresh_set (h : Linked S) {c : ℕ} {k : Conn} (k' : Conn) (hget : S.conns.get c = some k) :
    ∀ d kd, (S.conns.set c k').get d = some kd → d < S.nextConn := by
  intro d kd hd
  by_cases hdc : d = c
  · rw [hdc]
    exact h.fresh c k hget
  · rw [InsertionMap.get_set_ne _ _ hdc] at hd
    exact h.fresh d kd hd

theorem linked_new : Linked (.new L) where
  fresh c k hget := by cases hget
  linked p l hget := by cases hget

/-- **Every elementary change keeps the links in order.** -/
theorem Linked.atom (h : Linked S) (hatom : Atom L A B S S' out) : Linked S' := by
  cases hatom with
  | conn c k k' hget hstage =>
    refine ⟨fresh_set h k' hget, fun p l hl => ?_⟩
    obtain ⟨hid, kl, hkl, hadm⟩ := h.linked p l hl
    by_cases hc : l.conn = c
    · -- the record of a link's connection keeps its stage
      rw [hc, hget] at hkl
      cases hkl
      rcases hstage with heq | ⟨hold, -⟩
      · exact ⟨hid, k', by rw [hc]; exact InsertionMap.get_set_self _ _ _, by rw [heq]; exact hadm⟩
      · rw [hold] at hadm
        cases hadm
    · exact ⟨hid, kl, by rw [InsertionMap.get_set_ne _ _ hc]; exact hkl, hadm⟩
  | leave c k p hget hstage =>
    refine ⟨fresh_set h _ hget, fun q l hl => ?_⟩
    obtain ⟨hl, hqp⟩ := InsertionMap.get_of_get_delete hl
    obtain ⟨hid, kl, hkl, hadm⟩ := h.linked q l hl
    have hc : l.conn ≠ c := by
      refine h.ne_conn hl hget ?_
      rw [hstage]
      exact fun heq => hqp (Option.some.inj heq).symm
    exact ⟨hid, kl, by rw [InsertionMap.get_set_ne _ _ hc]; exact hkl, hadm⟩
  | link p l l' hget hconn hid =>
    refine ⟨h.fresh, fun q m hm => ?_⟩
    by_cases hq : q = p
    · subst hq
      rw [InsertionMap.get_set_self] at hm
      cases hm
      rw [hid, hconn]
      exact h.linked q l hget
    · rw [InsertionMap.get_set_ne _ _ hq] at hm
      exact h.linked q m hm
  | connect k =>
    refine ⟨fun c kc hc => ?_, fun p l hl => ?_⟩
    · by_cases heq : c = S.nextConn
      · rw [heq]
        exact Nat.lt_succ_self _
      · rw [InsertionMap.get_set_ne _ _ heq] at hc
        exact Nat.lt_succ_of_lt (h.fresh c kc hc)
    · obtain ⟨hid, kl, hkl, hadm⟩ := h.linked p l hl
      have hc : l.conn ≠ S.nextConn := Nat.ne_of_lt (h.fresh _ kl hkl)
      exact ⟨hid, kl, by rw [InsertionMap.get_set_ne _ _ hc]; exact hkl, hadm⟩
  | admission c k join draw out hget hstage =>
    refine ⟨fresh_set h _ hget, fun p l hl => ?_⟩
    by_cases hp : p = draw.peerId
    · subst hp
      rw [InsertionMap.get_set_self] at hl
      cases hl
      exact ⟨rfl, _, InsertionMap.get_set_self _ _ _, rfl⟩
    · rw [InsertionMap.get_set_ne _ _ hp] at hl
      obtain ⟨hid, kl, hkl, hadm⟩ := h.linked p l hl
      have hc : l.conn ≠ c := by
        refine h.ne_conn hl hget ?_
        rw [hstage]
        exact fun heq => by cases heq
      exact ⟨hid, kl, by rw [InsertionMap.get_set_ne _ _ hc]; exact hkl, hadm⟩
  | stop =>
    refine ⟨h.fresh, fun p l hl => ?_⟩
    rw [InsertionMap.get_mapValues, Option.map_eq_some_iff] at hl
    obtain ⟨m, hm, rfl⟩ := hl
    exact h.linked p m hm
  | clear => exact ⟨h.fresh, fun p l hl => by cases hl⟩
  | _ => exact ⟨h.fresh, h.linked⟩

theorem linked_next {e : Event} (henabled : Enabled L S e) (h : Linked S) :
    Linked ((server L).next S e) :=
  server_invariant (A := fun _ _ => True) (fun _ _ _ hS hatom => hS.atom hatom) henabled
    (fun _ _ _ => trivial) h

end ScreenSharing.Signaling
