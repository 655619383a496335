import Mathlib.Data.Finset.Basic
import Mathlib.Data.Prod.Lex
import ScreenSharing.Lib.Sorting
import ScreenSharing.Lib.Utf16
import ScreenSharing.Shared.Protocol

/-!
# The host-succession order

Every participant computes the same list of successors from the same roster: peers with a verified
inbound port first, then the earliest to join, then by id.

`compareCandidates` compares the keys of two entries, which differ as soon as the ids do.  So the order
is a function of the set of participants, and does not change for those who stay when others leave.
-/

namespace ScreenSharing.Election

open Lib

structure ElectionEntry where
  peerId : String
  joinSeq : ℕ
  inboundVerified : Bool
  isHost : Bool
  connected : Bool
  deriving DecidableEq

def compareCandidates (a b : ElectionEntry) : ℤ :=
  if a.inboundVerified ≠ b.inboundVerified then if a.inboundVerified then -1 else 1
  else if a.joinSeq ≠ b.joinSeq then (a.joinSeq : ℤ) - b.joinSeq
  else if utf16 a.peerId < utf16 b.peerId then -1
  else if utf16 a.peerId > utf16 b.peerId then 1
  else 0

/-- Is `a` not behind `b`? -/
def notAfter (a b : ElectionEntry) : Bool := compareCandidates a b ≤ 0

/-- `successionOrder`: the peerIds eligible to become host, best first. -/
def successionOrder (roster : List ElectionEntry) : List String :=
  ((roster.filter fun e => !e.isHost && e.connected).insertionSort (notAfter · ·)).map
    ElectionEntry.peerId

/-- `designatedHeir`: the first in line. -/
def designatedHeir (roster : List ElectionEntry) : Option String := (successionOrder roster)[0]?

/-- `nextSuccessor`: skip the peers that already tried. -/
def nextSuccessor (roster : List ElectionEntry) (exhausted : Finset String) : Option String :=
  (successionOrder roster).find? fun id => id ∉ exhausted

/-- `successionIndex`: the position of a peer in the queue, or -1. -/
def successionIndex (roster : List ElectionEntry) (selfPeerId : String) : ℤ :=
  match (successionOrder roster).idxOf? selfPeerId with
  | some i => i
  | none => -1

/-- `electionEntriesFromRoster`: every entry of a roster is connected. -/
def electionEntriesFromRoster (roster : List RosterEntry) : List ElectionEntry :=
  roster.map fun e => ⟨e.peerId, e.joinSeq, e.inboundVerified, e.isHost, true⟩

/-! ### The comparator -/

/-- What the comparator compares: the verified come first, so their key is the smaller one. -/
def rank (e : ElectionEntry) : Bool ×ₗ ℕ ×ₗ List ℕ :=
  toLex (!e.inboundVerified, toLex (e.joinSeq, utf16 e.peerId))

/-- `a` stands before `b`: it alone is verified, or joined earlier, or has the smaller id. -/
def Precedes (a b : ElectionEntry) : Prop :=
  a.inboundVerified = true ∧ b.inboundVerified = false ∨
    a.inboundVerified = b.inboundVerified ∧ (a.joinSeq < b.joinSeq ∨
      a.joinSeq = b.joinSeq ∧ utf16 a.peerId < utf16 b.peerId)

theorem rank_lt_iff (a b : ElectionEntry) : rank a < rank b ↔ Precedes a b := by
  unfold rank Precedes
  rw [Prod.Lex.toLex_lt_toLex, Prod.Lex.toLex_lt_toLex]
  cases a.inboundVerified <;> cases b.inboundVerified <;> simp

theorem compares_rank : Compares (notAfter · ·) rank := by
  intro a b
  show notAfter a b = true ↔ _
  rw [← not_lt, rank_lt_iff, notAfter, decide_eq_true_eq]
  unfold compareCandidates Precedes
  by_cases hverified : a.inboundVerified = b.inboundVerified
  · rw [if_neg (not_not_intro hverified), hverified]
    by_cases hjoin : a.joinSeq = b.joinSeq
    · rw [if_neg (not_not_intro hjoin), hjoin]
      rcases lt_trichotomy (utf16 a.peerId) (utf16 b.peerId) with hid | hid | hid
      · simp [hid, hid.not_gt]
      · simp [hid]
      · simp [hid, hid.not_gt]
    · rw [if_pos hjoin]
      simp
      omega
  · rw [if_pos hverified]
    cases ha : a.inboundVerified <;> cases hb : b.inboundVerified <;> simp_all

/-- Entries with one rank have one id. -/
theorem peerId_of_rank {a b : ElectionEntry} (h : rank a = rank b) : a.peerId = b.peerId :=
  utf16_injective (congrArg (fun k => (ofLex (ofLex k).2).2) h)

/-! ### The order -/

variable {roster roster' : List ElectionEntry}

/-- Distinct ids are distinct ranks. -/
theorem rank_inj (hnodup : (roster.map ElectionEntry.peerId).Nodup) (p : ElectionEntry → Bool) :
    ∀ a ∈ roster.filter p, ∀ b ∈ roster.filter p, rank a = rank b → a = b :=
  fun _ ha _ hb h => List.inj_on_of_nodup_map hnodup (List.mem_of_mem_filter ha)
    (List.mem_of_mem_filter hb) (peerId_of_rank h)

theorem mem_successionOrder (p : String) : p ∈ successionOrder roster ↔
    ∃ e ∈ roster, e.peerId = p ∧ e.isHost = false ∧ e.connected = true := by
  unfold successionOrder
  rw [List.mem_map]
  refine exists_congr fun e => ?_
  rw [List.mem_insertionSort, List.mem_filter, Bool.and_eq_true, Bool.not_eq_true']
  tauto

theorem nodup_successionOrder (hnodup : (roster.map ElectionEntry.peerId).Nodup) :
    (successionOrder roster).Nodup := by
  have hperm := (List.perm_insertionSort (notAfter · ·)
    (roster.filter fun e => !e.isHost && e.connected)).map ElectionEntry.peerId
  exact hperm.symm.nodup (hnodup.sublist (List.filter_sublist.map _))

theorem successionOrder_perm (hnodup : (roster.map ElectionEntry.peerId).Nodup)
    (hperm : roster'.Perm roster) : successionOrder roster' = successionOrder roster := by
  unfold successionOrder
  rw [compares_rank.sort_perm (rank_inj hnodup _) (hperm.filter _)]

/-- Taking entries out takes their ids out of the order. -/
theorem successionOrder_filter (hnodup : (roster.map ElectionEntry.peerId).Nodup)
    (keep : String → Bool) : successionOrder (roster.filter fun e => keep e.peerId) =
      (successionOrder roster).filter keep := by
  unfold successionOrder
  rw [List.filter_comm, compares_rank.sort_filter (rank_inj hnodup _), List.filter_map]
  rfl

/-- The ids stand in the order of their entries. -/
theorem sorted_successionOrder (hnodup : (roster.map ElectionEntry.peerId).Nodup) :
    (successionOrder roster).Pairwise fun p q => ∀ a ∈ roster, ∀ b ∈ roster,
      a.peerId = p → b.peerId = q → Precedes a b := by
  have hsub : ((roster.filter fun e => !e.isHost && e.connected).map ElectionEntry.peerId).Nodup :=
    hnodup.sublist (List.filter_sublist.map _)
  have hdistinct := (List.pairwise_map.mp hsub).imp fun hne heq => hne (peerId_of_rank heq)
  have hstrict := compares_rank.strict hdistinct
  unfold successionOrder
  rw [List.pairwise_map]
  refine hstrict.imp_of_mem fun {a b} ha hb hlt a' ha' b' hb' hpa hpb => ?_
  -- an id has one entry only
  have hone : ∀ {c c' : ElectionEntry},
      c ∈ (roster.filter fun e => !e.isHost && e.connected).insertionSort (notAfter · ·) →
      c' ∈ roster → c'.peerId = c.peerId → c' = c := fun hc hc' h =>
    List.inj_on_of_nodup_map hnodup hc'
      (List.mem_of_mem_filter ((List.mem_insertionSort _).mp hc)) h
  rw [hone ha ha' hpa, hone hb hb' hpb]
  exact (rank_lt_iff a b).mp hlt

theorem successionOrder_erase (hnodup : (roster.map ElectionEntry.peerId).Nodup)
    {e : ElectionEntry} (he : e ∈ roster) :
    successionOrder (roster.erase e) = (successionOrder roster).erase e.peerId := by
  rw [(nodup_successionOrder hnodup).erase_eq_filter, (List.Nodup.of_map _ hnodup).erase_eq_filter,
    ← successionOrder_filter hnodup]
  congr 1
  refine List.filter_congr fun e' he' => ?_
  rw [Bool.eq_iff_iff, bne_iff_ne, bne_iff_ne]
  exact not_congr ⟨congrArg _, List.inj_on_of_nodup_map hnodup he' he⟩

theorem nextSuccessor_eq (hnodup : (roster.map ElectionEntry.peerId).Nodup)
    (exhausted : Finset String) : nextSuccessor roster exhausted =
      designatedHeir (roster.filter fun e => e.peerId ∉ exhausted) := by
  have hfilter := successionOrder_filter hnodup fun id => decide (id ∉ exhausted)
  unfold nextSuccessor designatedHeir
  rw [hfilter, ← List.head?_eq_getElem?, List.head?_filter]

/-- The heir is the one at position 0. -/
theorem successionIndex_eq_zero (roster : List ElectionEntry) (p : String) :
    successionIndex roster p = 0 ↔ designatedHeir roster = some p := by
  unfold successionIndex designatedHeir
  cases successionOrder roster with
  | nil => simp
  | cons q rest =>
    rw [List.idxOf?_cons, List.getElem?_cons_zero, Option.some_inj]
    by_cases hq : q = p
    · simp [hq]
    · rw [if_neg (by simpa using hq)]
      cases rest.idxOf? p <;> simp [hq]
      omega

/-- **Succession is a function of the set of participants.**  Any arrangement of the roster gives one
order; it lists the connected peers other than the host, each once, the verified first, then by when
they joined, then by id; taking an entry out changes nothing for the others; and the next successor is
the heir of the roster without those that already tried. -/
theorem succession_of_participants (roster : List ElectionEntry)
    (hnodup : (roster.map ElectionEntry.peerId).Nodup) :
    (∀ roster', roster'.Perm roster → successionOrder roster' = successionOrder roster) ∧
    (∀ p, p ∈ successionOrder roster ↔
      ∃ e ∈ roster, e.peerId = p ∧ e.isHost = false ∧ e.connected = true) ∧
    (successionOrder roster).Nodup ∧
    (successionOrder roster).Pairwise (fun p q => ∀ a ∈ roster, ∀ b ∈ roster,
      a.peerId = p → b.peerId = q → Precedes a b) ∧
    (∀ e ∈ roster, successionOrder (roster.erase e) = (successionOrder roster).erase e.peerId) ∧
    ∀ exhausted : Finset String, nextSuccessor roster exhausted =
      designatedHeir (roster.filter fun e => e.peerId ∉ exhausted) :=
  ⟨fun _ hperm => successionOrder_perm hnodup hperm, mem_successionOrder,
    nodup_successionOrder hnodup, sorted_successionOrder hnodup,
    fun _ he => successionOrder_erase hnodup he, nextSuccessor_eq hnodup⟩

/-- Five participants, two of which cannot succeed. -/
def fiveEntries : List ElectionEntry :=
  [⟨"host", 0, false, true, true⟩, ⟨"p-charlie", 3, true, false, true⟩,
    ⟨"p-alice", 1, false, false, true⟩, ⟨"p-bob", 2, true, false, true⟩,
    ⟨"p-dave", 4, false, false, false⟩]

theorem succession_of_participants_fiveEntries :
    successionOrder fiveEntries = ["p-bob", "p-charlie", "p-alice"] ∧
      successionOrder fiveEntries.reverse = successionOrder fiveEntries :=
  ⟨by decide, (succession_of_participants fiveEntries (by decide)).1 _ (List.reverse_perm _)⟩

end ScreenSharing.Election
