import Mathlib.Data.List.Sort
import ScreenSharing.Lib.InsertionMap
import ScreenSharing.Shared.Protocol

/-!
# The roster

The host's view of who is in the room.  `toLowerCase` is the string function of the runtime.
-/

namespace ScreenSharing.Signaling

open Lib

/-- The fields of the `Roster` class. -/
structure Roster where
  entries : InsertionMap String RosterEntry
  nextJoinSeq : ℕ

namespace Roster

variable {r : Roster}

/-- The constructor seeds the host's own entry, with joinSeq 0. -/
def new (peerId nickname : String) : Roster :=
  ⟨InsertionMap.empty.set peerId ⟨peerId, nickname, 0, true, true, none, none⟩, 1⟩

def hasNickname (toLowerCase : String → String) (nickname : String) (r : Roster) : Bool :=
  r.entries.values.any fun e => toLowerCase e.nickname == toLowerCase nickname

def size (r : Roster) : ℕ := r.entries.size

def add (entry : RosterEntry) (r : Roster) : Roster :=
  { r with entries := r.entries.set entry.peerId entry }

def remove (peerId : String) (r : Roster) : Roster :=
  { r with entries := r.entries.delete peerId }

/-- The entries by joinSeq. -/
def snapshot (r : Roster) : List RosterEntry :=
  r.entries.values.insertionSort fun a b => a.joinSeq ≤ b.joinSeq

/-! ### A roster as the server keeps it -/

/-- Entries are stored under their own id, and no two have one joinSeq. -/
structure Seated (r : Roster) : Prop where
  keyed : r.entries.Keyed RosterEntry.peerId
  lt : ∀ p e, r.entries.get p = some e → e.joinSeq < r.nextJoinSeq
  inj : ∀ p q e f, r.entries.get p = some e → r.entries.get q = some f →
    e.joinSeq = f.joinSeq → p = q

theorem seated_new (peerId nickname : String) : Seated (new peerId nickname) := by
  have hget : ∀ p e, (Roster.new peerId nickname).entries.get p = some e →
      p = peerId ∧ e = ⟨peerId, nickname, 0, true, true, none, none⟩ := by
    intro p e h
    have hset : (InsertionMap.empty.set peerId (⟨peerId, nickname, 0, true, true, none, none⟩ :
        RosterEntry)).get p = some e := h
    rw [InsertionMap.get_set] at hset
    split at hset
    · next heq =>
      cases hset
      exact ⟨heq, rfl⟩
    · cases hset
  refine ⟨fun p e h => ?_, fun p e h => ?_, fun p q e f he hf _ => ?_⟩
  · rw [(hget p e h).2, (hget p e h).1]
  · rw [(hget p e h).2]
    exact Nat.zero_lt_one
  · rw [(hget p e he).1, (hget q f hf).1]

theorem Seated.remove (h : Seated r) (p : String) : Seated (r.remove p) where
  keyed := h.keyed.delete
  lt q e hget := h.lt q e (InsertionMap.get_of_get_delete hget).1
  inj q q' e f he hf := h.inj q q' e f (InsertionMap.get_of_get_delete he).1
    (InsertionMap.get_of_get_delete hf).1

/-- An entry is replaced by one with its place. -/
theorem Seated.update (h : Seated r) {p : String} {e e' : RosterEntry}
    (hget : r.entries.get p = some e) (hid : e'.peerId = e.peerId) (hseq : e'.joinSeq = e.joinSeq) :
    Seated { r with entries := r.entries.set p e' } := by
  have hold : ∀ q f, (r.entries.set p e').get q = some f →
      ∃ g, r.entries.get q = some g ∧ f.joinSeq = g.joinSeq := by
    intro q f hf
    rw [InsertionMap.get_set] at hf
    split at hf
    · next heq =>
      cases hf
      exact ⟨e, by rw [heq]; exact hget, hseq⟩
    · exact ⟨f, hf, rfl⟩
  refine ⟨h.keyed.set (hid.trans (h.keyed p e hget)), fun q f hf => ?_, fun q q' f f' hf hf' heq => ?_⟩
  · obtain ⟨g, hg, hseq⟩ := hold q f hf
    rw [hseq]
    exact h.lt q g hg
  · obtain ⟨g, hg, hseq⟩ := hold q f hf
    obtain ⟨g', hg', hseq'⟩ := hold q' f' hf'
    exact h.inj q q' g g' hg hg' (by rw [← hseq, ← hseq', heq])

/-- A new entry takes the next joinSeq. -/
theorem Seated.add (h : Seated r) {e : RosterEntry} (hseq : e.joinSeq = r.nextJoinSeq) :
    Seated (({ r with nextJoinSeq := r.nextJoinSeq + 1 } : Roster).add e) := by
  have hcases : ∀ q f, (r.entries.set e.peerId e).get q = some f →
      (q = e.peerId ∧ f = e) ∨ r.entries.get q = some f := by
    intro q f hf
    rw [InsertionMap.get_set] at hf
    split at hf
    · next heq =>
      cases hf
      exact .inl ⟨heq, rfl⟩
    · exact .inr hf
  refine ⟨h.keyed.set rfl, fun q f hf => ?_, fun q q' f f' hf hf' heq => ?_⟩
  · show f.joinSeq < r.nextJoinSeq + 1
    rcases hcases q f hf with ⟨-, rfl⟩ | hold
    · omega
    · have hlt := h.lt q f hold
      omega
  · rcases hcases q f hf with ⟨rfl, rfl⟩ | hold <;> rcases hcases q' f' hf' with ⟨rfl, rfl⟩ | hold'
    · rfl
    · have hlt := h.lt q' f' hold'
      omega
    · have hlt := h.lt q f hold
      omega
    · exact h.inj q q' f f' hold hold' heq

end Roster

end ScreenSharing.Signaling
