import ScreenSharing.Mirror.Client

/-!
# Updates and the roster

A `roster_update` does to a snapshot what the host did to its roster: the snapshot before, updated, is
the snapshot after.  Since no two entries have one joinSeq, a snapshot is the only sorted list of the
entries.
-/

namespace ScreenSharing.Mirror

open Lib Signaling

/-- The order of a snapshot. -/
abbrev bySeq (a b : RosterEntry) : Prop := a.joinSeq ≤ b.joinSeq

variable {r : Roster}

/-! ### Snapshots -/

theorem snapshot_perm (r : Roster) : r.snapshot.Perm r.entries.values :=
  List.perm_insertionSort _ _

/-- A sorted list of the entries is the snapshot. -/
theorem sort_eq_snapshot (h : r.Seated) {l : List RosterEntry} (hperm : l.Perm r.entries.values) :
    l.insertionSort bySeq = r.snapshot := by
  have hl : (l.insertionSort bySeq).Perm r.snapshot :=
    (List.perm_insertionSort _ l).trans (hperm.trans (snapshot_perm r).symm)
  refine List.Perm.eq_of_pairwise ?_ (List.pairwise_insertionSort bySeq l)
    (List.pairwise_insertionSort bySeq r.entries.values) hl
  intro a b ha hb hab hba
  obtain ⟨p, hp⟩ := (InsertionMap.mem_values _ _).mp ((snapshot_perm r).mem_iff.mp
    (hl.mem_iff.mp ha))
  obtain ⟨q, hq⟩ := (InsertionMap.mem_values _ _).mp ((snapshot_perm r).mem_iff.mp hb)
  have hpq := h.inj p q a b hp hq (Nat.le_antisymm hab hba)
  rw [hpq, hq] at hp
  exact (Option.some.inj hp).symm

/-- Nobody is in a snapshot twice. -/
theorem nodup_snapshot (h : r.Seated) : (r.snapshot.map RosterEntry.peerId).Nodup :=
  ((snapshot_perm r).map _).nodup_iff.mpr h.keyed.nodup_values

theorem mem_snapshot (h : r.Seated) {e : RosterEntry} :
    e ∈ r.snapshot ↔ r.entries.get e.peerId = some e := by
  rw [(snapshot_perm r).mem_iff, InsertionMap.mem_values]
  constructor
  · rintro ⟨p, hp⟩
    rw [h.keyed p e hp]
    exact hp
  · exact fun hget => ⟨_, hget⟩

/-- A snapshot is in the order of the joins. -/
theorem snapshot_lt (h : r.Seated) : r.snapshot.Pairwise fun a b => a.joinSeq < b.joinSeq := by
  have hdistinct : r.snapshot.Pairwise fun a b => a.peerId ≠ b.peerId :=
    List.pairwise_map.mp (nodup_snapshot h)
  refine ((List.pairwise_insertionSort bySeq r.entries.values).and hdistinct).imp_of_mem
    fun {a b} ha hb hab => Nat.lt_of_le_of_ne hab.1 fun hseq => hab.2 ?_
  exact h.inj _ _ a b ((mem_snapshot h).mp ha) ((mem_snapshot h).mp hb) hseq

/-- **A departure.** -/
theorem updateRoster_removed (h : r.Seated) (p : String) :
    updateRoster [] [p] [] r.snapshot = (r.remove p).snapshot := by
  have hperm : (r.snapshot.filter fun e => e.peerId ∉ [p]).Perm (r.remove p).entries.values := by
    refine ((snapshot_perm r).filter _).trans (List.Perm.of_eq ?_)
    refine (List.filter_congr fun e _ => ?_).trans (InsertionMap.values_delete h.keyed).symm
    simp
  have hkept : ((r.snapshot.filter fun e => e.peerId ∉ [p]).map fun e =>
      ((InsertionMap.empty : InsertionMap String RosterEntry).get e.peerId).getD e) ++ [] =
        r.snapshot.filter fun e => e.peerId ∉ [p] := by
    rw [List.append_nil]
    exact List.map_id _
  exact (congrArg (List.insertionSort bySeq) hkept).trans (sort_eq_snapshot (h.remove p) hperm)

/-- **A change** of one entry. -/
theorem updateRoster_changed (h : r.Seated) {p : String} {e e' : RosterEntry}
    (hget : r.entries.get p = some e) (hid : e'.peerId = e.peerId) (hseq : e'.joinSeq = e.joinSeq) :
    updateRoster [] [] [e'] r.snapshot =
      ({ r with entries := r.entries.set p e' } : Roster).snapshot := by
  have hp : e'.peerId = p := hid.trans (h.keyed p e hget)
  have hchange : ∀ x : RosterEntry, (((InsertionMap.empty : InsertionMap String RosterEntry).set
      e'.peerId e').get x.peerId).getD x = if x.peerId = p then e' else x := by
    intro x
    rw [InsertionMap.get_set, hp]
    split <;> rfl
  have hperm : (((r.snapshot.filter fun x : RosterEntry => x.peerId ∉ ([] : List String)).map
      fun x : RosterEntry => (((InsertionMap.empty : InsertionMap String RosterEntry).set
        e'.peerId e').get x.peerId).getD x) ++ []).Perm (r.entries.set p e').values := by
    rw [InsertionMap.values_set_keyed h.keyed hget, List.append_nil, List.filter_eq_self.mpr
      (by simp)]
    refine ((snapshot_perm r).map _).trans (List.Perm.of_eq ?_)
    exact List.map_congr_left fun x _ => hchange x
  exact sort_eq_snapshot (h.update hget hid hseq) hperm

/-- **An arrival.** -/
theorem updateRoster_added (h : r.Seated) {e : RosterEntry} (hfree : r.entries.get e.peerId = none)
    (hseq : e.joinSeq = r.nextJoinSeq) : updateRoster [e] [] [] r.snapshot =
      (({ r with nextJoinSeq := r.nextJoinSeq + 1 } : Roster).add e).snapshot := by
  have hperm : (((r.snapshot.filter fun x : RosterEntry => x.peerId ∉ ([] : List String)).map
      fun x : RosterEntry => ((InsertionMap.empty : InsertionMap String RosterEntry).get
        x.peerId).getD x) ++ [e]).Perm
        (r.entries.set e.peerId e).values := by
    rw [InsertionMap.values_set_free hfree, List.filter_eq_self.mpr (by simp)]
    exact ((List.Perm.of_eq (List.map_id _)).trans (snapshot_perm r)).append_right [e]
  exact sort_eq_snapshot (h.add hseq) hperm

end ScreenSharing.Mirror
