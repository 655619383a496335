import Mathlib.Algebra.Group.Nat.Defs
import Mathlib.Data.List.Basic

/-!
# Sliding windows

A limiter that admits a hit when fewer than `cap` hits count at that moment keeps the times of the
hits it has admitted, and may forget a time once it has left the window.  `log` stands for all the
times that were ever admitted, `hits` for what is kept of them.

* `Keeps` says that what is kept counts like the whole log, from some moment on.  Pruning keeps it,
  and so does forgetting a list that counts for nothing.
* `Capped` says that no half-open interval as long as the window holds more than `cap` hits of the
  log.  Admitting a hit keeps it, as long as fewer than `cap` hits count.

Times are natural numbers.  No order of the log is assumed.
-/

namespace ScreenSharing.Lib.SlidingWindow

variable {window cap clock now now' : ℕ} {hits log : List ℕ}

/-- The hits that count at time `now`. -/
def fresh (window now : ℕ) (hits : List ℕ) : List ℕ := hits.filter fun t => now < t + window

theorem fresh_append (hits hits' : List ℕ) :
    fresh window now (hits ++ hits') = fresh window now hits ++ fresh window now hits' :=
  List.filter_append _ _

/-- What counts later has counted before. -/
theorem fresh_fresh (hle : now ≤ now') :
    fresh window now' (fresh window now hits) = fresh window now' hits := by
  unfold fresh
  rw [List.filter_filter]
  refine List.filter_congr fun t _ => ?_
  rw [Bool.and_eq_left_iff_imp]
  simp only [decide_eq_true_eq]
  omega

/-- Nothing counts if every hit has left the window. -/
theorem fresh_eq_nil : fresh window now hits = [] ↔ ∀ t ∈ hits, t + window ≤ now := by
  unfold fresh
  rw [List.filter_eq_nil_iff]
  simp

/-! ### What may be forgotten -/

/-- From `clock` on, the hits kept count like the whole log. -/
def Keeps (window clock : ℕ) (hits log : List ℕ) : Prop :=
  ∀ now, clock ≤ now → fresh window now hits = fresh window now log

theorem Keeps.refl (log : List ℕ) : Keeps window clock log log := fun _ _ => rfl

theorem Keeps.later (h : Keeps window clock hits log) (hle : clock ≤ now) :
    Keeps window now hits log := fun t ht => h t (Nat.le_trans hle ht)

/-- Hits that have left the window may be forgotten. -/
theorem Keeps.prune (h : Keeps window clock hits log) (hle : clock ≤ now) :
    Keeps window now (fresh window now hits) log := by
  intro t ht
  rw [fresh_fresh ht]
  exact h t (Nat.le_trans hle ht)

theorem Keeps.push (h : Keeps window clock hits log) (t : ℕ) :
    Keeps window clock (hits ++ [t]) (log ++ [t]) := by
  intro now hnow
  rw [fresh_append, fresh_append, h now hnow]

/-- A list that counts for nothing may be forgotten altogether. -/
theorem Keeps.forget (h : Keeps window clock hits log) (hle : clock ≤ now)
    (hidle : fresh window now hits = []) : Keeps window now [] log := by
  intro t ht
  have hgone : fresh window t (fresh window now hits) = fresh window t hits := fresh_fresh ht
  rw [← h t (Nat.le_trans hle ht), ← hgone, hidle]

/-! ### The cap -/

/-- No half-open interval as long as the window holds more than `cap` hits. -/
def Capped (window cap : ℕ) (log : List ℕ) : Prop :=
  ∀ start, (log.filter fun t => start ≤ t ∧ t < start + window).length ≤ cap

theorem Capped.nil : Capped window cap [] := fun _ => Nat.zero_le _

theorem Capped.sublist {log' : List ℕ} (h : Capped window cap log) (hsub : log'.Sublist log) :
    Capped window cap log' := fun start =>
  Nat.le_trans (hsub.filter _).length_le (h start)

/-- **Admitting a hit** when fewer than `cap` count keeps the cap. -/
theorem Capped.push (h : Capped window cap log) (hroom : (fresh window now log).length < cap) :
    Capped window cap (log ++ [now]) := by
  intro start
  rw [List.filter_append, List.length_append]
  by_cases hin : start ≤ now ∧ now < start + window
  · -- an earlier hit of the interval still counts at `now`
    have hsub : (log.filter fun t => start ≤ t ∧ t < start + window).length ≤
        (fresh window now log).length := by
      refine (List.monotone_filter_right log fun t ht => ?_).length_le
      simp only [decide_eq_true_eq] at ht ⊢
      omega
    have hone : ([now].filter fun t => start ≤ t ∧ t < start + window).length ≤ 1 :=
      List.length_filter_le _ _
    omega
  · have hnone : ([now].filter fun t => start ≤ t ∧ t < start + window) = [] := by
      simpa using hin
    rw [hnone]
    exact h start

end ScreenSharing.Lib.SlidingWindow
