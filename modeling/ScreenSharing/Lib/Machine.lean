import Mathlib.Data.List.Basic

/-!
# Event-driven machines and their runs

A `Machine σ ε ω` has a state, reacts to one event at a time and hands back the outputs of that
reaction.  `enabled` says which events the environment may deliver in which state; `step` itself
is total and computable, so a run can be evaluated on a concrete list of events.

Everything a development says about runs goes through two notions:

* `exec` is the state after a list of events, and `trace` the outputs on the way;
* `Along P` says that `P` holds of every pair *(state before the event, event)* on the way.  A run
  the environment may produce is `Along enabled`; a property of every step, which may speak about
  `next` and `out`, is `Along` too, and so is a side condition on the steps of a run.

The rules, in the order in which proofs use them:

* `exec_invariant` is the induction for safety: an invariant kept by every step that satisfies a
  guard holds at the end of every run whose steps all satisfy the guard;
* `length_add_rank_le` is the induction for termination;
* `along_of_invariant` turns an invariant and a fact about one step into a fact about every step
  of a run, and `trace_forall` does the same for the outputs;
* `along_congr` turns a step-by-step equivalence, valid under an invariant, into an equivalence of
  two properties of whole runs; `along_congr_while` asks for the invariant only as long as they hold;
* `along_next_iff` does the same for a property of states that a step keeps exactly under a condition
  on the step;
* `along_iff_split` reads `Along` as a statement about every decomposition of the run;
* `simulation` is the induction for two machines: the runs of one are runs of the other, when each of
  its events amounts to some events of the other (`induced`).

`Forward` says of a list of events that its clock does not go back.
-/

namespace ScreenSharing.Lib

/-- A machine with state `σ`, events `ε` and outputs `ω`. -/
structure Machine (σ ε ω : Type*) where
  enabled : σ → ε → Prop
  step : σ → ε → σ × List ω

namespace Machine

variable {σ ε ω : Type*} (M : Machine σ ε ω)

/-- The state after one event. -/
def next (s : σ) (e : ε) : σ := (M.step s e).1

/-- The outputs of one event. -/
def out (s : σ) (e : ε) : List ω := (M.step s e).2

/-- The state after a list of events. -/
def exec : σ → List ε → σ
  | s, [] => s
  | s, e :: es => exec (M.next s e) es

/-- The outputs of a list of events, in order. -/
def trace : σ → List ε → List ω
  | _, [] => []
  | s, e :: es => M.out s e ++ trace (M.next s e) es

/-- `P` holds of every event of the run, in the state in which the event arrives. -/
def Along (P : σ → ε → Prop) : σ → List ε → Prop
  | _, [] => True
  | s, e :: es => P s e ∧ Along P (M.next s e) es

/-- The environment can produce this run. -/
def Valid (s : σ) (es : List ε) : Prop := M.Along M.enabled s es

instance decidableAlong (P : σ → ε → Prop) [∀ s e, Decidable (P s e)] :
    ∀ s es, Decidable (M.Along P s es)
  | _, [] => isTrue trivial
  | s, e :: es =>
    have := decidableAlong P (M.next s e) es
    inferInstanceAs (Decidable (P s e ∧ M.Along P (M.next s e) es))

instance decidableValid [∀ s e, Decidable (M.enabled s e)] (s : σ) (es : List ε) :
    Decidable (M.Valid s es) :=
  decidableAlong M M.enabled s es

@[simp] theorem exec_nil (s : σ) : M.exec s [] = s := rfl

@[simp] theorem exec_cons (s : σ) (e : ε) (es : List ε) :
    M.exec s (e :: es) = M.exec (M.next s e) es := rfl

@[simp] theorem along_nil (P : σ → ε → Prop) (s : σ) : M.Along P s [] := trivial

@[simp] theorem along_cons (P : σ → ε → Prop) (s : σ) (e : ε) (es : List ε) :
    M.Along P s (e :: es) ↔ P s e ∧ M.Along P (M.next s e) es := Iff.rfl

theorem exec_append (s : σ) (es es' : List ε) :
    M.exec s (es ++ es') = M.exec (M.exec s es) es' := by
  induction es generalizing s with
  | nil => rfl
  | cons e es ih => exact ih _

theorem trace_append (s : σ) (es es' : List ε) :
    M.trace s (es ++ es') = M.trace s es ++ M.trace (M.exec s es) es' := by
  induction es generalizing s with
  | nil => rfl
  | cons e es ih => exact (congrArg (M.out s e ++ ·) (ih _)).trans (List.append_assoc ..).symm

theorem along_append (P : σ → ε → Prop) (s : σ) (es es' : List ε) :
    M.Along P s (es ++ es') ↔ M.Along P s es ∧ M.Along P (M.exec s es) es' := by
  induction es generalizing s with
  | nil => simp
  | cons e es ih => simp [ih, and_assoc]

variable {M}

theorem Along.mono {P Q : σ → ε → Prop} (h : ∀ s e, P s e → Q s e) {s : σ} {es : List ε}
    (hP : M.Along P s es) : M.Along Q s es := by
  induction es generalizing s with
  | nil => trivial
  | cons e es ih => exact ⟨h s e hP.1, ih hP.2⟩

theorem along_and {P Q : σ → ε → Prop} {s : σ} {es : List ε} :
    M.Along (fun s e => P s e ∧ Q s e) s es ↔ M.Along P s es ∧ M.Along Q s es := by
  induction es generalizing s with
  | nil => simp
  | cons e es ih =>
    simp only [along_cons, ih]
    tauto

theorem along_true (s : σ) (es : List ε) : M.Along (fun _ _ => True) s es := by
  induction es generalizing s with
  | nil => trivial
  | cons e es ih => exact ⟨trivial, ih _⟩

/-- **Induction over a run.**  What every guarded step keeps, a guarded run keeps. -/
theorem exec_invariant {G : σ → ε → Prop} {I : σ → Prop}
    (hstep : ∀ s e, I s → G s e → I (M.next s e)) {s : σ} {es : List ε}
    (hG : M.Along G s es) (hI : I s) : I (M.exec s es) := by
  induction es generalizing s with
  | nil => exact hI
  | cons e es ih => exact ih hG.2 (hstep s e hI hG.1)

/-- **Termination.**  A run whose steps all lower a rank is no longer than the rank it begins with. -/
theorem length_add_rank_le {G : σ → ε → Prop} {I : σ → Prop} {rank : σ → ℕ}
    (hstep : ∀ s e, I s → G s e → I (M.next s e))
    (hrank : ∀ s e, I s → G s e → rank (M.next s e) + 1 ≤ rank s) {s : σ} {es : List ε}
    (hG : M.Along G s es) (hI : I s) : es.length + rank (M.exec s es) ≤ rank s := by
  induction es generalizing s with
  | nil => exact Nat.le_of_eq (Nat.zero_add _)
  | cons e es ih =>
    have hfirst := hrank s e hI hG.1
    have hrest := ih hG.2 (hstep s e hI hG.1)
    rw [List.length_cons, exec_cons]
    omega

/-- An invariant, together with a fact about one step from a state that satisfies it, gives the
fact for every step of the run. -/
theorem along_of_invariant {G P : σ → ε → Prop} {I : σ → Prop}
    (hstep : ∀ s e, I s → G s e → I (M.next s e)) (hP : ∀ s e, I s → G s e → P s e)
    {s : σ} {es : List ε} (hG : M.Along G s es) (hI : I s) : M.Along P s es := by
  induction es generalizing s with
  | nil => trivial
  | cons e es ih => exact ⟨hP s e hI hG.1, ih hG.2 (hstep s e hI hG.1)⟩

/-- What holds of the outputs of every guarded step holds of the outputs of a guarded run. -/
theorem trace_forall {G : σ → ε → Prop} {I : σ → Prop} {P : ω → Prop}
    (hstep : ∀ s e, I s → G s e → I (M.next s e))
    (hout : ∀ s e, I s → G s e → ∀ o ∈ M.out s e, P o)
    {s : σ} {es : List ε} (hG : M.Along G s es) (hI : I s) : ∀ o ∈ M.trace s es, P o := by
  induction es generalizing s with
  | nil => exact fun o ho => absurd ho List.not_mem_nil
  | cons e es ih =>
    intro o ho
    rcases List.mem_append.mp ho with h | h
    · exact hout s e hI hG.1 o h
    · exact ih hG.2 (hstep s e hI hG.1) o h

/-- Two step properties that agree on the states of an invariant agree along every run; the invariant
has to be kept only as long as they hold. -/
theorem along_congr_while {G P Q : σ → ε → Prop} {I : σ → Prop}
    (hstep : ∀ s e, I s → G s e → P s e → I (M.next s e))
    (hPQ : ∀ s e, I s → G s e → (P s e ↔ Q s e))
    {s : σ} {es : List ε} (hG : M.Along G s es) (hI : I s) :
    M.Along P s es ↔ M.Along Q s es := by
  induction es generalizing s with
  | nil => simp
  | cons e es ih =>
    simp only [along_cons]
    rw [← hPQ s e hI hG.1]
    exact and_congr_right fun hP => ih hG.2 (hstep s e hI hG.1 hP)

theorem along_congr {G P Q : σ → ε → Prop} {I : σ → Prop}
    (hstep : ∀ s e, I s → G s e → I (M.next s e))
    (hPQ : ∀ s e, I s → G s e → (P s e ↔ Q s e))
    {s : σ} {es : List ε} (hG : M.Along G s es) (hI : I s) :
    M.Along P s es ↔ M.Along Q s es :=
  along_congr_while (fun s e hI hG _ => hstep s e hI hG) hPQ hG hI

/-- A property of states that survives a step exactly under `Q` holds in every state of the run if and
only if every step satisfies `Q`. -/
theorem along_next_iff {G Q : σ → ε → Prop} {I J : σ → Prop}
    (hstep : ∀ s e, I s → G s e → I (M.next s e))
    (hJ : ∀ s e, I s → J s → G s e → (J (M.next s e) ↔ Q s e))
    {s : σ} {es : List ε} (hG : M.Along G s es) (hI : I s) (hinit : J s) :
    M.Along (fun s e => J (M.next s e)) s es ↔ M.Along Q s es := by
  induction es generalizing s with
  | nil => simp
  | cons e es ih =>
    simp only [along_cons]
    rw [← hJ s e hI hinit hG.1]
    exact and_congr_right fun hnext => ih hG.2 (hstep s e hI hG.1) hnext

/-- `Along` speaks about every way to cut the run at one of its events. -/
theorem along_iff_split {P : σ → ε → Prop} {s : σ} {es : List ε} :
    M.Along P s es ↔
      ∀ pre e post, es = pre ++ e :: post → P (M.exec s pre) e := by
  constructor
  · rintro h pre e post rfl
    rw [along_append] at h
    exact h.2.1
  · intro h
    induction es generalizing s with
    | nil => trivial
    | cons e es ih =>
      refine ⟨h [] e es rfl, ih fun pre e' post heq => ?_⟩
      exact h (e :: pre) e' post (by rw [heq, List.cons_append])

/-! ### Simulation -/

section Simulation

variable {σ' ε' ω' : Type*}

variable (M) in
/-- The events of another machine that a run amounts to, if the event `e` in state `s` amounts to the
events `f s e`. -/
def induced (f : σ → ε → List ε') : σ → List ε → List ε'
  | _, [] => []
  | s, e :: es => f s e ++ induced f (M.next s e) es

/-- **Forward simulation.**  `R` relates the states of two machines and what they have put out so far.
If the events that one step amounts to satisfy `H` and keep `R`, then so do those that a run amounts
to. -/
theorem simulation {N : Machine σ' ε' ω'} {f : σ → ε → List ε'} {G : σ → ε → Prop}
    {H : σ' → ε' → Prop} {R : σ → List ω → σ' → List ω' → Prop}
    (hstep : ∀ s out t out' e, R s out t out' → G s e → N.Along H t (f s e) ∧
      R (M.next s e) (out ++ M.out s e) (N.exec t (f s e)) (out' ++ N.trace t (f s e)))
    {s : σ} {out : List ω} {t : σ'} {out' : List ω'} {es : List ε} (hG : M.Along G s es)
    (hR : R s out t out') :
    N.Along H t (M.induced f s es) ∧
      R (M.exec s es) (out ++ M.trace s es) (N.exec t (M.induced f s es))
        (out' ++ N.trace t (M.induced f s es)) := by
  induction es generalizing s out t out' with
  | nil => exact ⟨trivial, by simpa [trace, induced] using hR⟩
  | cons e es ih =>
    obtain ⟨hfirst, hnext⟩ := hstep s out t out' e hR hG.1
    obtain ⟨hrest, hend⟩ := ih hG.2 hnext
    have htrace : N.trace t (M.induced f s (e :: es)) = N.trace t (f s e) ++
        N.trace (N.exec t (f s e)) (M.induced f (M.next s e) es) := trace_append ..
    have hexec : N.exec t (M.induced f s (e :: es)) =
        N.exec (N.exec t (f s e)) (M.induced f (M.next s e) es) := exec_append ..
    refine ⟨(along_append ..).mpr ⟨hfirst, hrest⟩, ?_⟩
    rw [htrace, hexec, ← List.append_assoc]
    rwa [List.append_assoc out] at hend

end Simulation

end Machine

/-! ### Clocks -/

variable {ε : Type*}

/-- The clock does not go back, and starts at `clock` at the earliest; `time` is when an event
happens, if it looks at the clock. -/
def Forward (time : ε → Option ℕ) : ℕ → List ε → Prop
  | _, [] => True
  | clock, e :: es => clock ≤ (time e).getD clock ∧ Forward time ((time e).getD clock) es

instance decidableForward (time : ε → Option ℕ) : ∀ clock es, Decidable (Forward time clock es)
  | _, [] => isTrue trivial
  | clock, e :: es =>
    have := decidableForward time ((time e).getD clock) es
    inferInstanceAs (Decidable (_ ∧ Forward time ((time e).getD clock) es))

/-- What the clock shows at the end. -/
def clockAfter (time : ε → Option ℕ) : ℕ → List ε → ℕ
  | clock, [] => clock
  | clock, e :: es => clockAfter time ((time e).getD clock) es

theorem forward_append (time : ε → Option ℕ) (es es' : List ε) : ∀ clock,
    Forward time clock (es ++ es') ↔
      Forward time clock es ∧ Forward time (clockAfter time clock es) es' := by
  induction es with
  | nil => simp [Forward, clockAfter]
  | cons e es ih =>
    intro clock
    simp only [List.cons_append, Forward, clockAfter, ih, and_assoc]

/-- Events that all happen at one time do not put the clock back before it. -/
theorem forward_of_all_at {time : ε → Option ℕ} {now : ℕ} {es : List ε} : ∀ {clock : ℕ},
    clock ≤ now → (∀ e ∈ es, (time e).getD now = now) →
    Forward time clock es ∧ clockAfter time clock es ≤ now := by
  induction es with
  | nil => exact fun hle _ => ⟨trivial, hle⟩
  | cons e es ih =>
    intro clock hle hall
    have he := hall e List.mem_cons_self
    have hstep : clock ≤ (time e).getD clock ∧ (time e).getD clock ≤ now := by
      cases htime : time e with
      | none => exact ⟨Nat.le_refl _, hle⟩
      | some t =>
        rw [htime] at he
        have ht : t = now := he
        exact ⟨by simpa [ht] using hle, by simp [ht]⟩
    obtain ⟨hrest, hend⟩ := ih hstep.2 fun e he => hall e (List.mem_cons_of_mem _ he)
    exact ⟨⟨hstep.1, hrest⟩, hend⟩

end ScreenSharing.Lib
