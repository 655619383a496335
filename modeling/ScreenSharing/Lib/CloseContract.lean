import ScreenSharing.Lib.Machine

/-!
# A close contract

Some events of a machine end something: a connection, a subscription.  `CloseContract` says of a run that
the one who waits for the end is told exactly once if one of them happens, and never otherwise, and that
nothing is sent behind the first of them.

`countP_trace_eq_zero` is the rule for states in which nothing happens any more, and `silent_of_ended` reduces
the second half of the contract to what one event does.
-/

namespace ScreenSharing.Lib

namespace Machine

variable {σ ε ω : Type*} (M : Machine σ ε ω)

/-- `ends` are the endings, `told` the outputs that report one, and `sent` the outputs that must not come
behind one. -/
structure CloseContract (ends : ε → Bool) (told sent : ω → Bool) (s : σ) (es : List ε) : Prop where
  once : (M.trace s es).countP told = if es.any ends then 1 else 0
  silent : ∀ pre e post, es = pre ++ e :: post → ends e = true →
    (M.trace (M.exec s (pre ++ [e])) post).countP sent = 0

variable {M} {G : ε → Prop} {I J : σ → Prop} {p : ω → Bool} {ends : ε → Bool}

theorem countP_trace_cons (p : ω → Bool) (s : σ) (e : ε) (es : List ε) :
    (M.trace s (e :: es)).countP p = (M.out s e).countP p + (M.trace (M.next s e) es).countP p :=
  List.countP_append

/-- What no step puts out, and no step changes, is not put out by a run. -/
theorem countP_trace_eq_zero (hstep : ∀ s e, I s → G e → I (M.next s e))
    (hout : ∀ s e, I s → G e → (M.out s e).countP p = 0) (es : List ε) :
    ∀ {s}, (∀ e ∈ es, G e) → I s → (M.trace s es).countP p = 0 := by
  induction es with
  | nil => exact fun _ _ => rfl
  | cons e es ih =>
    intro s hG hI
    have he := hG e List.mem_cons_self
    rw [countP_trace_cons, hout s e hI he,
      ih (fun e' he' => hG e' (List.mem_cons_of_mem _ he')) (hstep s e hI he)]

/-- **Silence behind an ending.**  `I` holds along the run, an ending leads to `J`, and `J` stays and is
silent. -/
theorem silent_of_ended (hI : ∀ s e, I s → G e → I (M.next s e))
    (hends : ∀ s e, I s → G e → ends e = true → J (M.next s e))
    (hJ : ∀ s e, J s → G e → J (M.next s e)) (hout : ∀ s e, J s → G e → (M.out s e).countP p = 0)
    {s : σ} {es : List ε} (hG : ∀ e ∈ es, G e) (hs : I s) (pre : List ε) (e : ε) (post : List ε)
    (heq : es = pre ++ e :: post) (he : ends e = true) :
    (M.trace (M.exec s (pre ++ [e])) post).countP p = 0 := by
  have hGpre : M.Along (fun _ e => G e) s pre := by
    refine along_iff_split.2 fun pre' e' post' hpre => hG e' ?_
    rw [heq, hpre]
    simp
  have hcut : I (M.exec s pre) := exec_invariant hI hGpre hs
  have hGe : G e := hG e (by rw [heq]; simp)
  have hended : J (M.exec s (pre ++ [e])) := by
    rw [exec_append]
    exact hends _ _ hcut hGe he
  exact countP_trace_eq_zero hJ hout post (fun e' he' => hG e' (by rw [heq]; simp [he'])) hended

end Machine

end ScreenSharing.Lib
