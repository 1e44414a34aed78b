import VladOs.Library.Code

namespace Code

variable {σ ε α : Type}

def forEach (items : List α) (body : α → Code σ ε Unit) : Code σ ε Unit :=
  match items with
  | [] => pure ()
  | item :: rest => do
    body item
    forEach rest body

def forRange (start stop : ℕ) (body : ℕ → Code σ ε Unit) : Code σ ε Unit :=
  forEach (List.range' start (stop - start)) body

variable {s : σ} {E : ε → σ → Prop}

theorem spec_forEach {items done : List α} {body : α → Code σ ε Unit} {I : List α → σ → Prop}
    (h : I done s)
    (hstep : ∀ before item s', item ∈ items → I before s' →
      Spec (body item) s' (fun _ s'' => I (before ++ [item]) s'') E) :
    Spec (forEach items body) s (fun _ s' => I (done ++ items) s') E := by
  induction items generalizing done s with
  | nil => rwa [forEach,spec_pure,List.append_nil]
  | cons item rest ih =>
    rw [forEach,spec_bind]
    refine (hstep done item s List.mem_cons_self h).imp fun _ s' hs' => ?_
    rw [List.append_cons]
    exact ih hs' fun before other s'' hother => hstep before other s'' (List.mem_cons_of_mem _ hother)

theorem spec_forRange {start stop : ℕ} {body : ℕ → Code σ ε Unit} {I : ℕ → σ → Prop}
    (hle : start ≤ stop) (h : I start s)
    (hstep : ∀ i s', start ≤ i → i < stop → I i s' → Spec (body i) s' (fun _ s'' => I (i + 1) s'') E) :
    Spec (forRange start stop body) s (fun _ s' => I stop s') E := by
  unfold forRange
  induction hn : stop - start generalizing start s with
  | zero =>
    obtain rfl : start = stop := by omega
    rwa [List.range'_zero,forEach,spec_pure]
  | succ n ih =>
    rw [List.range'_succ,forEach,spec_bind]
    refine (hstep start s (Nat.le_refl start) (by omega) h).imp fun _ s' hs' => ?_
    exact ih (by omega) hs' (fun i s'' hi => hstep i s'' (by omega)) (by omega)

end Code
