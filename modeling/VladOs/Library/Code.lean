import Mathlib.Tactic.Common

inductive Outcome (σ ε α : Type) where
  | ok (a : α) (s : σ)
  | error (e : ε) (s : σ)
  | panic

def Code (σ ε α : Type) := σ → Outcome σ ε α

namespace Code

variable {σ τ ε δ α β : Type}

def ret (a : α) : Code σ ε α := fun s => .ok a s

def chain (c : Code σ ε α) (f : α → Code σ ε β) : Code σ ε β := fun s =>
  match c s with
  | .ok a s' => f a s'
  | .error e s' => .error e s'
  | .panic => .panic

instance : Monad (Code σ ε) where
  pure := ret
  bind := chain

def read : Code σ ε σ := fun s => .ok s s

def modify (f : σ → σ) : Code σ ε Unit := fun s => .ok () (f s)

def fail (e : ε) : Code σ ε α := fun s => .error e s

def abort : Code σ ε α := fun _ => .panic

def orFail (o : Option α) (e : ε) : Code σ ε α :=
  match o with
  | some a => ret a
  | none => fail e

def orAbort (o : Option α) : Code σ ε α :=
  match o with
  | some a => ret a
  | none => abort

def ofExcept (r : Except ε α) : Code σ ε α :=
  match r with
  | .ok a => ret a
  | .error e => fail e

def mapError (f : ε → δ) (c : Code σ ε α) : Code σ δ α := fun s =>
  match c s with
  | .ok a s' => .ok a s'
  | .error e s' => .error (f e) s'
  | .panic => .panic

def attempt (c : Code σ ε α) : Code σ δ (Except ε α) := fun s =>
  match c s with
  | .ok a s' => .ok (.ok a) s'
  | .error e s' => .ok (.error e) s'
  | .panic => .panic

def within (part : τ → σ) (put : τ → σ → τ) (c : Code σ ε α) : Code τ ε α := fun t =>
  match c (part t) with
  | .ok a s => .ok a (put t s)
  | .error e s => .error e (put t s)
  | .panic => .panic

theorem bind_ok {c : Code σ ε α} {s s' : σ} {a : α} (h : c s = .ok a s') (f : α → Code σ ε β) :
    (c >>= f) s = f a s' := by
  change chain c f s = _
  simp only [chain,h]

theorem bind_error {c : Code σ ε α} {s s' : σ} {e : ε} (h : c s = .error e s') (f : α → Code σ ε β) :
    (c >>= f) s = .error e s' := by
  change chain c f s = _
  simp only [chain,h]

theorem bind_panic {c : Code σ ε α} {s : σ} (h : c s = .panic) (f : α → Code σ ε β) :
    (c >>= f) s = .panic := by
  change chain c f s = _
  simp only [chain,h]

theorem bind_assoc {γ : Type} (c : Code σ ε α) (f : α → Code σ ε β) (g : β → Code σ ε γ) :
    c >>= f >>= g = c >>= fun a => f a >>= g := by
  funext s
  change chain (chain c f) g s = chain c (fun a => chain (f a) g) s
  unfold chain
  cases c s <;> rfl

theorem within_panic {part : τ → σ} {put : τ → σ → τ} {c : Code σ ε α} {t : τ}
    (h : c (part t) = .panic) : within part put c t = .panic := by
  simp only [within,h]

def Spec (c : Code σ ε α) (s : σ) (Q : α → σ → Prop) (E : ε → σ → Prop) : Prop :=
  match c s with
  | .ok a s' => Q a s'
  | .error e s' => E e s'
  | .panic => False

variable {c : Code σ ε α} {s : σ} {Q Q' : α → σ → Prop} {E E' : ε → σ → Prop}

@[simp] theorem spec_pure (a : α) : Spec (pure a : Code σ ε α) s Q E ↔ Q a s := Iff.rfl

@[simp] theorem spec_ret (a : α) : Spec (ret a : Code σ ε α) s Q E ↔ Q a s := Iff.rfl

@[simp] theorem spec_bind {f : α → Code σ ε β} {R : β → σ → Prop} :
    Spec (c >>= f) s R E ↔ Spec c s (fun a s' => Spec (f a) s' R E) E := by
  change Spec (chain c f) s R E ↔ _
  unfold Spec chain
  cases c s <;> rfl

@[simp] theorem spec_read {R : σ → σ → Prop} :
    Spec (read : Code σ ε σ) s R E ↔ R s s := Iff.rfl

@[simp] theorem spec_modify (f : σ → σ) {R : Unit → σ → Prop} :
    Spec (modify f : Code σ ε Unit) s R E ↔ R () (f s) := Iff.rfl

@[simp] theorem spec_fail (e : ε) : Spec (fail e : Code σ ε α) s Q E ↔ E e s := Iff.rfl

@[simp] theorem spec_abort : Spec (abort : Code σ ε α) s Q E ↔ False := Iff.rfl

@[simp] theorem spec_orFail_some (a : α) (e : ε) :
    Spec (orFail (some a) e : Code σ ε α) s Q E ↔ Q a s := Iff.rfl

@[simp] theorem spec_orFail_none (e : ε) :
    Spec (orFail none e : Code σ ε α) s Q E ↔ E e s := Iff.rfl

@[simp] theorem spec_orAbort_some (a : α) :
    Spec (orAbort (some a) : Code σ ε α) s Q E ↔ Q a s := Iff.rfl

@[simp] theorem spec_orAbort_none :
    Spec (orAbort none : Code σ ε α) s Q E ↔ False := Iff.rfl

@[simp] theorem spec_ofExcept_ok (a : α) :
    Spec (ofExcept (.ok a) : Code σ ε α) s Q E ↔ Q a s := Iff.rfl

@[simp] theorem spec_ofExcept_error (e : ε) :
    Spec (ofExcept (.error e) : Code σ ε α) s Q E ↔ E e s := Iff.rfl

theorem spec_orFail {o : Option α} {e : ε} :
    Spec (orFail o e : Code σ ε α) s Q E ↔
      (∀ a, o = some a → Q a s) ∧ (o = none → E e s) := by
  cases o <;> simp

theorem spec_orAbort {o : Option α} :
    Spec (orAbort o : Code σ ε α) s Q E ↔ ∃ a, o = some a ∧ Q a s := by
  cases o <;> simp

@[simp] theorem spec_mapError {f : ε → δ} {F : δ → σ → Prop} :
    Spec (mapError f c) s Q F ↔ Spec c s Q (fun e s' => F (f e) s') := by
  unfold Spec mapError
  cases c s <;> rfl

@[simp] theorem spec_attempt {R : Except ε α → σ → Prop} {F : δ → σ → Prop} :
    Spec (attempt c) s R F ↔ Spec c s (fun a s' => R (.ok a) s') (fun e s' => R (.error e) s') := by
  unfold Spec attempt
  cases c s <;> rfl

@[simp] theorem spec_within {part : τ → σ} {put : τ → σ → τ} {t : τ}
    {R : α → τ → Prop} {F : ε → τ → Prop} :
    Spec (within part put c) t R F ↔
      Spec c (part t) (fun a s' => R a (put t s')) (fun e s' => F e (put t s')) := by
  unfold Spec within
  cases c (part t) <;> rfl

theorem spec_ite {p : Prop} [Decidable p] {d : Code σ ε α} :
    Spec (if p then c else d) s Q E ↔ (p → Spec c s Q E) ∧ (¬ p → Spec d s Q E) := by
  by_cases h : p <;> simp [h]

theorem Spec.mono (h : Spec c s Q E) (hq : ∀ a s', Q a s' → Q' a s')
    (he : ∀ e s', E e s' → E' e s') : Spec c s Q' E' := by
  unfold Spec at h ⊢
  cases hc : c s with
  | ok a s' => rw [hc] at h; exact hq a s' h
  | error e s' => rw [hc] at h; exact he e s' h
  | panic => rw [hc] at h; exact h

theorem Spec.imp (h : Spec c s Q E) (hq : ∀ a s', Q a s' → Q' a s') : Spec c s Q' E :=
  h.mono hq fun _ _ he => he

theorem Spec.and (h : Spec c s Q E) (h' : Spec c s Q' E') :
    Spec c s (fun a s' => Q a s' ∧ Q' a s') (fun e s' => E e s' ∧ E' e s') := by
  unfold Spec at h h' ⊢
  cases hc : c s with
  | ok a s' => rw [hc] at h h'; exact ⟨h,h'⟩
  | error e s' => rw [hc] at h h'; exact ⟨h,h'⟩
  | panic => rw [hc] at h; exact h

theorem Spec.of_ok {a : α} {s' : σ} (hc : c s = .ok a s') (h : Q a s') : Spec c s Q E := by
  simpa only [Spec,hc] using h

theorem Spec.of_error {e : ε} {s' : σ} (hc : c s = .error e s') (h : E e s') : Spec c s Q E := by
  simpa only [Spec,hc] using h

theorem Spec.ok (h : Spec c s Q E) {a : α} {s' : σ} (hc : c s = .ok a s') : Q a s' := by
  simpa only [Spec,hc] using h

theorem Spec.error (h : Spec c s Q E) {e : ε} {s' : σ} (hc : c s = .error e s') : E e s' := by
  simpa only [Spec,hc] using h

theorem Spec.not_panic (h : Spec c s Q E) : c s ≠ .panic := by
  intro hc
  simp only [Spec,hc] at h

theorem Spec.returns (h : Spec c s Q E) (he : ∀ e s', ¬ E e s') : ∃ a s', c s = .ok a s' ∧ Q a s' := by
  cases hc : c s with
  | ok a s' => exact ⟨a,s',rfl,h.ok hc⟩
  | error e s' => exact absurd (h.error hc) (he e s')
  | panic => exact absurd hc h.not_panic

theorem Spec.ok_iff {p : Prop} (h : Spec c s (fun _ _ => p) (fun _ _ => ¬ p)) :
    (∃ a s', c s = .ok a s') ↔ p := by
  constructor
  · rintro ⟨a,s',hc⟩
    exact h.ok hc
  · intro hp
    obtain ⟨a,s',hc,-⟩ := h.returns fun _ _ hn => hn hp
    exact ⟨a,s',hc⟩

def Safe (c : Code σ ε α) (s : σ) : Prop := Spec c s (fun _ _ => True) fun _ _ => True

theorem Safe.of_spec (h : Spec c s Q E) : Safe c s :=
  h.mono (fun _ _ _ => trivial) fun _ _ _ => trivial

theorem Safe.of_ok {a : α} {s' : σ} (hc : c s = .ok a s') : Safe c s := Spec.of_ok hc trivial

theorem Safe.of_error {e : ε} {s' : σ} (hc : c s = .error e s') : Safe c s := Spec.of_error hc trivial

theorem Safe.bind {f : α → Code σ ε β} (hc : Safe c s) (hf : ∀ a s', Safe (f a) s') :
    Safe (c >>= f) s := by
  rw [Safe,spec_bind]
  exact hc.imp fun a s' _ => hf a s'

theorem Safe.mapError (h : Safe c s) (f : ε → δ) : Safe (Code.mapError f c) s := by
  rw [Safe,spec_mapError]
  exact h

theorem safe_pure (a : α) : Safe (pure a : Code σ ε α) s := (spec_pure a).mpr trivial

theorem safe_modify (f : σ → σ) : Safe (modify f : Code σ ε Unit) s := (spec_modify f).mpr trivial

theorem safe_fail (e : ε) : Safe (fail e : Code σ ε α) s := (spec_fail e).mpr trivial

theorem safe_orFail (o : Option α) (e : ε) : Safe (orFail o e : Code σ ε α) s :=
  spec_orFail.mpr ⟨fun _ _ => trivial,fun _ => trivial⟩

attribute [irreducible] Spec

end Code
