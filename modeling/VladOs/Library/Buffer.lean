import Mathlib.Data.List.Basic
import Mathlib.Tactic.Common

namespace Buffer

variable {α : Type}

structure Patch (α : Type) where
  start : ℕ
  data : List α

namespace Patch

def stop (p : Patch α) : ℕ := p.start + p.data.length

def apply (p : Patch α) (bytes : List α) : List α :=
  bytes.take p.start ++ p.data ++ bytes.drop p.stop

def Apart (p q : Patch α) : Prop := p.stop ≤ q.start ∨ q.stop ≤ p.start

def Within (lo hi : ℕ) (p : Patch α) : Prop := lo ≤ p.start ∧ p.stop ≤ hi

def Holds (p : Patch α) (bytes : List α) : Prop := (bytes.drop p.start).take p.data.length = p.data

variable {p q : Patch α} {bytes : List α}

theorem Within.apart {lo mid hi : ℕ} (hp : p.Within lo mid) (hq : q.Within mid hi) : Apart p q :=
  Or.inl (Nat.le_trans hp.2 hq.1)

theorem apart_of_stop (h : q.stop = 0) : Apart p q := Or.inr (h ▸ Nat.zero_le _)

theorem Apart.symm (h : Apart p q) : Apart q p := Or.symm h

theorem apply_nil {start : ℕ} : (⟨start,[]⟩ : Patch α).apply bytes = bytes := by
  simp [apply,stop]

theorem apply_length (h : p.stop ≤ bytes.length) : (p.apply bytes).length = bytes.length := by
  unfold stop at h
  simp only [apply,stop,List.length_append,List.length_take,List.length_drop]
  omega

theorem apply_getElem? (h : p.stop ≤ bytes.length) (i : ℕ) :
    (p.apply bytes)[i]? =
      if p.start ≤ i ∧ i < p.stop then p.data[i - p.start]? else bytes[i]? := by
  unfold stop at h
  have hlen : (bytes.take p.start).length = p.start := by
    rw [List.length_take]
    omega
  rw [apply,List.append_assoc]
  by_cases hlow : i < p.start
  · rw [if_neg (by omega),List.getElem?_append_left (by omega),List.getElem?_take_of_lt hlow]
  · rw [List.getElem?_append_right (by omega),hlen]
    by_cases hin : i < p.stop
    · rw [if_pos ⟨by omega,hin⟩,List.getElem?_append_left (by unfold stop at hin; omega)]
    · unfold stop at hin
      rw [if_neg (by unfold stop; omega),List.getElem?_append_right (by omega),List.getElem?_drop]
      congr 1
      unfold stop
      omega

theorem holds_iff : p.Holds bytes ↔ ∀ i < p.data.length, bytes[p.start + i]? = p.data[i]? := by
  constructor
  · intro hp i hi
    rw [← List.getElem?_drop,← List.getElem?_take_of_lt hi,hp]
  · intro hp
    refine List.ext_getElem? fun i => ?_
    by_cases hi : i < p.data.length
    · rw [List.getElem?_take_of_lt hi,List.getElem?_drop,hp i hi]
    · rw [List.getElem?_eq_none (by rw [List.length_take]; omega),List.getElem?_eq_none (by omega)]

theorem holds_apply (h : p.stop ≤ bytes.length) : p.Holds (p.apply bytes) := by
  rw [holds_iff]
  intro i hi
  rw [apply_getElem? h,if_pos ⟨by omega,by unfold stop; omega⟩,Nat.add_sub_cancel_left]

theorem Holds.apply (hp : p.Holds bytes) (hq : q.stop ≤ bytes.length) (hapart : Apart p q) :
    p.Holds (q.apply bytes) := by
  rw [holds_iff] at hp ⊢
  intro i hi
  have hout : ¬ (q.start ≤ p.start + i ∧ p.start + i < q.stop) := by
    unfold Apart stop at hapart
    unfold stop
    omega
  rw [apply_getElem? hq,if_neg hout,hp i hi]

end Patch

def applyAll (ps : List (Patch α)) (bytes : List α) : List α :=
  ps.foldl (fun bytes p => p.apply bytes) bytes

variable {ps qs : List (Patch α)} {p : Patch α} {bytes : List α}

@[simp] theorem applyAll_nil : applyAll [] bytes = bytes := rfl

@[simp] theorem applyAll_cons : applyAll (p :: ps) bytes = applyAll ps (p.apply bytes) := rfl

theorem applyAll_append : applyAll (ps ++ qs) bytes = applyAll qs (applyAll ps bytes) :=
  List.foldl_append

def Fit (ps : List (Patch α)) (bytes : List α) : Prop := ∀ p ∈ ps, p.stop ≤ bytes.length

theorem Fit.tail (h : Fit (p :: ps) bytes) : Fit ps (p.apply bytes) := by
  intro q hq
  rw [Patch.apply_length (h p List.mem_cons_self)]
  exact h q (List.mem_cons_of_mem _ hq)

theorem applyAll_length (h : Fit ps bytes) : (applyAll ps bytes).length = bytes.length := by
  induction ps generalizing bytes with
  | nil => rfl
  | cons p ps ih =>
    rw [applyAll_cons,ih h.tail,Patch.apply_length (h p List.mem_cons_self)]

theorem Fit.left (h : Fit (ps ++ qs) bytes) : Fit ps bytes :=
  fun q hq => h q (List.mem_append_left _ hq)

theorem Fit.right (h : Fit (ps ++ qs) bytes) : Fit qs (applyAll ps bytes) := by
  intro q hq
  rw [applyAll_length h.left]
  exact h q (List.mem_append_right _ hq)

theorem Patch.Holds.applyAll (hp : p.Holds bytes) (hfit : Fit ps bytes)
    (hapart : ∀ q ∈ ps, p.Apart q) : p.Holds (applyAll ps bytes) := by
  induction ps generalizing bytes with
  | nil => exact hp
  | cons q ps ih =>
    have hq := hp.apply (hfit q List.mem_cons_self) (hapart q List.mem_cons_self)
    exact ih hq hfit.tail fun q' hq' => hapart q' (List.mem_cons_of_mem _ hq')

theorem holds_of_pairwise (hfit : Fit ps bytes) (hapart : ps.Pairwise Patch.Apart) :
    ∀ p ∈ ps, p.Holds (applyAll ps bytes) := by
  induction ps generalizing bytes with
  | nil => simp
  | cons p ps ih =>
    obtain ⟨hp,hps⟩ := List.pairwise_cons.mp hapart
    intro q hq
    rcases List.mem_cons.mp hq with rfl | hq
    · exact (Patch.holds_apply (hfit q List.mem_cons_self)).applyAll hfit.tail hp
    · exact ih hfit.tail hps q hq

end Buffer
