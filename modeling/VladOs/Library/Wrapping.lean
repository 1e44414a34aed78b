import Mathlib.Order.Nat
import Mathlib.Tactic.Common

namespace Wrapping

variable {α : Type}

def cut (w : ℕ) (line : List α) : List (List α) :=
  if line.length ≤ w ∨ w = 0 then [line] else line.take w :: cut w (line.drop w)
termination_by line.length
decreasing_by
  rw [List.length_drop]
  omega

def rows [DecidableEq α] (separator : α) (w : ℕ) (text : List α) : List (List α) :=
  (text.splitOn separator).flatMap (cut w)

structure Grows (w : ℕ) (c : α) (old new : List (List α)) : Prop where
  grows : ∃ before last, old = before ++ [last] ∧ last.length ≤ w ∧
    new = if last.length = w then before ++ [last,[c]] else before ++ [last ++ [c]]

theorem getElem?_snoc {xs : List α} {x y : α} {i : ℕ} (h : (xs ++ [x])[i]? = some y) :
    xs[i]? = some y ∧ i < xs.length ∨ i = xs.length ∧ y = x := by
  have hlt := (List.getElem?_eq_some_iff.mp h).1
  rw [List.length_append,List.length_singleton] at hlt
  rw [List.getElem?_append] at h
  split at h
  · next hi => exact Or.inl ⟨h,hi⟩
  · next hi => exact Or.inr ⟨by omega,List.mem_singleton.mp (List.mem_of_getElem? h)⟩

theorem Grows.after {w : ℕ} {c : α} {old new : List (List α)} (h : Grows w c old new)
    (earlier : List (List α)) : Grows w c (earlier ++ old) (earlier ++ new) := by
  obtain ⟨before,last,rfl,hlen,rfl⟩ := h
  refine ⟨earlier ++ before,last,(List.append_assoc ..).symm,hlen,?_⟩
  split <;> rw [List.append_assoc]

section

variable {w : ℕ} {c : α} {line : List α}

theorem cut_short (h : line.length ≤ w) : cut w line = [line] := by
  rw [cut,if_pos (Or.inl h)]

theorem cut_long (h : w < line.length) (hw : 0 < w) :
    cut w line = line.take w :: cut w (line.drop w) := by
  rw [cut,if_neg (by omega)]

theorem cut_snoc (hw : 0 < w) (c : α) (line : List α) : Grows w c (cut w line) (cut w (line ++ [c])) := by
  induction line using cut.induct w with
  | case1 line h =>
    rcases Nat.lt_or_eq_of_le (show line.length ≤ w by omega) with hlt | heq
    · refine ⟨[],line,cut_short hlt.le,hlt.le,?_⟩
      rw [if_neg hlt.ne,cut_short (by rw [List.length_append]; exact hlt)]
      rfl
    · refine ⟨[],line,cut_short heq.le,heq.le,?_⟩
      rw [if_pos heq,cut_long (by simp [heq]) hw,List.take_left' heq,List.drop_left' heq,
        cut_short hw]
      rfl
  | case2 line h ih =>
    have hgt : w < line.length := by omega
    have hlong : w < (line ++ [c]).length := by
      rw [List.length_append]
      omega
    rw [cut_long hgt hw,cut_long hlong hw,List.take_append_of_le_length hgt.le,
      List.drop_append_of_le_length hgt.le]
    exact ih.after [line.take w]

end

section

variable [DecidableEq α] {separator c : α} {w : ℕ}

theorem rows_nil : rows separator w [] = [[]] := by
  rw [rows,List.splitOn_nil,List.flatMap_singleton,cut_short (Nat.zero_le w)]

theorem rows_ne_nil (text : List α) : rows separator w text ≠ [] := by
  obtain ⟨line,lines,hsplit⟩ := List.exists_cons_of_ne_nil (List.splitOn_ne_nil separator text)
  rw [rows,hsplit,List.flatMap_cons,cut]
  split <;> simp

theorem rows_snoc_separator (text : List α) :
    rows separator w (text ++ [separator]) = rows separator w text ++ [[]] := by
  rw [rows,List.splitOn_append_cons_self,List.flatMap_append,List.splitOn_nil,List.flatMap_singleton,
    cut_short (Nat.zero_le w)]
  rfl

theorem splitOn_snoc (hc : c ≠ separator) (text : List α) :
    ∃ before last, text.splitOn separator = before ++ [last] ∧
      (text ++ [c]).splitOn separator = before ++ [last ++ [c]] := by
  induction text with
  | nil => exact ⟨[],[],rfl,by simp [List.splitOn_cons_eq_if_modifyHead,hc]⟩
  | cons a text ih =>
    obtain ⟨before,last,hold,hnew⟩ := ih
    rw [List.cons_append,List.splitOn_cons_eq_if_modifyHead,List.splitOn_cons_eq_if_modifyHead,hold,hnew]
    by_cases ha : a = separator
    · exact ⟨[] :: before,last,by simp [ha],by simp [ha]⟩
    · cases before with
      | nil => exact ⟨[],a :: last,by simp [ha],by simp [ha]⟩
      | cons first before => exact ⟨(a :: first) :: before,last,by simp [ha],by simp [ha]⟩

theorem rows_snoc (hw : 0 < w) (hc : c ≠ separator) (text : List α) :
    Grows w c (rows separator w text) (rows separator w (text ++ [c])) := by
  obtain ⟨before,last,hold,hnew⟩ := splitOn_snoc hc text
  rw [rows,rows,hold,hnew,List.flatMap_append,List.flatMap_append,List.flatMap_singleton,
    List.flatMap_singleton]
  exact (cut_snoc hw c last).after _

example : rows 0 2 [1,2,0,0,3,4,5] = [[1,2],[],[3,4],[5]] := by
  simp [rows,cut,List.splitOn_cons_eq_if_modifyHead]

end

end Wrapping
