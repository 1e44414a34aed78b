import Mathlib.Data.List.Infix
import VladOs.Library.Buffer

namespace Buffer

variable {α : Type} {w xs ys : List α} {n : ℕ}

def windows (n : ℕ) (xs : List α) : List (List α) :=
  (List.range (xs.length + 1 - n)).map fun i => (xs.drop i).take n

theorem mem_windows : w ∈ windows n xs ↔ w.length = n ∧ w <:+: xs := by
  unfold windows
  rw [List.mem_map]
  constructor
  · rintro ⟨i,hi,rfl⟩
    rw [List.mem_range] at hi
    refine ⟨?_,List.IsInfix.trans ( List.take_prefix ..).isInfix (List.drop_suffix ..).isInfix⟩
    rw [List.length_take,List.length_drop]
    omega
  · rintro ⟨rfl,before,after,rfl⟩
    refine ⟨before.length,?_,?_⟩
    · rw [List.mem_range,List.length_append,List.length_append]
      omega
    · rw [List.append_assoc,List.drop_left,List.take_left]

theorem take_append_taken : (xs.take n ++ ys).take n = (xs ++ ys).take n := by
  rcases Nat.le_total xs.length n with hle | hle
  · rw [List.take_of_length_le hle]
  · have hlen : (xs.take n).length = n := List.length_take_of_le hle
    rw [List.take_append_of_le_length hlen.ge,List.take_append_of_le_length hle,List.take_take,Nat.min_self]

theorem Patch.take_apply {p : Patch α} (h : p.start ≤ xs.length) :
    (p.apply xs).take p.stop = xs.take p.start ++ p.data := by
  have hstop : p.stop = (xs.take p.start ++ p.data).length := by
    rw [List.length_append,List.length_take_of_le h,Patch.stop]
  rw [hstop,Patch.apply,List.take_left]

end Buffer
