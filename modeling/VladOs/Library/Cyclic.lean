import Mathlib.Data.List.Nodup
import Mathlib.Data.List.Perm.Subperm
import Mathlib.Order.Nat
import Mathlib.Tactic.Common

namespace Cyclic

variable {n a b c d j bound : ℕ} {p : ℕ → Bool}

def distance (n a b : ℕ) : ℕ := if a % n < b then b - a % n else n - a % n + b

theorem distance_pos (hb : b < n) : 0 < distance n a b := by
  have hmod := Nat.mod_lt a (Nat.zero_lt_of_lt hb)
  unfold distance
  split <;> omega

theorem distance_le (hb : b < n) : distance n a b ≤ n := by
  have hmod := Nat.mod_lt a (Nat.zero_lt_of_lt hb)
  unfold distance
  split <;> omega

theorem add_distance (hb : b < n) : (a + distance n a b) % n = b := by
  have hmod := Nat.mod_lt a (Nat.zero_lt_of_lt hb)
  rw [← Nat.mod_add_mod,distance]
  split
  · next hlt => rw [Nat.add_sub_of_le hlt.le,Nat.mod_eq_of_lt hb]
  · rw [show a % n + (n - a % n + b) = n + b by omega,Nat.add_mod_left,Nat.mod_eq_of_lt hb]

theorem distance_of_add (hd : 0 < d) (hle : d ≤ n) : distance n a ((a + d) % n) = d := by
  have hmod := Nat.mod_lt a (hd.trans_le hle)
  rw [← Nat.mod_add_mod]
  by_cases hlt : a % n + d < n
  · rw [Nat.mod_eq_of_lt hlt,distance,if_pos (by omega)]
    omega
  · rw [Nat.mod_eq_sub_mod (Nat.le_of_not_lt hlt),Nat.mod_eq_of_lt (by omega),distance,
      if_neg (by omega)]
    omega

def search (n a : ℕ) (p : ℕ → Bool) : Option ℕ :=
  (List.range' 1 n).findSome? fun d => if p ((a + d) % n) then some ((a + d) % n) else none

theorem mem_offsets : d ∈ List.range' 1 n ↔ 0 < d ∧ d ≤ n := by
  rw [List.mem_range'_1]
  omega

theorem search_eq_none : search n a p = none ↔ ∀ b < n, p b = false := by
  simp only [search,List.findSome?_eq_none_iff,mem_offsets]
  constructor
  · intro h b hb
    have hnone := h _ ⟨distance_pos hb,distance_le (a := a) hb⟩
    rw [add_distance hb] at hnone
    simpa using hnone
  · rintro h d ⟨hd,hle⟩
    rw [h _ (Nat.mod_lt _ (hd.trans_le hle))]
    rfl

theorem search_least (h : search n a p = some b) :
    b < n ∧ p b = true ∧ ∀ c < n, p c = true → distance n a b ≤ distance n a c := by
  obtain ⟨before,d,after,hsplit,hd,hbefore⟩ := List.findSome?_eq_some_iff.mp h
  have hmem : d ∈ List.range' 1 n := by
    rw [hsplit]
    simp
  obtain ⟨hpos,hle⟩ := mem_offsets.mp hmem
  split at hd
  · next hp =>
    cases hd
    refine ⟨Nat.mod_lt _ (hpos.trans_le hle),hp,fun c hc hpc => ?_⟩
    rw [distance_of_add hpos hle]
    by_contra hlt
    have hsorted : (before ++ d :: after).Pairwise (· < ·) := hsplit ▸ List.pairwise_lt_range'
    have hin : distance n a c ∈ before ++ d :: after := by
      rw [← hsplit,mem_offsets]
      exact ⟨distance_pos hc,distance_le hc⟩
    rcases List.mem_append.mp hin with hin | hin
    · have hnone := hbefore _ hin
      rw [add_distance hc,hpc] at hnone
      cases hnone
    · rcases List.mem_cons.mp hin with heq | hin
      · omega
      · have hafter := (List.pairwise_cons.mp (List.pairwise_append.mp hsorted).2.1).1 _ hin
        omega
  · cases hd

theorem search_eq_some : search n a p = some b ↔
    b < n ∧ p b = true ∧ ∀ c < n, p c = true → distance n a b ≤ distance n a c := by
  refine ⟨search_least,?_⟩
  rintro ⟨hb,hp,hleast⟩
  cases hs : search n a p with
  | none =>
    rw [search_eq_none.mp hs b hb] at hp
    cases hp
  | some c =>
    obtain ⟨hc,hpc,hleast'⟩ := search_least hs
    have heq := le_antisymm (hleast c hc hpc) (hleast' b hb hp)
    rw [← add_distance hb,heq,add_distance hc]

def turn (bound j x : ℕ) : ℕ := if j < x then x else bound + x

theorem turn_lt (hn : n ≤ bound) (ha : a < n) (hj : j < n) (haj : a ≠ j) (hbj : b ≠ j)
    (h : distance n a b ≤ distance n a j) : turn bound j a < turn bound j b := by
  unfold distance at h
  rw [Nat.mod_eq_of_lt ha] at h
  unfold turn
  split_ifs at h ⊢ <;> omega

theorem nodup_of_turns {xs : List ℕ} (h : xs.Pairwise fun x y => turn bound j y < turn bound j x) :
    xs.Nodup := by
  refine h.imp fun {x y} hlt => ?_
  rintro rfl
  exact lt_irrefl _ hlt

theorem length_lt {xs : List ℕ} (hnodup : xs.Nodup) (hj : j < bound) (hout : j ∉ xs)
    (hlt : ∀ x ∈ xs, x < bound) : xs.length < bound := by
  have hsub : (j :: xs) ⊆ List.range bound := by
    intro x hx
    rcases List.mem_cons.mp hx with rfl | hx
    · exact List.mem_range.mpr hj
    · exact List.mem_range.mpr (hlt x hx)
  have hle := ((List.nodup_cons.mpr ⟨hout,hnodup⟩).subperm hsub).length_le
  rw [List.length_range] at hle
  exact hle

end Cyclic
