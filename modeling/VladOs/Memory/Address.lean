import Mathlib.Tactic.Common
import Mathlib.Tactic.NormNum

namespace VladOs

abbrev PAGE_SIZE : ℕ := 4096

def checkedAdd (a b : ℕ) : Option ℕ := if a + b < 2 ^ 64 then some (a + b) else none

def alignDown (value align : ℕ) : ℕ := value / align * align

def alignUp (value align : ℕ) : Option ℕ := (checkedAdd value (align - 1)).map (alignDown · align)

theorem checkedAdd_eq_some {a b c : ℕ} : checkedAdd a b = some c ↔ a + b < 2 ^ 64 ∧ c = a + b := by
  unfold checkedAdd
  split <;> simp_all [eq_comm]

theorem checkedAdd_of_lt {a b : ℕ} (h : a + b < 2 ^ 64) : checkedAdd a b = some (a + b) :=
  if_pos h

theorem alignUp_eq_some {v w : ℕ} :
    alignUp v 4096 = some w ↔ v + 4095 < 2 ^ 64 ∧ w = (v + 4095) / 4096 * 4096 := by
  unfold alignUp checkedAdd alignDown
  split <;> simp_all [eq_comm]

def Canonical (a : ℕ) : Prop := a < 2 ^ 47 ∨ 2 ^ 64 - 2 ^ 47 ≤ a ∧ a < 2 ^ 64

structure VirtAddr where
  addr : ℕ
  canonical : Canonical addr

namespace VirtAddr

@[ext] theorem ext {a b : VirtAddr} (h : a.addr = b.addr) : a = b := by
  cases a; cases b; simp_all

instance : DecidableEq VirtAddr := fun a b =>
  decidable_of_iff (a.addr = b.addr) ⟨VirtAddr.ext,congrArg addr⟩

def new (a : ℕ) : Option VirtAddr :=
  if h : a / 2 ^ 47 = 0 then some ⟨a,Or.inl (by omega)⟩
  else if h : a / 2 ^ 47 = 0x1ffff then some ⟨a,Or.inr (by omega)⟩
  else if h : a / 2 ^ 47 = 1 then some ⟨a + 0xffff000000000000,Or.inr (by omega)⟩
  else none

theorem new_of_lt {a : ℕ} (h : a < 2 ^ 47) : new a = some ⟨a,Or.inl h⟩ := by
  have h0 : a / 2 ^ 47 = 0 := by omega
  exact dif_pos h0

theorem new_addr (v : VirtAddr) : new v.addr = some v := by
  obtain ⟨a,ha⟩ := v
  rcases ha with h | h
  · exact new_of_lt h
  · have h0 : a / 2 ^ 47 = 0x1ffff := by omega
    change new a = _
    unfold new
    rw [dif_neg (by omega),dif_pos h0]

theorem lt (v : VirtAddr) : v.addr < 2 ^ 64 := by
  have h := v.canonical
  unfold Canonical at h
  omega

def pageNumber (v : VirtAddr) : ℕ := v.addr / PAGE_SIZE

def p4Index (v : VirtAddr) : ℕ := v.addr / 2 ^ 39 % 512

def p3Index (v : VirtAddr) : ℕ := v.addr / 2 ^ 30 % 512

def p2Index (v : VirtAddr) : ℕ := v.addr / 2 ^ 21 % 512

def p1Index (v : VirtAddr) : ℕ := v.addr / 2 ^ 12 % 512

end VirtAddr

end VladOs
