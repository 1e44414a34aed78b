import VladOs.Library.LittleEndian
import VladOs.Memory.Address
import Mathlib.Data.Nat.Bitwise

namespace VladOs

abbrev Frame := ℕ

abbrev PhysMem := Frame → ℕ → UInt8

namespace PhysMem

def entry (mem : PhysMem) (table : Frame) (index : ℕ) : ℕ :=
  LittleEndian.decode ((List.range 8).map fun j => mem table (8 * index + j))

def setEntry (mem : PhysMem) (table : Frame) (index value : ℕ) : PhysMem := fun f o =>
  if f = table ∧ o / 8 = index then (LittleEndian.encode 8 value).getD (o % 8) 0 else mem f o

def zeroFrame (mem : PhysMem) (frame : Frame) : PhysMem := fun f o =>
  if f = frame then 0 else mem f o

def writeBytes (mem : PhysMem) (frame : Frame) (offset : ℕ) (bytes : List UInt8) : PhysMem :=
  fun f o => if f = frame ∧ offset ≤ o ∧ o < offset + bytes.length then bytes.getD (o - offset) 0
    else mem f o

variable {mem mem' : PhysMem} {t f : Frame} {i j v : ℕ}

theorem entry_lt (mem : PhysMem) (t : Frame) (i : ℕ) : mem.entry t i < 2 ^ 64 := by
  have h := LittleEndian.decode_lt ((List.range 8).map fun j => mem t (8 * i + j))
  simpa [entry] using h

theorem entry_congr (h : mem t = mem' t) : mem.entry t i = mem'.entry t i := by
  simp only [entry,h]

theorem entry_setEntry_self (hv : v < 2 ^ 64) : (mem.setEntry t i v).entry t i = v := by
  have hbytes : (List.range 8).map (fun j => mem.setEntry t i v t (8 * i + j)) =
      LittleEndian.encode 8 v := by
    rw [← LittleEndian.map_getD_range (LittleEndian.encode 8 v),LittleEndian.encode_length]
    apply List.map_congr_left
    intro j hj
    have hj8 : j < 8 := List.mem_range.mp hj
    have hdiv : (8 * i + j) / 8 = i := by omega
    have hmod : (8 * i + j) % 8 = j := by omega
    simp [setEntry,hdiv,hmod]
  rw [entry,hbytes,LittleEndian.decode_encode]
  exact Nat.mod_eq_of_lt (by simpa using hv)

theorem entry_setEntry_of_ne (h : f ≠ t ∨ j ≠ i) :
    (mem.setEntry t i v).entry f j = mem.entry f j := by
  unfold entry
  congr 1
  apply List.map_congr_left
  intro k hk
  have hk8 : k < 8 := List.mem_range.mp hk
  have hne : ¬ (f = t ∧ (8 * j + k) / 8 = i) := by
    rintro ⟨rfl,hd⟩
    rcases h with h | h
    · exact h rfl
    · omega
  simp [setEntry,hne]

theorem setEntry_of_ne (h : f ≠ t) : mem.setEntry t i v f = mem f := by
  funext o
  simp [setEntry,h]

theorem zeroFrame_self : mem.zeroFrame t t = fun _ => 0 := by
  funext o
  simp [zeroFrame]

theorem zeroFrame_of_ne (h : f ≠ t) : mem.zeroFrame t f = mem f := by
  funext o
  simp [zeroFrame,h]

theorem entry_zeroFrame_self : (mem.zeroFrame t).entry t i = 0 := by
  simp [entry,zeroFrame_self,LittleEndian.decode,List.range,List.range.loop]

theorem writeBytes_of_ne {o : ℕ} {bs : List UInt8} (h : f ≠ t) :
    mem.writeBytes t o bs f = mem f := by
  funext p
  simp [writeBytes,h]

theorem writeBytes_self {o : ℕ} {bs : List UInt8} : mem.writeBytes t o bs t =
    fun i => if o ≤ i ∧ i < o + bs.length then bs.getD (i - o) 0 else mem t i := by
  funext p
  simp only [writeBytes,true_and]

attribute [irreducible] entry

end PhysMem

abbrev PRESENT : ℕ := 1
abbrev WRITABLE : ℕ := 2
abbrev USER_ACCESSIBLE : ℕ := 4
abbrev HUGE_PAGE : ℕ := 128

def contains (flags wanted : ℕ) : Bool := flags &&& wanted = wanted

def entryFlags (e : ℕ) : ℕ := e % 2 ^ 12 + e / 2 ^ 52 * 2 ^ 52

def entryAddress (e : ℕ) : ℕ := e / 2 ^ 12 % 2 ^ 40

def entryFrame (e : ℕ) : Option Frame :=
  if contains e PRESENT then
    if contains e HUGE_PAGE then none else some (entryAddress e)
  else none

def makeEntry (frame : Frame) (flags : ℕ) : ℕ := frame * 2 ^ 12 + flags

def removeFlags (e flags : ℕ) : ℕ := e &&& (2 ^ 64 - 1 - flags)

end VladOs
