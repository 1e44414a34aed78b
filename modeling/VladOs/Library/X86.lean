import Mathlib.Data.List.Induction
import Mathlib.Logic.Function.Basic
import VladOs.Library.LittleEndian

namespace X86

abbrev Bytes := ℕ → UInt8

namespace Bytes

def word (m : Bytes) (a : ℕ) : UInt64 :=
  UInt64.ofNat (LittleEndian.decode ((List.range 8).map fun j => m (a + j)))

def setWord (m : Bytes) (a : ℕ) (w : UInt64) : Bytes := fun x =>
  if a ≤ x ∧ x < a + 8 then (LittleEndian.encode 8 w.toNat).getD (x - a) 0 else m x

variable {m m' : Bytes} {a b : ℕ} {w : UInt64}

theorem word_congr (h : ∀ x, a ≤ x → x < a + 8 → m' x = m x) : m'.word a = m.word a := by
  unfold word
  congr 2
  refine List.map_congr_left fun j hj => h _ (Nat.le_add_right _ _) ?_
  have hlt := List.mem_range.mp hj
  omega

theorem setWord_outside {x : ℕ} (h : x < a ∨ a + 8 ≤ x) : m.setWord a w x = m x :=
  if_neg (by omega)

@[simp] theorem word_setWord (m : Bytes) (a : ℕ) (w : UInt64) : (m.setWord a w).word a = w := by
  have hbytes : (List.range 8).map (fun j => m.setWord a w (a + j)) = LittleEndian.encode 8 w.toNat := by
    have hget : ∀ j ∈ List.range 8, m.setWord a w (a + j) = (LittleEndian.encode 8 w.toNat).getD j 0 := by
      intro j hj
      have hlt := List.mem_range.mp hj
      rw [setWord,if_pos ⟨by omega,by omega⟩,Nat.add_sub_cancel_left]
    rw [List.map_congr_left hget]
    simpa using LittleEndian.map_getD_range (LittleEndian.encode 8 w.toNat)
  rw [word,hbytes,LittleEndian.decode_encode,Nat.mod_eq_of_lt (show w.toNat < 256 ^ 8 from w.toNat_lt),
    UInt64.ofNat_toNat]

def Holds (m : Bytes) : ℕ → List UInt64 → Prop
  | _, [] => True
  | a, w :: ws => m.word a = w ∧ Holds m (a + 8) ws

theorem holds_congr {ws : List UInt64} (h : ∀ x, a ≤ x → x < a + 8 * ws.length → m' x = m x) :
    m'.Holds a ws ↔ m.Holds a ws := by
  induction ws generalizing a with
  | nil => rfl
  | cons w ws ih =>
    rw [List.length_cons] at h
    rw [Holds,Holds,word_congr fun x hlow hhigh => h x hlow (by omega),
      ih fun x hlow hhigh => h x (by omega) (by omega)]

theorem Holds.word {ws : List UInt64} {k : ℕ} (h : m.Holds a ws) (hk : ws[k]? = some w) :
    m.word (a + 8 * k) = w := by
  induction ws generalizing a k with
  | nil => simp at hk
  | cons v ws ih =>
    cases k with
    | zero =>
      cases hk
      exact h.1
    | succ k =>
      have haddr : a + 8 * (k + 1) = a + 8 + 8 * k := by omega
      rw [haddr]
      exact ih h.2 hk

end Bytes

inductive Reg where
  | rax
  | rbx
  | rcx
  | rdx
  | rbp
  | rdi
  | rsi
  | rsp
  | r8
  | r9
  | r10
  | r11
  | r12
  | r13
  | r14
  | r15
  deriving DecidableEq, Repr

structure State where
  regs : Reg → UInt64
  rip : UInt64
  cs : UInt64
  rflags : UInt64
  ss : UInt64
  memory : Bytes

namespace State

def sp (s : State) : ℕ := (s.regs .rsp).toNat

def set (r : Reg) (v : UInt64) (s : State) : State := { s with regs := Function.update s.regs r v }

def push (v : UInt64) (s : State) : State :=
  let top := s.regs .rsp - 8
  { s.set .rsp top with memory := s.memory.setWord top.toNat v }

def pop (s : State) : UInt64 × State := (s.memory.word s.sp,s.set .rsp (s.regs .rsp + 8))

end State

inductive Instr where
  | push (r : Reg)
  | pop (r : Reg)
  | mov (dest src : Reg)
  | load (dest base : Reg)
  | store (base src : Reg)
  | and (dest : Reg) (imm : UInt64)
  | cld

def Instr.run : Instr → State → State
  | .push r, s => s.push (s.regs r)
  | .pop r, s => s.pop.2.set r s.pop.1
  | .mov dest src, s => s.set dest (s.regs src)
  | .load dest base, s => s.set dest (s.memory.word (s.regs base).toNat)
  | .store base src, s => { s with memory := s.memory.setWord (s.regs base).toNat (s.regs src) }
  | .and dest imm, s => s.set dest (s.regs dest &&& imm)
  | .cld, s => { s with rflags := s.rflags &&& ~~~0x400 }

def runAll (is : List Instr) (s : State) : State := is.foldl (fun s i => i.run s) s

inductive Stmt (L H : Type) where
  | instr (i : Instr)
  | call (h : H)
  | jmp (l : L)
  | ret
  | iretq

namespace State

def ret (s : State) : State := { s.pop.2 with rip := s.pop.1 }

def iretq (s : State) : State where
  regs := Function.update s.regs .rsp (s.memory.word (s.sp + 24))
  rip := s.memory.word s.sp
  cs := s.memory.word (s.sp + 8)
  rflags := s.memory.word (s.sp + 16)
  ss := s.memory.word (s.sp + 32)
  memory := s.memory

end State

inductive Exec {L H : Type} (code : L → List (Stmt L H)) (call : H → State → State → Prop) :
    List (Stmt L H) → State → State → Prop where
  | instr {i : Instr} {rest : List (Stmt L H)} {s s' : State} :
      Exec code call rest (i.run s) s' → Exec code call (.instr i :: rest) s s'
  | call {h : H} {rest : List (Stmt L H)} {s s₁ s' : State} : call h s s₁ →
      Exec code call rest s₁ s' → Exec code call (.call h :: rest) s s'
  | jmp {l : L} {rest : List (Stmt L H)} {s s' : State} :
      Exec code call (code l) s s' → Exec code call (.jmp l :: rest) s s'
  | ret {rest : List (Stmt L H)} {s : State} : Exec code call (.ret :: rest) s s.ret
  | iretq {rest : List (Stmt L H)} {s : State} : Exec code call (.iretq :: rest) s s.iretq

def block {L H : Type} (is : List Instr) : List (Stmt L H) := is.map .instr

section

variable {s : State}

theorem runAll_cons (i : Instr) (is : List Instr) : runAll (i :: is) s = runAll is (i.run s) := rfl

theorem runAll_append (is js : List Instr) : runAll (is ++ js) s = runAll js (runAll is s) :=
  List.foldl_append ..

theorem sub_eight_toNat {v : UInt64} (h : 8 ≤ v.toNat) : (v - 8).toNat = v.toNat - 8 :=
  UInt64.toNat_sub_of_le _ _ (UInt64.le_iff_toNat_le.mpr h)

theorem add_eight_toNat {v : UInt64} (h : v.toNat + 8 < 2 ^ 64) : (v + 8).toNat = v.toNat + 8 := by
  rw [UInt64.toNat_add]
  exact Nat.mod_eq_of_lt h

@[simp] theorem set_self (r : Reg) (v : UInt64) : (s.set r v).regs r = v := Function.update_self ..

theorem set_of_ne {r r' : Reg} {v : UInt64} (h : r' ≠ r) : (s.set r v).regs r' = s.regs r' :=
  Function.update_of_ne h ..

theorem ret_rip : s.ret.rip = s.memory.word s.sp := rfl

theorem ret_sp (h : s.sp + 8 < 2 ^ 64) : s.ret.sp = s.sp + 8 := by
  have hrsp : s.ret.regs .rsp = s.regs .rsp + 8 := by simp [State.ret,State.pop]
  rw [State.sp,hrsp]
  exact add_eight_toNat h

theorem ret_of_ne {r : Reg} (h : r ≠ .rsp) : s.ret.regs r = s.regs r := set_of_ne h

theorem iretq_rsp : s.iretq.regs .rsp = s.memory.word (s.sp + 24) := by
  simp [State.iretq]

theorem iretq_of_ne {r : Reg} (h : r ≠ .rsp) : s.iretq.regs r = s.regs r := Function.update_of_ne h ..

theorem and_neg_sixteen_toNat (v : UInt64) : (v &&& -16).toNat = v.toNat / 16 * 16 := by
  have hmask : (-16 : UInt64).toNat = (2 ^ 60 - 1) <<< 4 := by decide
  have hshift : v.toNat / 16 * 16 = (v.toNat >>> 4) <<< 4 := by
    rw [Nat.shiftRight_eq_div_pow,Nat.shiftLeft_eq]
  rw [UInt64.toNat_and,hmask,hshift]
  refine Nat.eq_of_testBit_eq fun i => ?_
  rw [Nat.testBit_and,Nat.testBit_shiftLeft,Nat.testBit_shiftLeft,Nat.testBit_shiftRight,
    Nat.testBit_two_pow_sub_one]
  by_cases hi : 4 ≤ i
  · by_cases hj : i < 64
    · simp [hi,show i - 4 < 60 by omega]
    · have hlt : v.toNat < 2 ^ i :=
        lt_of_lt_of_le v.toNat_lt (Nat.pow_le_pow_right (by decide) (by omega))
      simp [Nat.testBit_lt_two_pow hlt,hi]
  · simp [hi]

def pushAll (vs : List UInt64) (s : State) : State := vs.foldl (fun s v => s.push v) s

theorem pushAll_append (vs ws : List UInt64) (s : State) : pushAll (vs ++ ws) s = pushAll ws (pushAll vs s) :=
  List.foldl_append ..

structure StackGrown (s : State) (vs : List UInt64) (s' : State) : Prop where
  sp : s'.sp + 8 * vs.length = s.sp
  regs : ∀ r, r ≠ .rsp → s'.regs r = s.regs r
  control : s'.rip = s.rip ∧ s'.cs = s.cs ∧ s'.rflags = s.rflags ∧ s'.ss = s.ss
  holds : s'.memory.Holds s'.sp vs.reverse
  outside : ∀ x, x < s'.sp ∨ s.sp ≤ x → s'.memory x = s.memory x

theorem StackGrown.push {vs : List UInt64} {s' : State} (h : StackGrown s vs s') (v : UInt64)
    (hroom : 8 ≤ s'.sp) :
    StackGrown s (vs ++ [v]) (s'.push v) := by
  have hsp : (s'.push v).sp = s'.sp - 8 := sub_eight_toNat hroom
  have hmem : (s'.push v).memory = s'.memory.setWord (s'.sp - 8) v := by
    rw [← hsp]
    rfl
  have hold := h.sp
  refine ⟨?_,fun r hr => (set_of_ne hr).trans (h.regs r hr),h.control,?_,fun x hx => ?_⟩
  · rw [hsp,List.length_append,List.length_singleton]
    omega
  · rw [List.reverse_append,List.reverse_singleton,List.singleton_append,Bytes.Holds,hsp,hmem]
    refine ⟨Bytes.word_setWord ..,?_⟩
    rw [Nat.sub_add_cancel hroom]
    refine (Bytes.holds_congr fun x hlow _ => Bytes.setWord_outside (Or.inr ?_)).mpr h.holds
    omega
  · rw [hsp] at hx
    rw [hmem,Bytes.setWord_outside (by omega)]
    exact h.outside x (by omega)

theorem pushAll_grown {vs : List UInt64} (hroom : 8 * vs.length ≤ s.sp) :
    StackGrown s vs (pushAll vs s) := by
  induction vs using List.reverseRecOn with
  | nil => exact ⟨rfl,fun _ _ => rfl,⟨rfl,rfl,rfl,rfl⟩,trivial,fun _ _ => rfl⟩
  | append_singleton vs v ih =>
    rw [List.length_append,List.length_singleton] at hroom
    have hvs := ih (by omega)
    have hsp := hvs.sp
    rw [pushAll_append]
    exact hvs.push v (by omega)

theorem runAll_push {rs : List Reg} (h : .rsp ∉ rs) :
    runAll (rs.map .push) s = pushAll (rs.map s.regs) s := by
  have hkeep : ∀ {rs : List Reg} {s' : State}, .rsp ∉ rs → (∀ r, r ≠ .rsp → s'.regs r = s.regs r) →
      runAll (rs.map .push) s' = pushAll (rs.map s.regs) s' := by
    intro rs
    induction rs with
    | nil => exact fun _ _ => rfl
    | cons r rs ih =>
      intro s' hnot hregs
      obtain ⟨hr,hrs⟩ := not_or.mp (List.mem_cons.not.mp hnot)
      have hval : s'.regs r = s.regs r := hregs r fun hc => hr hc.symm
      refine (ih hrs fun r' hr' => ?_).trans ?_
      · exact (set_of_ne hr').trans (hregs r' hr')
      · rw [List.map_cons,pushAll,pushAll,List.foldl_cons,← hval]
        rfl
  exact hkeep h fun _ _ => rfl

structure Shrunk (s : State) (rs : List Reg) (s' : State) : Prop where
  sp : s'.sp = s.sp + 8 * rs.length
  popped : ∀ {k r}, rs[k]? = some r → s'.regs r = s.memory.word (s.sp + 8 * k)
  kept : ∀ r, r ≠ .rsp → r ∉ rs → s'.regs r = s.regs r
  control : s'.rip = s.rip ∧ s'.cs = s.cs ∧ s'.rflags = s.rflags ∧ s'.ss = s.ss
  memory : s'.memory = s.memory

theorem runAll_pop {rs : List Reg} (hroom : s.sp + 8 * rs.length < 2 ^ 64) (hrsp : .rsp ∉ rs)
    (hnodup : rs.Nodup) : Shrunk s rs (runAll (rs.map .pop) s) := by
  induction rs generalizing s with
  | nil => exact ⟨rfl,fun h => by simp at h,fun _ _ _ => rfl,⟨rfl,rfl,rfl,rfl⟩,rfl⟩
  | cons r rs ih =>
    obtain ⟨hr,hrs⟩ := not_or.mp (List.mem_cons.not.mp hrsp)
    obtain ⟨hmem,hnodup⟩ := List.nodup_cons.mp hnodup
    rw [List.length_cons] at hroom
    have hsp : (Instr.run (.pop r) s).sp = s.sp + 8 := by
      refine (congrArg UInt64.toNat (set_of_ne hr)).trans ?_
      rw [State.pop,set_self]
      exact add_eight_toNat (show s.sp + 8 < _ by omega)
    have hrest := @ih (Instr.run (.pop r) s) (by omega) hrs hnodup
    refine ⟨?_,fun {k r'} hk => ?_,fun r' hr' hout => ?_,hrest.control,hrest.memory⟩
    · rw [List.length_cons]
      exact hrest.sp.trans (by omega)
    · cases k with
      | zero =>
        cases hk
        exact (hrest.kept r (fun hc => hr hc.symm) hmem).trans (set_self _ _)
      | succ k =>
        refine (hrest.popped hk).trans ?_
        rw [hsp]
        exact congrArg s.memory.word (by omega)
    · obtain ⟨hne,hout⟩ := not_or.mp (List.mem_cons.not.mp hout)
      exact (hrest.kept r' hr' hout).trans ((set_of_ne hne).trans (set_of_ne hr'))

end

section

variable {L H : Type} {code : L → List (Stmt L H)} {call : H → State → State → Prop}
  {rest : List (Stmt L H)} {s s' : State}

theorem exec_block (is : List Instr) :
    Exec code call (block is ++ rest) s s' ↔ Exec code call rest (runAll is s) s' := by
  induction is generalizing s with
  | nil => rfl
  | cons i is ih =>
    constructor
    · rintro (h | _)
      exact ih.mp h
    · intro h
      exact .instr (ih.mpr h)

theorem exec_call {h : H} : Exec code call (.call h :: rest) s s' ↔
    ∃ s₁, call h s s₁ ∧ Exec code call rest s₁ s' := by
  constructor
  · intro he
    cases he with
    | call hc hr => exact ⟨_,hc,hr⟩
  · rintro ⟨s₁,hc,hr⟩
    exact .call hc hr

theorem exec_jmp {l : L} : Exec code call (.jmp l :: rest) s s' ↔ Exec code call (code l) s s' := by
  constructor
  · intro he
    cases he with
    | jmp hr => exact hr
  · exact .jmp

theorem exec_ret : Exec code call (.ret :: rest) s s' ↔ s' = s.ret := by
  constructor
  · intro he
    cases he
    rfl
  · rintro rfl
    exact .ret

theorem exec_iretq : Exec code call (.iretq :: rest) s s' ↔ s' = s.iretq := by
  constructor
  · intro he
    cases he
    rfl
  · rintro rfl
    exact .iretq

end

end X86
