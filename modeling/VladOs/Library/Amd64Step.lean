import VladOs.Library.Amd64
import VladOs.Library.Paging
import VladOs.Library.Stuttering

namespace Amd64

open Paging Stuttering

structure Cpu where
  regs : Gpr → UInt64
  rip : UInt64
  rflags : UInt64

inductive Result where
  | proceed (next : Cpu) (stores : List (ℕ × UInt8))
  | trap (vector : UInt8) (next : Cpu)
  | pageFault (address : ℕ) (present write : Bool)
  | protection

def Result.target : Result → Option Cpu
  | .proceed next _ | .trap _ next => some next
  | _ => none

structure Processor where
  writable : ℕ → Bool
  supervisor : ℕ → Bool
  adjust : Cpu → Bool

def signed8 (v : UInt8) : UInt64 := v.toInt8.toInt64.toUInt64

def signed32 (v : UInt32) : UInt64 := v.toInt32.toInt64.toUInt64

def setFlag (n : ℕ) (b : Bool) (w : UInt64) : UInt64 :=
  if b then w ||| UInt64.ofNat (2 ^ n) else w &&& ~~~UInt64.ofNat (2 ^ n)

def evenParity (n : ℕ) : Bool := ((List.range 8).filter n.testBit).length % 2 = 0

namespace Cpu

def set (r : Gpr) (v : UInt64) (c : Cpu) : Cpu := { c with regs := Function.update c.regs r v }

def goTo (rip : UInt64) (c : Cpu) : Cpu := { c with rip := rip }

def flag (n : ℕ) (c : Cpu) : Bool := c.rflags.toNat.testBit n

def setFlags (width : ℕ) (carry adjust overflow : Bool) (result : ℕ) (c : Cpu) : Cpu :=
  { c with rflags := c.rflags |> setFlag 0 carry |> setFlag 2 (evenParity result) |> setFlag 4 adjust
    |> setFlag 6 (result = 0) |> setFlag 7 (result.testBit (width - 1)) |> setFlag 11 overflow }

def sum (width a b : ℕ) (carry : Bool) (c : Cpu) : Cpu :=
  let result := (a + b) % 2 ^ width
  let sign := fun n : ℕ => n.testBit (width - 1)
  c.setFlags width carry (16 ≤ a % 16 + b % 16) (sign a = sign b ∧ sign result ≠ sign a) result

def compare (width a b : ℕ) (c : Cpu) : Cpu :=
  let result := (a + 2 ^ width - b) % 2 ^ width
  let sign := fun n : ℕ => n.testBit (width - 1)
  c.setFlags width (a < b) (a % 16 < b % 16) (sign a ≠ sign b ∧ sign result ≠ sign a) result

end Cpu

def Insn.falls : Insn → Cpu → Bool
  | .jmp _, _ | .int _, _ => false
  | .je _, c => !c.flag 6
  | .jne _, c => c.flag 6
  | _, _ => true

def Insn.stops : Insn → Bool
  | .jmp _ | .int _ => true
  | _ => false

def blockLength : List Insn → ℕ
  | [] => 0
  | i :: rest => if i.stops then 1 else blockLength rest + 1

def word (bytes : List UInt8) : UInt64 := UInt64.ofNat (LittleEndian.decode bytes)

def storeBytes : ℕ → List UInt8 → List (ℕ × UInt8)
  | _, [] => []
  | a, b :: bytes => (a,b) :: storeBytes (a + 1) bytes

def fetch (view : View) : ℕ → ℕ → List UInt8
  | _, 0 => []
  | a, n + 1 =>
    if a < 2 ^ 47 then
      match view.byte a with
      | some b => b :: fetch view (a + 1) n
      | none => []
    else []

namespace Processor

variable (p : Processor) (view : View)

def checker (write : Bool) : Checker (ℕ × Bool) where
  absent n := (n,p.supervisor n)
  refuse n flags := if write ∧ p.writable flags = false then some (n,true) else none

def reading (write : Bool) (a len : ℕ) (rest : List UInt8 → Result) : Result :=
  if a + len ≤ 2 ^ 47 then
    match readBytes (p.checker write) view a len with
    | .ok bytes => rest bytes
    | .error (n,present) => .pageFault (max a (n * 4096)) present write
  else if a < 2 ^ 64 - 2 ^ 47 then .protection
  else .pageFault a (p.supervisor (a / 4096)) write

def exec (i : Insn) (c : Cpu) : Result :=
  let next := c.goTo (c.rip + UInt64.ofNat i.size)
  let address := fun base : Base => (c.regs base.reg).toNat
  match i with
  | .movImm64 dest value => .proceed (next.set dest value) []
  | .movImm32 dest value => .proceed (next.set dest (signed32 value)) []
  | .mov dest src => .proceed (next.set dest (c.regs src)) []
  | .load dest base => p.reading view false (address base) 8 fun bytes =>
      .proceed (next.set dest (word bytes)) []
  | .store base src => p.reading view true (address base) 8 fun _ =>
      .proceed next (storeBytes (address base) (LittleEndian.encode 8 (c.regs src).toNat))
  | .storeImm base value => p.reading view true (address base) 8 fun _ =>
      .proceed next (storeBytes (address base) (LittleEndian.encode 8 (signed32 value).toNat))
  | .storeByte base value => p.reading view true (address base) 1 fun _ =>
      .proceed next [(address base,value)]
  | .inc base => p.reading view true (address base) 8 fun bytes =>
      .proceed (next.sum 64 (word bytes).toNat 1 (c.flag 0))
        (storeBytes (address base) (LittleEndian.encode 8 (word bytes + 1).toNat))
  | .cmp left right => .proceed (next.compare 64 (c.regs left).toNat (c.regs right).toNat) []
  | .cmpLoad left base => p.reading view false (address base) 8 fun bytes =>
      .proceed (next.compare 64 (c.regs left).toNat (word bytes).toNat) []
  | .cmpByte base value => p.reading view false (address base) 1 fun bytes =>
      .proceed (next.compare 8 (LittleEndian.decode bytes) value.toNat) []
  | .cmpDword base value => p.reading view false (address base) 4 fun bytes =>
      .proceed (next.compare 32 (LittleEndian.decode bytes) value.toNat) []
  | .test left right =>
    .proceed (next.setFlags 64 false (p.adjust c) false (c.regs left &&& c.regs right).toNat) []
  | .add dest value =>
    let sum := (c.regs dest).toNat + (signed32 value).toNat
    .proceed ((next.sum 64 (c.regs dest).toNat (signed32 value).toNat (2 ^ 64 ≤ sum)).set dest
      (c.regs dest + signed32 value)) []
  | .jmp offset => .proceed (next.goTo (next.rip + signed8 offset)) []
  | .je offset => .proceed (if c.flag 6 then next.goTo (next.rip + signed8 offset) else next) []
  | .jne offset => .proceed (if c.flag 6 then next else next.goTo (next.rip + signed8 offset)) []
  | .int vector => .trap vector next

def step (c : Cpu) : Option Result :=
  (Insn.decode (fetch view c.rip.toNat 15)).map fun i => p.exec view i c

def Silent (c c' : Cpu) : Prop := p.step view c = some (.proceed c' [])

def runBlock : List Insn → Cpu → Result
  | [], c => .proceed c []
  | i :: rest, c =>
    if rest = [] ∨ i.falls c = false then p.exec view i c
    else
      match p.exec view i c with
      | .proceed next [] => runBlock rest next
      | r => r

end Processor

def assemble (is : List Insn) : List UInt8 := is.flatMap Insn.encode

section

variable (c : Cpu) (r r' : Gpr) (v rip : UInt64) (width a b : ℕ) (carry adjust overflow : Bool)

@[simp] theorem Cpu.set_regs : (c.set r v).regs r' = if r' = r then v else c.regs r' :=
  Function.update_apply ..

@[simp] theorem Cpu.set_rip : (c.set r v).rip = c.rip := rfl

@[simp] theorem Cpu.goTo_regs : (c.goTo rip).regs r = c.regs r := rfl

@[simp] theorem Cpu.goTo_rip : (c.goTo rip).rip = rip := rfl

@[simp] theorem Cpu.setFlags_regs : (c.setFlags width carry adjust overflow a).regs r = c.regs r := rfl

@[simp] theorem Cpu.setFlags_rip : (c.setFlags width carry adjust overflow a).rip = c.rip := rfl

@[simp] theorem Cpu.sum_regs : (c.sum width a b carry).regs r = c.regs r := rfl

@[simp] theorem Cpu.sum_rip : (c.sum width a b carry).rip = c.rip := rfl

@[simp] theorem Cpu.compare_regs : (c.compare width a b).regs r = c.regs r := rfl

@[simp] theorem Cpu.compare_rip : (c.compare width a b).rip = c.rip := rfl

end

structure CodeAt (view : View) (a : ℕ) (code : List UInt8) : Prop where
  low : a + code.length ≤ 2 ^ 47
  byte : ∀ k < code.length, view.byte (a + k) = code[k]?

section

variable {view : View} {a n m : ℕ} {code rest : List UInt8} {b : Bool} {w : UInt64}

theorem toNat_add_ofNat (h : w.toNat + n ≤ 2 ^ 47) : (w + UInt64.ofNat n).toNat = w.toNat + n := by
  rw [UInt64.toNat_add,UInt64.toNat_ofNat',Nat.mod_eq_of_lt (by omega : n < 2 ^ 64),
    Nat.mod_eq_of_lt (by omega)]

theorem CodeAt.left (h : CodeAt view a (code ++ rest)) : CodeAt view a code := by
  obtain ⟨hlow,hbyte⟩ := h
  rw [List.length_append] at hlow hbyte
  refine ⟨by omega,fun k hk => ?_⟩
  rw [hbyte k (by omega),List.getElem?_append_left hk]

theorem CodeAt.right (h : CodeAt view a (code ++ rest)) : CodeAt view (a + code.length) rest := by
  obtain ⟨hlow,hbyte⟩ := h
  rw [List.length_append] at hlow hbyte
  refine ⟨by omega,fun k hk => ?_⟩
  have hk' := hbyte (code.length + k) (by omega)
  rwa [List.getElem?_append_right (Nat.le_add_right _ _),Nat.add_sub_cancel_left,← Nat.add_assoc] at hk'

theorem CodeAt.fetched (h : CodeAt view a code) (hlen : code.length ≤ n) :
    ∃ rest, fetch view a n = code ++ rest := by
  induction code generalizing a n with
  | nil => exact ⟨_,rfl⟩
  | cons b code ih =>
    have hsplit : CodeAt view a ([b] ++ code) := h
    have htail : CodeAt view (a + 1) code := hsplit.right
    have hlow := h.low
    have hbyte := h.byte 0 (Nat.succ_pos _)
    rw [List.length_cons] at hlow hlen
    obtain ⟨n,rfl⟩ : ∃ k, n = k + 1 := ⟨n - 1,by omega⟩
    obtain ⟨rest,hrest⟩ := ih htail (by omega : code.length ≤ n)
    refine ⟨rest,?_⟩
    rw [fetch,if_pos (by omega)]
    rw [Nat.add_zero,List.getElem?_cons_zero] at hbyte
    simp only [hbyte,hrest,List.cons_append]

theorem Insn.size_le (i : Insn) : i.size ≤ 15 := by
  cases i <;> simp [size,encode]

theorem testBit_setFlag (hn : n < 64) (hm : m < 64) :
    (setFlag m b w).toNat.testBit n = if n = m then b else w.toNat.testBit n := by
  have hpow : (UInt64.ofNat (2 ^ m)).toNat.testBit n = decide (n = m) := by
    rw [UInt64.toNat_ofNat',Nat.mod_eq_of_lt (Nat.pow_lt_pow_right (by decide) hm),Nat.testBit_two_pow]
    exact decide_eq_decide.mpr eq_comm
  rw [← UInt64.toNat_toBitVec,BitVec.testBit_toNat] at hpow
  rw [← UInt64.toNat_toBitVec,BitVec.testBit_toNat,← UInt64.toNat_toBitVec w,BitVec.testBit_toNat]
  cases b with
  | true =>
    rw [setFlag,if_pos rfl,UInt64.toBitVec_or,BitVec.getLsbD_or,hpow]
    by_cases h : n = m <;> simp [h]
  | false =>
    rw [setFlag,if_neg (by decide),UInt64.toBitVec_and,BitVec.getLsbD_and,UInt64.toBitVec_not,
      BitVec.getLsbD_not,hpow]
    by_cases h : n = m <;> simp [h,hn]

theorem Cpu.flag_setFlags (width : ℕ) (carry adjust overflow : Bool) (result : ℕ) (c : Cpu) :
    (c.setFlags width carry adjust overflow result).flag 6 = decide (result = 0) := by
  unfold flag setFlags
  rw [testBit_setFlag (by decide) (by decide),if_neg (by decide),
    testBit_setFlag (by decide) (by decide),if_neg (by decide),
    testBit_setFlag (by decide) (by decide),if_pos rfl]

theorem Cpu.flag_compare {width x y : ℕ} (c : Cpu) (hx : x < 2 ^ width) (hy : y < 2 ^ width) :
    (c.compare width x y).flag 6 = decide (x = y) := by
  unfold compare
  rw [flag_setFlags]
  refine decide_eq_decide.mpr ⟨fun h => ?_,fun h => ?_⟩
  · by_contra hne
    rcases Nat.lt_or_ge x y with hlt | hge
    · rw [Nat.mod_eq_of_lt (by omega)] at h
      omega
    · rw [show x + 2 ^ width - y = (x - y) + 2 ^ width by omega,Nat.add_mod_right,
        Nat.mod_eq_of_lt (by omega)] at h
      omega
  · rw [h,Nat.add_sub_cancel_left,Nat.mod_self]

end

section

variable {p : Processor} {view : View} {c next : Cpu} {i j : Insn} {is rest : List Insn}
  {stores : List (ℕ × UInt8)} {write : Bool} {a len : ℕ} {k : List UInt8 → Result}

theorem reading_proceed (h : p.reading view write a len k = .proceed next stores) :
    a + len ≤ 2 ^ 47 ∧ ∃ bytes, readBytes (p.checker write) view a len = .ok bytes ∧
      k bytes = .proceed next stores := by
  unfold Processor.reading at h
  split_ifs at h with hlow
  split at h
  · next bytes hbytes => exact ⟨hlow,bytes,hbytes,h⟩
  · cases h

theorem fetch_of_read {ε : Type} {check : Checker ε} {n : ℕ} {bytes : List UInt8}
    (h : readBytes check view a n = .ok bytes) (hlow : a + n ≤ 2 ^ 47) : fetch view a n = bytes := by
  induction n generalizing a bytes with
  | zero =>
    cases h
    rfl
  | succ n ih =>
    have hbyte := readBytes_byte h (Nat.succ_pos n)
    obtain ⟨page,tail,-,htail,rfl⟩ := readBytes_succ h
    rw [fetch,if_pos (by omega),show view.byte a = some _ from hbyte,ih htail (by omega)]

theorem reading_target (h : (p.reading view write a len k).target = some next) :
    ∃ bytes, p.reading view write a len k = k bytes := by
  unfold Processor.reading at h ⊢
  split_ifs at h ⊢
  · split at h
    · exact ⟨_,rfl⟩
    · cases h
  · cases h
  · cases h

theorem mem_storeBytes {bytes : List UInt8} {st : ℕ × UInt8} (h : st ∈ storeBytes a bytes) :
    ∃ k < bytes.length, st.1 = a + k := by
  induction bytes generalizing a with
  | nil => cases h
  | cons b bytes ih =>
    rcases List.mem_cons.mp h with rfl | htail
    · exact ⟨0,Nat.succ_pos _,rfl⟩
    · obtain ⟨k,hk,heq⟩ := ih htail
      exact ⟨k + 1,Nat.succ_lt_succ hk,by omega⟩

def Permitted (p : Processor) (view : View) (st : ℕ × UInt8) : Prop :=
  st.1 < 2 ^ 47 ∧ ∃ page, view (st.1 / 4096) = some page ∧ p.writable page.flags = true

theorem permitted_of_read {bytes : List UInt8} {st : ℕ × UInt8} {n : ℕ}
    (h : readBytes (p.checker true) view a len = .ok bytes) (hlow : a + len ≤ 2 ^ 47) (hn : n < len)
    (hst : st.1 = a + n) : Permitted p view st := by
  obtain ⟨page,hpage⟩ := (readBytes_ok_allowed h).1 n hn
  obtain ⟨hview,hrefuse⟩ := Checker.check_eq_ok.mp hpage
  refine ⟨by omega,page,hst ▸ hview,?_⟩
  simpa [Processor.checker] using hrefuse

theorem stored_permitted {st : ℕ × UInt8} {f : List UInt8 → Cpu}
    {g : List UInt8 → List UInt8} (hlen : ∀ read, (g read).length = len)
    (h : (p.reading view true a len fun read => .proceed (f read) (storeBytes a (g read))) =
      .proceed next stores) (hst : st ∈ stores) : Permitted p view st := by
  obtain ⟨hlow,read,hread,hk⟩ := reading_proceed h
  cases hk
  obtain ⟨n,hn,heq⟩ := mem_storeBytes hst
  exact permitted_of_read hread hlow (hlen read ▸ hn) heq

theorem exec_permitted {st : ℕ × UInt8} (h : p.exec view i c = .proceed next stores) (hst : st ∈ stores) :
    Permitted p view st := by
  cases i with
  | store | storeImm | inc =>
    exact stored_permitted (fun _ => LittleEndian.encode_length ..) h hst
  | storeByte base value => exact stored_permitted (g := fun _ => [value]) (fun _ => rfl) h hst
  | load | cmpLoad | cmpByte | cmpDword =>
    obtain ⟨-,bytes,-,hk⟩ := reading_proceed h
    cases hk
    cases hst
  | int => cases h
  | _ =>
    cases h
    cases hst

theorem exec_falls (h : p.exec view i c = .proceed next stores) (hfalls : i.falls c = true) :
    next.rip = c.rip + UInt64.ofNat i.size := by
  cases i with
  | load | store | storeImm | storeByte | inc | cmpLoad | cmpByte | cmpDword =>
    obtain ⟨-,bytes,-,hk⟩ := reading_proceed h
    cases hk
    rfl
  | je offset =>
    cases h
    rw [show c.flag 6 = false by simpa [Insn.falls] using hfalls]
    rfl
  | jne offset =>
    cases h
    rw [show c.flag 6 = true from hfalls]
    rfl
  | jmp | int => cases hfalls
  | _ =>
    cases h
    rfl

theorem CodeAt.step (h : CodeAt view c.rip.toNat i.encode) : p.step view c = some (p.exec view i c) := by
  obtain ⟨rest,hrest⟩ := h.fetched i.size_le
  rw [Processor.step,hrest,Insn.decode_encode,Option.map_some]

theorem blockLength_pos (i : Insn) (rest : List Insn) : 0 < blockLength (i :: rest) := by
  unfold blockLength
  split_ifs <;> omega

theorem blockLength_falls (h : i.falls c = true) : blockLength (i :: rest) = blockLength rest + 1 := by
  have hstops : i.stops = false := by
    cases i with
    | jmp | int => cases h
    | _ => rfl
  rw [blockLength,if_neg (by simp [hstops])]

theorem CodeAt.runs (h : CodeAt view c.rip.toNat (assemble (i :: rest))) :
    ∃ n < blockLength (i :: rest), ∃ c₁, Chain (p.Silent view) n c c₁ ∧
      p.step view c₁ = some (p.runBlock view (i :: rest) c) := by
  induction rest generalizing i c with
  | nil =>
    refine ⟨0,blockLength_pos ..,c,.done,?_⟩
    rw [Processor.runBlock,if_pos (Or.inl rfl)]
    have hcode : CodeAt view c.rip.toNat (i.encode ++ []) := h
    exact hcode.left.step
  | cons j rest ih =>
    have hstep : p.step view c = some (p.exec view i c) := CodeAt.step (CodeAt.left h)
    rw [Processor.runBlock]
    by_cases hfalls : i.falls c = true
    · rw [if_neg (by simp [hfalls])]
      split
      · next next hexec =>
        have hrip := exec_falls hexec hfalls
        have hlow := h.low
        have hcode : CodeAt view next.rip.toNat (assemble (j :: rest)) := by
          have hsize : i.size ≤ (assemble (i :: j :: rest)).length := by
            simp [assemble,Insn.size]
          rw [hrip,toNat_add_ofNat (by omega)]
          exact CodeAt.right h
        obtain ⟨n,hn,c₁,hchain,hlast⟩ := ih hcode
        rw [blockLength_falls hfalls]
        exact ⟨n + 1,Nat.succ_lt_succ hn,c₁,.step (hstep.trans (congrArg some hexec)) hchain,hlast⟩
      · exact ⟨0,blockLength_pos ..,c,.done,hstep⟩
    · rw [if_pos (Or.inr (Bool.not_eq_true _ ▸ hfalls))]
      exact ⟨0,blockLength_pos ..,c,.done,hstep⟩

theorem runBlock_permitted {st : ℕ × UInt8} (h : p.runBlock view is c = .proceed next stores)
    (hst : st ∈ stores) : Permitted p view st := by
  induction is generalizing c with
  | nil =>
    cases h
    cases hst
  | cons i is ih =>
    rw [Processor.runBlock] at h
    split_ifs at h
    · exact exec_permitted h hst
    · split at h
      · exact ih h
      · exact exec_permitted h hst

theorem runBlock_falls (hexec : p.exec view i c = .proceed next []) (hfalls : i.falls c = true) :
    p.runBlock view (i :: j :: rest) c = p.runBlock view (j :: rest) next := by
  rw [Processor.runBlock,if_neg (by simp [hfalls]),hexec]

theorem runBlock_reading {f : List UInt8 → Cpu}
    (hexec : p.exec view i c = p.reading view write a len fun bytes => .proceed (f bytes) [])
    (hfalls : i.falls c = true) : p.runBlock view (i :: j :: rest) c =
      p.reading view write a len fun bytes => p.runBlock view (j :: rest) (f bytes) := by
  rw [Processor.runBlock,if_neg (by simp [hfalls]),hexec]
  unfold Processor.reading
  split_ifs
  · cases readBytes (p.checker write) view a len <;> rfl
  · rfl
  · rfl

@[simp] theorem runBlock_movImm64 (dest : Gpr) (value : UInt64) :
    p.runBlock view (.movImm64 dest value :: j :: rest) c =
      p.runBlock view (j :: rest) ((c.goTo (c.rip + 10)).set dest value) :=
  runBlock_falls rfl rfl

@[simp] theorem runBlock_movImm32 (dest : Gpr) (value : UInt32) :
    p.runBlock view (.movImm32 dest value :: j :: rest) c =
      p.runBlock view (j :: rest) ((c.goTo (c.rip + 7)).set dest (signed32 value)) :=
  runBlock_falls rfl rfl

@[simp] theorem runBlock_mov (dest src : Gpr) :
    p.runBlock view (.mov dest src :: j :: rest) c =
      p.runBlock view (j :: rest) ((c.goTo (c.rip + 3)).set dest (c.regs src)) :=
  runBlock_falls rfl rfl

@[simp] theorem runBlock_load (dest : Gpr) (base : Base) :
    p.runBlock view (.load dest base :: j :: rest) c =
      p.reading view false (c.regs base.reg).toNat 8 fun bytes =>
        p.runBlock view (j :: rest) ((c.goTo (c.rip + 3)).set dest (word bytes)) :=
  runBlock_reading rfl rfl

@[simp] theorem runBlock_add (dest : Gpr) (value : UInt32) :
    p.runBlock view (.add dest value :: j :: rest) c =
      p.runBlock view (j :: rest) (((c.goTo (c.rip + 7)).sum 64 (c.regs dest).toNat (signed32 value).toNat
        (2 ^ 64 ≤ (c.regs dest).toNat + (signed32 value).toNat)).set dest
          (c.regs dest + signed32 value)) :=
  runBlock_falls rfl rfl

@[simp] theorem runBlock_cmp (left right : Gpr) :
    p.runBlock view (.cmp left right :: j :: rest) c =
      p.runBlock view (j :: rest)
        ((c.goTo (c.rip + 3)).compare 64 (c.regs left).toNat (c.regs right).toNat) :=
  runBlock_falls rfl rfl

@[simp] theorem runBlock_cmpLoad (left : Gpr) (base : Base) :
    p.runBlock view (.cmpLoad left base :: j :: rest) c =
      p.reading view false (c.regs base.reg).toNat 8 fun bytes => p.runBlock view (j :: rest)
        ((c.goTo (c.rip + 3)).compare 64 (c.regs left).toNat (word bytes).toNat) :=
  runBlock_reading rfl rfl

@[simp] theorem runBlock_cmpByte (base : Base) (value : UInt8) :
    p.runBlock view (.cmpByte base value :: j :: rest) c =
      p.reading view false (c.regs base.reg).toNat 1 fun bytes => p.runBlock view (j :: rest)
        ((c.goTo (c.rip + 3)).compare 8 (LittleEndian.decode bytes) value.toNat) :=
  runBlock_reading rfl rfl

@[simp] theorem runBlock_cmpDword (base : Base) (value : UInt32) :
    p.runBlock view (.cmpDword base value :: j :: rest) c =
      p.reading view false (c.regs base.reg).toNat 4 fun bytes => p.runBlock view (j :: rest)
        ((c.goTo (c.rip + 6)).compare 32 (LittleEndian.decode bytes) value.toNat) :=
  runBlock_reading rfl rfl

@[simp] theorem runBlock_test (left right : Gpr) :
    p.runBlock view (.test left right :: j :: rest) c =
      p.runBlock view (j :: rest) ((c.goTo (c.rip + 3)).setFlags 64 false (p.adjust c) false
        (c.regs left &&& c.regs right).toNat) :=
  runBlock_falls rfl rfl

@[simp] theorem runBlock_je (offset : UInt8) :
    p.runBlock view (.je offset :: j :: rest) c =
      if c.flag 6 then .proceed (c.goTo (c.rip + 2 + signed8 offset)) []
      else p.runBlock view (j :: rest) (c.goTo (c.rip + 2)) := by
  cases hflag : c.flag 6 with
  | true =>
    rw [if_pos rfl,Processor.runBlock,if_pos (Or.inr (by simp [Insn.falls,hflag]))]
    simp only [Processor.exec,hflag,if_true]
    rfl
  | false =>
    rw [if_neg (by decide)]
    refine runBlock_falls ?_ (by simp [Insn.falls,hflag])
    simp only [Processor.exec,hflag,Bool.false_eq_true,if_false]
    rfl

@[simp] theorem runBlock_jne (offset : UInt8) :
    p.runBlock view (.jne offset :: j :: rest) c =
      if c.flag 6 then p.runBlock view (j :: rest) (c.goTo (c.rip + 2))
      else .proceed (c.goTo (c.rip + 2 + signed8 offset)) [] := by
  cases hflag : c.flag 6 with
  | false =>
    rw [if_neg (by decide),Processor.runBlock,if_pos (Or.inr (by simp [Insn.falls,hflag]))]
    simp only [Processor.exec,hflag,Bool.false_eq_true,if_false]
    rfl
  | true =>
    rw [if_pos rfl]
    refine runBlock_falls ?_ (by simp [Insn.falls,hflag])
    simp only [Processor.exec,hflag,if_true]
    rfl

@[simp] theorem runBlock_int (vector : UInt8) :
    p.runBlock view (.int vector :: rest) c = .trap vector (c.goTo (c.rip + 2)) := by
  rw [Processor.runBlock,if_pos (Or.inr (by simp [Insn.falls]))]
  rfl

@[simp] theorem runBlock_last : p.runBlock view [i] c = p.exec view i c := by
  rw [Processor.runBlock,if_pos (Or.inl rfl)]

end

end Amd64
