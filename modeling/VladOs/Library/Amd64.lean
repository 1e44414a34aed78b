import VladOs.Library.LittleEndian

namespace Amd64

inductive Gpr where
  | rax
  | rcx
  | rdx
  | rbx
  | rsp
  | rbp
  | rsi
  | rdi
  deriving DecidableEq, Repr

def Gpr.code : Gpr → ℕ
  | .rax => 0
  | .rcx => 1
  | .rdx => 2
  | .rbx => 3
  | .rsp => 4
  | .rbp => 5
  | .rsi => 6
  | .rdi => 7

def Gpr.ofCode : ℕ → Option Gpr
  | 0 => some .rax
  | 1 => some .rcx
  | 2 => some .rdx
  | 3 => some .rbx
  | 4 => some .rsp
  | 5 => some .rbp
  | 6 => some .rsi
  | 7 => some .rdi
  | _ => none

inductive Base where
  | rax
  | rcx
  | rdx
  | rbx
  | rsi
  | rdi
  deriving DecidableEq, Repr

def Base.reg : Base → Gpr
  | .rax => .rax
  | .rcx => .rcx
  | .rdx => .rdx
  | .rbx => .rbx
  | .rsi => .rsi
  | .rdi => .rdi

def Base.ofCode : ℕ → Option Base
  | 0 => some .rax
  | 1 => some .rcx
  | 2 => some .rdx
  | 3 => some .rbx
  | 6 => some .rsi
  | 7 => some .rdi
  | _ => none

inductive Insn where
  | movImm64 (dest : Gpr) (value : UInt64)
  | movImm32 (dest : Gpr) (value : UInt32)
  | mov (dest src : Gpr)
  | load (dest : Gpr) (base : Base)
  | store (base : Base) (src : Gpr)
  | storeImm (base : Base) (value : UInt32)
  | storeByte (base : Base) (value : UInt8)
  | inc (base : Base)
  | cmp (left right : Gpr)
  | cmpLoad (left : Gpr) (base : Base)
  | cmpByte (base : Base) (value : UInt8)
  | cmpDword (base : Base) (value : UInt32)
  | test (left right : Gpr)
  | add (dest : Gpr) (value : UInt32)
  | jmp (offset : UInt8)
  | je (offset : UInt8)
  | jne (offset : UInt8)
  | int (vector : UInt8)
  deriving DecidableEq, Repr

def modrm (mod reg rm : ℕ) : UInt8 := UInt8.ofNat (mod * 64 + reg * 8 + rm)

def immediate (width : ℕ) (bytes : List UInt8) : Option ℕ :=
  if width ≤ bytes.length then some (LittleEndian.decode (bytes.take width)) else none

namespace Insn

def encode : Insn → List UInt8
  | .movImm64 dest value =>
    [0x48,UInt8.ofNat (0xb8 + dest.code)] ++ LittleEndian.encode 8 value.toNat
  | .movImm32 dest value => [0x48,0xc7,modrm 3 0 dest.code] ++ LittleEndian.encode 4 value.toNat
  | .mov dest src => [0x48,0x89,modrm 3 src.code dest.code]
  | .load dest base => [0x48,0x8b,modrm 0 dest.code base.reg.code]
  | .store base src => [0x48,0x89,modrm 0 src.code base.reg.code]
  | .storeImm base value =>
    [0x48,0xc7,modrm 0 0 base.reg.code] ++ LittleEndian.encode 4 value.toNat
  | .storeByte base value => [0xc6,modrm 0 0 base.reg.code,value]
  | .inc base => [0x48,0xff,modrm 0 0 base.reg.code]
  | .cmp left right => [0x48,0x39,modrm 3 right.code left.code]
  | .cmpLoad left base => [0x48,0x3b,modrm 0 left.code base.reg.code]
  | .cmpByte base value => [0x80,modrm 0 7 base.reg.code,value]
  | .cmpDword base value => [0x81,modrm 0 7 base.reg.code] ++ LittleEndian.encode 4 value.toNat
  | .test left right => [0x48,0x85,modrm 3 right.code left.code]
  | .add dest value => [0x48,0x81,modrm 3 0 dest.code] ++ LittleEndian.encode 4 value.toNat
  | .jmp offset => [0xeb,offset]
  | .je offset => [0x74,offset]
  | .jne offset => [0x75,offset]
  | .int vector => [0xcd,vector]

def size (i : Insn) : ℕ := i.encode.length

def decodeRegisters (opcode : UInt8) (reg rm : Gpr) (rest : List UInt8) : Option Insn :=
  if opcode = 0x89 then some (.mov rm reg)
  else if opcode = 0x39 then some (.cmp rm reg)
  else if opcode = 0x85 then some (.test rm reg)
  else if opcode = 0xc7 ∧ reg.code = 0 then
    (immediate 4 rest).map fun value => .movImm32 rm (UInt32.ofNat value)
  else if opcode = 0x81 ∧ reg.code = 0 then
    (immediate 4 rest).map fun value => .add rm (UInt32.ofNat value)
  else none

def decodeMemory (opcode : UInt8) (reg : Gpr) (base : Base) (rest : List UInt8) : Option Insn :=
  if opcode = 0x89 then some (.store base reg)
  else if opcode = 0x8b then some (.load reg base)
  else if opcode = 0x3b then some (.cmpLoad reg base)
  else if opcode = 0xff ∧ reg.code = 0 then some (.inc base)
  else if opcode = 0xc7 ∧ reg.code = 0 then
    (immediate 4 rest).map fun value => .storeImm base (UInt32.ofNat value)
  else none

def decodeNarrow (opcode : UInt8) (reg : Gpr) (base : Base) (rest : List UInt8) : Option Insn :=
  if opcode = 0xc6 ∧ reg.code = 0 then rest.head?.map fun value => .storeByte base value
  else if opcode = 0x80 ∧ reg.code = 7 then rest.head?.map fun value => .cmpByte base value
  else if opcode = 0x81 ∧ reg.code = 7 then
    (immediate 4 rest).map fun value => .cmpDword base (UInt32.ofNat value)
  else none

def decodeWide (opcode : UInt8) (rest : List UInt8) : Option Insn :=
  if 0xb8 ≤ opcode.toNat ∧ opcode.toNat < 0xc0 then do
    let dest ← Gpr.ofCode (opcode.toNat - 0xb8)
    let value ← immediate 8 rest
    pure (.movImm64 dest (UInt64.ofNat value))
  else
    match rest with
    | [] => none
    | m :: rest => do
      let reg ← Gpr.ofCode (m.toNat / 8 % 8)
      if m.toNat / 64 = 3 then decodeRegisters opcode reg (← Gpr.ofCode (m.toNat % 8)) rest
      else if m.toNat / 64 = 0 then decodeMemory opcode reg (← Base.ofCode (m.toNat % 8)) rest
      else none

def decode : List UInt8 → Option Insn
  | opcode :: next :: rest =>
    if opcode = 0x48 then decodeWide next rest
    else if opcode = 0xeb then some (.jmp next)
    else if opcode = 0x74 then some (.je next)
    else if opcode = 0x75 then some (.jne next)
    else if opcode = 0xcd then some (.int next)
    else if next.toNat / 64 = 0 then do
      decodeNarrow opcode (← Gpr.ofCode (next.toNat / 8 % 8)) (← Base.ofCode (next.toNat % 8)) rest
    else none
  | _ => none

end Insn

theorem Gpr.code_lt (r : Gpr) : r.code < 8 := by cases r <;> decide

@[simp] theorem Gpr.ofCode_code (r : Gpr) : Gpr.ofCode r.code = some r := by cases r <;> rfl

@[simp] theorem Base.ofCode_code (b : Base) : Base.ofCode b.reg.code = some b := by cases b <;> rfl

section

variable {mod reg rm width value : ℕ}

theorem modrm_toNat (hmod : mod < 4) (hreg : reg < 8) (hrm : rm < 8) :
    (modrm mod reg rm).toNat = mod * 64 + reg * 8 + rm := by
  rw [modrm,UInt8.toNat_ofNat']
  exact Nat.mod_eq_of_lt (by omega)

theorem modrm_fields (hmod : mod < 4) (hreg : reg < 8) (hrm : rm < 8) :
    (modrm mod reg rm).toNat / 64 = mod ∧ (modrm mod reg rm).toNat / 8 % 8 = reg ∧
      (modrm mod reg rm).toNat % 8 = rm := by
  rw [modrm_toNat hmod hreg hrm]
  omega

theorem immediate_encode (rest : List UInt8) (h : value < 256 ^ width) :
    immediate width (LittleEndian.encode width value ++ rest) = some value := by
  rw [immediate,if_pos (by simp),List.take_left' (LittleEndian.encode_length _ _),
    LittleEndian.decode_encode,Nat.mod_eq_of_lt h]

@[simp] theorem immediate_four (value : UInt32) (rest : List UInt8) :
    immediate 4 (LittleEndian.encode 4 value.toNat ++ rest) = some value.toNat :=
  immediate_encode rest (show value.toNat < 256 ^ 4 from value.toNat_lt)

@[simp] theorem immediate_eight (value : UInt64) (rest : List UInt8) :
    immediate 8 (LittleEndian.encode 8 value.toNat ++ rest) = some value.toNat :=
  immediate_encode rest (show value.toNat < 256 ^ 8 from value.toNat_lt)

end

namespace Insn

theorem decodeWide_registers (opcode : UInt8) (reg rm : Gpr) (rest : List UInt8)
    (h : ¬ (0xb8 ≤ opcode.toNat ∧ opcode.toNat < 0xc0)) :
    decodeWide opcode (modrm 3 reg.code rm.code :: rest) = decodeRegisters opcode reg rm rest := by
  obtain ⟨hmod,hreg,hrm⟩ := modrm_fields (show 3 < 4 by decide) reg.code_lt rm.code_lt
  simp [decodeWide,if_neg h,hmod,hreg,hrm]

theorem decodeWide_memory (opcode : UInt8) (reg : Gpr) (base : Base) (rest : List UInt8)
    (h : ¬ (0xb8 ≤ opcode.toNat ∧ opcode.toNat < 0xc0)) :
    decodeWide opcode (modrm 0 reg.code base.reg.code :: rest) = decodeMemory opcode reg base rest := by
  obtain ⟨hmod,hreg,hrm⟩ := modrm_fields (show 0 < 4 by decide) reg.code_lt base.reg.code_lt
  simp [decodeWide,if_neg h,hmod,hreg,hrm]

theorem decode_narrow (opcode : UInt8) (reg : Gpr) (base : Base) (rest : List UInt8)
    (h : opcode ∉ [0x48,0xeb,0x74,0x75,0xcd]) :
    decode (opcode :: modrm 0 reg.code base.reg.code :: rest) = decodeNarrow opcode reg base rest := by
  obtain ⟨hmod,hreg,hrm⟩ := modrm_fields (show 0 < 4 by decide) reg.code_lt base.reg.code_lt
  simp only [List.mem_cons,List.not_mem_nil,or_false,not_or] at h
  obtain ⟨h₁,h₂,h₃,h₄,h₅⟩ := h
  simp [decode,h₁,h₂,h₃,h₄,h₅,hmod,hreg,hrm]

theorem decode_movImm64 (dest : Gpr) (value : UInt64) (rest : List UInt8) :
    decode ((movImm64 dest value).encode ++ rest) = some (.movImm64 dest value) := by
  have hcode := dest.code_lt
  have hopcode : (UInt8.ofNat (0xb8 + dest.code)).toNat = 0xb8 + dest.code := by
    rw [UInt8.toNat_ofNat']
    exact Nat.mod_eq_of_lt (by omega)
  change decodeWide _ (LittleEndian.encode 8 value.toNat ++ rest) = _
  unfold decodeWide
  rw [hopcode,if_pos (by omega),Nat.add_sub_cancel_left]
  simp

theorem decode_encode (i : Insn) (rest : List UInt8) : decode (i.encode ++ rest) = some i := by
  cases i with
  | movImm64 dest value => exact decode_movImm64 dest value rest
  | movImm32 dest value =>
    refine (decodeWide_registers 0xc7 .rax dest _ (by decide)).trans ?_
    simp [decodeRegisters,Gpr.code]
  | mov dest src => exact decodeWide_registers 0x89 src dest rest (by decide)
  | load dest base => exact decodeWide_memory 0x8b dest base rest (by decide)
  | store base src => exact decodeWide_memory 0x89 src base rest (by decide)
  | storeImm base value =>
    refine (decodeWide_memory 0xc7 .rax base _ (by decide)).trans ?_
    simp [decodeMemory,Gpr.code]
  | inc base => exact decodeWide_memory 0xff .rax base rest (by decide)
  | cmp left right => exact decodeWide_registers 0x39 right left rest (by decide)
  | cmpLoad left base => exact decodeWide_memory 0x3b left base rest (by decide)
  | test left right => exact decodeWide_registers 0x85 right left rest (by decide)
  | add dest value =>
    refine (decodeWide_registers 0x81 .rax dest _ (by decide)).trans ?_
    simp [decodeRegisters,Gpr.code]
  | storeByte base value => exact decode_narrow 0xc6 .rax base (value :: rest) (by decide)
  | cmpByte base value => exact decode_narrow 0x80 .rdi base (value :: rest) (by decide)
  | cmpDword base value =>
    refine (decode_narrow 0x81 .rdi base _ (by decide)).trans ?_
    simp [decodeNarrow,Gpr.code]
  | jmp offset => rfl
  | je offset => rfl
  | jne offset => rfl
  | int vector => rfl

end Insn

end Amd64
