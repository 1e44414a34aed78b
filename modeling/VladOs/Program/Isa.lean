import VladOs.Library.Stuttering
import VladOs.Machine.Private
import VladOs.Program.Meaning

namespace VladOs

open Amd64 Paging Build

abbrev SYSCALL_VECTOR : UInt8 := 0x80

namespace TrapFrame

def cpu (f : TrapFrame) : Cpu where
  regs
    | .rax => f.rax
    | .rcx => f.rcx
    | .rdx => f.rdx
    | .rbx => f.rbx
    | .rsp => f.rsp
    | .rbp => f.rbp
    | .rsi => f.rsi
    | .rdi => f.rdi
  rip := f.rip
  rflags := f.rflags

def withCpu (f : TrapFrame) (c : Cpu) : TrapFrame := { f with
  rax := c.regs .rax
  rcx := c.regs .rcx
  rdx := c.regs .rdx
  rbx := c.regs .rbx
  rsp := c.regs .rsp
  rbp := c.regs .rbp
  rsi := c.regs .rsi
  rdi := c.regs .rdi
  rip := c.rip
  rflags := c.rflags }

def Same (f f' : TrapFrame) : Prop := f' = { f with
  rcx := f'.rcx
  rflags := f'.rflags }

end TrapFrame

structure Hardware where
  other : Isa
  supervisor : ℕ → Bool
  adjust : Cpu → Bool

def pageFaultCode (present write : Bool) : UInt64 :=
  4 + (if write then 2 else 0) + (if present then 1 else 0)

def storesOf (stores : List (ℕ × UInt8)) : List Store :=
  stores.filterMap fun st => (VirtAddr.new st.1).map fun address => ⟨address,st.2⟩

namespace Hardware

variable (w : Hardware)

def processor : Processor where
  writable flags := contains flags WRITABLE
  supervisor := w.supervisor
  adjust := w.adjust

def effect (registers : TrapFrame) (view : View) : Option Result → Effect
  | some (.proceed next stores) => .compute (registers.withCpu next) (storesOf stores)
  | some (.trap vector next) =>
    if vector = SYSCALL_VECTOR then .call (registers.withCpu next) else w.other.effect registers view
  | some (.pageFault address present write) =>
    .fault ⟨.pageFault,VirtAddr.new address,pageFaultCode present write⟩
  | some .protection => .fault ⟨.generalProtection,none,0⟩
  | none => w.other.effect registers view

theorem effect_permitted {registers next : TrapFrame} {view : View} {stores : List Store} {r : Option Result}
    (h : w.effect registers view r = .compute next stores)
    (hr : ∀ {c raw}, r = some (.proceed c raw) → ∀ st ∈ raw, Permitted w.processor view st) :
    ∀ st ∈ stores, CanStore view st.address := by
  intro st hst
  cases r with
  | none => exact w.other.permitted h st hst
  | some r =>
    cases r with
    | proceed c raw =>
      cases h
      obtain ⟨⟨a,b⟩,hmem,hst⟩ := List.mem_filterMap.mp hst
      obtain ⟨hlow,page,hpage,hwritable⟩ := hr rfl _ hmem
      rw [VirtAddr.new_of_lt hlow] at hst
      cases hst
      exact ⟨page,hpage,hwritable⟩
    | trap vector c =>
      simp only [effect] at h
      split_ifs at h
      exact w.other.permitted h st hst
    | pageFault => cases h
    | protection => cases h

def amd64 : Isa where
  effect registers view := w.effect registers view (w.processor.step view registers.cpu)
  permitted h := by
    refine w.effect_permitted h fun hstep st hst => ?_
    unfold Processor.step at hstep
    obtain ⟨i,-,hexec⟩ := Option.map_eq_some_iff.mp hstep
    exact exec_permitted hexec hst

end Hardware

def commandAt : List Command → ℕ → ℕ → Option Command
  | [], _, _ => none
  | k :: rest, base, address => if address = base then some k else commandAt rest (base + k.size) address

def Build.Command.result (k : Command) (p : Processor) (view : View) (c : Cpu) : Result :=
  k.perform p view (c.rip + UInt64.ofNat k.size) c

theorem Build.Agree.refl (c : Cpu) : Agree c c := ⟨fun _ _ => rfl,rfl⟩

theorem Build.Command.result_permitted {k : Command} {p : Processor} {view : View} {c next : Cpu}
    {stores : List (ℕ × UInt8)} {st : ℕ × UInt8} (h : k.result p view c = .proceed next stores)
    (hst : st ∈ stores) : Permitted p view st := by
  have hmatch : Matches (k.result p view c) (p.runBlock view k.insns c) := k.matches (Agree.refl c)
  rw [h] at hmatch
  generalize hr : p.runBlock view k.insns c = r at hmatch
  cases hmatch with
  | proceed _ => exact runBlock_permitted hr hst

def Hardware.script (w : Hardware) (base : ℕ) (commands : List Command) : Isa where
  effect registers view := w.effect registers view
    ((commandAt commands base registers.rip.toNat).map fun k => k.result w.processor view registers.cpu)
  permitted h := by
    refine w.effect_permitted h fun hr st hst => ?_
    obtain ⟨k,-,hk⟩ := Option.map_eq_some_iff.mp hr
    exact Command.result_permitted hk hst

def Hardware.only (w : Hardware) (k : Command) : Isa where
  effect registers view := w.effect registers view (some (k.result w.processor view registers.cpu))
  permitted h := w.effect_permitted h fun hr _ hst => Command.result_permitted (Option.some.inj hr) hst

inductive EffectsAlike : Effect → Effect → Prop where
  | compute {next next' : TrapFrame} {stores : List Store} : next.Same next' →
      EffectsAlike (.compute next stores) (.compute next' stores)
  | call {next next' : TrapFrame} : next.Same next' → EffectsAlike (.call next) (.call next')
  | fault {info : UserFaultInfo} : EffectsAlike (.fault info) (.fault info)

section

variable {w : Hardware} {f f' : TrapFrame} {view : View} {c c' : Cpu} {r r' : Result}

theorem TrapFrame.cpu_withCpu (f : TrapFrame) (c : Cpu) : (f.withCpu c).cpu = c := by
  obtain ⟨regs,rip,rflags⟩ := c
  refine congrArg (fun regs => Cpu.mk regs rip rflags) (funext fun r => ?_)
  cases r <;> rfl

theorem TrapFrame.Same.agree (h : f.Same f') : Agree f.cpu f'.cpu := by
  rw [TrapFrame.Same] at h
  rw [h]
  refine ⟨fun r hr => ?_,rfl⟩
  cases r <;> first | rfl | exact absurd rfl hr

theorem TrapFrame.Same.withCpu (h : f.Same f') (hc : Agree c c') : (f.withCpu c).Same (f'.withCpu c') := by
  rw [TrapFrame.Same] at h
  rw [TrapFrame.Same,h]
  simp [TrapFrame.withCpu,hc.rip,hc.regs]

theorem Build.Matches.effects (h : Matches r r') (hf : f.Same f') (d : Cpu) :
    EffectsAlike (w.effect f view (some r)) (w.effect (f'.withCpu d) view (some r')) := by
  cases h with
  | proceed hc => exact .compute (hf.withCpu hc)
  | trap hc => exact .call (hf.withCpu hc)
  | pageFault => exact .fault
  | protection => exact .fault

theorem Build.Command.result_trap {k : Command} {p : Processor} {vector : UInt8}
    (h : k.result p view c = .trap vector c') : vector = SYSCALL_VECTOR := by
  have hmatch : Matches (k.result p view c) (p.runBlock view k.insns c) := k.matches (Agree.refl c)
  rw [h] at hmatch
  generalize p.runBlock view k.insns c = r at hmatch
  cases hmatch
  rfl

theorem Hardware.effect_compute {k : Command} {next : TrapFrame} {stores : List Store}
    (h : w.effect f view (some (k.result w.processor view c)) = .compute next stores) :
    ∃ c' raw, k.result w.processor view c = .proceed c' raw ∧ next = f.withCpu c' ∧
      stores = storesOf raw := by
  generalize hr : k.result w.processor view c = r at h
  cases r with
  | proceed c' raw =>
    cases h
    exact ⟨c',raw,rfl,rfl,rfl⟩
  | trap vector c' =>
    obtain rfl := Command.result_trap hr
    cases h
  | pageFault => cases h
  | protection => cases h

theorem Hardware.effect_call {k : Command} {next : TrapFrame}
    (h : w.effect f view (some (k.result w.processor view c)) = .call next) :
    ∃ c', k.result w.processor view c = .trap SYSCALL_VECTOR c' ∧ next = f.withCpu c' := by
  generalize hr : k.result w.processor view c = r at h
  cases r with
  | trap vector c' =>
    obtain rfl := Command.result_trap hr
    cases h
    exact ⟨c',rfl,rfl⟩
  | proceed => cases h
  | pageFault => cases h
  | protection => cases h

end

end VladOs
