import VladOs.Program.Installed
import VladOs.Program.Isa

namespace VladOs

open Amd64 Paging Build Stuttering

structure Alike (l l' : PrivateMachine) : Prop where
  registers : l.registers.Same l'.registers
  view : l'.view = l.view
  waiting : l'.waiting = l.waiting

def Activity.isCompute : Activity → Bool
  | .compute => true
  | _ => false

inductive Continues (isa : Isa) (l l₁ : PrivateMachine) : Prop where
  | compute {next : TrapFrame} {stores : List Store} :
      isa.effect l.registers l.view.pages = .compute next stores → l₁.registers.rip = next.rip →
      Continues isa l l₁
  | call {next : TrapFrame} : isa.effect l.registers l.view.pages = .call next →
      SyscallNumber.fromRaw next.rax ≠ some .exit → l₁.registers.rip = next.rip → Continues isa l l₁

section

variable {isa isa' : Isa} {pid : ProcessId} {l l' l₁ l₁' : PrivateMachine} {a : Activity}
  {f f' : TrapFrame} {e : Effect} {w : Ending}

theorem TrapFrame.Same.answered (h : f.Same f') (value : UInt64) :
    ({ f with rax := value } : TrapFrame).Same { f' with rax := value } := by
  rw [TrapFrame.Same] at h ⊢
  rw [h]

theorem TrapFrame.Same.rax (h : f.Same f') : f'.rax = f.rax := by
  rw [TrapFrame.Same] at h
  rw [h]

theorem TrapFrame.Same.rdi (h : f.Same f') : f'.rdi = f.rdi := by
  rw [TrapFrame.Same] at h
  rw [h]

theorem TrapFrame.Same.rsi (h : f.Same f') : f'.rsi = f.rsi := by
  rw [TrapFrame.Same] at h
  rw [h]

theorem TrapFrame.Same.rdx (h : f.Same f') : f'.rdx = f.rdx := by
  rw [TrapFrame.Same] at h
  rw [h]

theorem TrapFrame.Same.request (h : f.Same f') : Syscall.request f' = Syscall.request f := by
  unfold Syscall.request
  rw [h.rax,h.rdi,h.rsi,h.rdx]

theorem PrivateMachine.Step.continues (hwait : l.waiting = none)
    (hstep : PrivateMachine.Step isa pid l a l₁) : Continues isa l l₁ := by
  cases hstep with
  | compute _ he => exact .compute he rfl
  | call _ he hrequest | exhausted _ he hrequest =>
    refine .call he (fun hexit => ?_) rfl
    simp [Syscall.request,hexit] at hrequest
  | unknown _ he hraw | yielded _ he hraw | waitRefused _ he hraw | stillRunning _ he hraw
  | collected _ he hraw | blocked _ he hraw => exact .call he (by simp [hraw]) rfl
  | woken hw => cases hwait.symm.trans hw

theorem PrivateMachine.Step.congr
    (h : isa'.effect l.registers l.view.pages = isa.effect l.registers l.view.pages)
    (hstep : PrivateMachine.Step isa pid l a l₁) : PrivateMachine.Step isa' pid l a l₁ := by
  cases hstep with
  | compute hw he => exact .compute hw (h.trans he)
  | call hw he hrequest hanswer => exact .call hw (h.trans he) hrequest hanswer
  | exhausted hw he hrequest hexhausts => exact .exhausted hw (h.trans he) hrequest hexhausts
  | unknown hw he hraw => exact .unknown hw (h.trans he) hraw
  | yielded hw he hraw => exact .yielded hw (h.trans he) hraw
  | waitRefused hw he hraw herror => exact .waitRefused hw (h.trans he) hraw herror
  | stillRunning hw he hraw hoptions => exact .stillRunning hw (h.trans he) hraw hoptions
  | collected hw he hraw hstatus hput => exact .collected hw (h.trans he) hraw hstatus hput
  | blocked hw he hraw hoptions hstatus => exact .blocked hw (h.trans he) hraw hoptions hstatus
  | woken hw hput => exact .woken hw hput

theorem PrivateMachine.Ends.congr
    (h : isa'.effect l.registers l.view.pages = isa.effect l.registers l.view.pages)
    (hends : PrivateMachine.Ends isa l w) : PrivateMachine.Ends isa' l w := by
  cases hends with
  | exit hw he hraw => exact .exit hw (h.trans he) hraw
  | fault hw he => exact .fault hw (h.trans he)

theorem PrivateMachine.Step.matched (hview : l'.view = l.view) (hwait : l.waiting = none)
    (hwait' : l'.waiting = none)
    (heffects : EffectsAlike (isa.effect l.registers l.view.pages)
      (isa'.effect l'.registers l'.view.pages))
    (hstep : PrivateMachine.Step isa' pid l' a l₁') :
    ∃ l₁, PrivateMachine.Step isa pid l a l₁ ∧ Alike l₁ l₁' := by
  have hcall : ∀ {next' : TrapFrame}, isa'.effect l'.registers l'.view.pages = .call next' →
      ∃ next, isa.effect l.registers l.view.pages = .call next ∧ next.Same next' := by
    intro next' he
    rw [he] at heffects
    generalize isa.effect l.registers l.view.pages = e at heffects
    cases heffects with
    | call hsame => exact ⟨_,rfl,hsame⟩
  have hrest : l'.waiting = l.waiting := hwait'.trans hwait.symm
  cases hstep with
  | compute _ he =>
    rw [he] at heffects
    generalize hl : isa.effect l.registers l.view.pages = e at heffects
    cases heffects with
    | compute hsame => exact ⟨_,.compute hwait hl,hsame,by rw [hview],hrest⟩
  | call _ he hrequest hanswer =>
    obtain ⟨next,hl,hsame⟩ := hcall he
    rw [hsame.request] at hrequest
    rw [hview] at hanswer
    exact ⟨_,.call hwait hl hrequest hanswer,hsame.answered _,rfl,hrest⟩
  | exhausted _ he hrequest hexhausts =>
    obtain ⟨next,hl,hsame⟩ := hcall he
    rw [hsame.request] at hrequest
    rw [hview] at hexhausts
    exact ⟨_,.exhausted hwait hl hrequest hexhausts,hsame.answered _,hview,hrest⟩
  | unknown _ he hraw =>
    obtain ⟨next,hl,hsame⟩ := hcall he
    rw [hsame.rax] at hraw
    exact ⟨_,.unknown hwait hl hraw,hsame.answered _,hview,hrest⟩
  | yielded _ he hraw =>
    obtain ⟨next,hl,hsame⟩ := hcall he
    rw [hsame.rax] at hraw
    exact ⟨_,.yielded hwait hl hraw,hsame.answered _,hview,hrest⟩
  | waitRefused _ he hraw herror =>
    obtain ⟨next,hl,hsame⟩ := hcall he
    rw [hsame.rax] at hraw
    exact ⟨_,.waitRefused hwait hl hraw herror,hsame.answered _,hview,hrest⟩
  | stillRunning _ he hraw hoptions =>
    obtain ⟨next,hl,hsame⟩ := hcall he
    rw [hsame.rax] at hraw
    rw [hsame.rdx] at hoptions
    exact ⟨_,.stillRunning hwait hl hraw hoptions,hsame.answered _,hview,hrest⟩
  | collected _ he hraw hstatus hput =>
    obtain ⟨next,hl,hsame⟩ := hcall he
    rw [hsame.rax] at hraw
    rw [hsame.rsi] at hstatus
    rw [hview] at hput
    refine ⟨_,.collected hwait hl hraw hstatus hput,?_,by rw [hview],hrest⟩
    rw [hsame.rdi]
    exact hsame.answered _
  | blocked _ he hraw hoptions hstatus =>
    obtain ⟨next,hl,hsame⟩ := hcall he
    rw [hsame.rax] at hraw
    rw [hsame.rdx] at hoptions
    rw [hsame.rsi] at hstatus
    rw [hsame.rdi]
    exact ⟨_,.blocked hwait hl hraw hoptions hstatus,hsame,hview,rfl⟩
  | woken hw _ => cases hwait'.symm.trans hw

theorem PrivateMachine.Ends.matched (hwait : l.waiting = none)
    (heffects : EffectsAlike (isa.effect l.registers l.view.pages)
      (isa'.effect l'.registers l'.view.pages))
    (hends : PrivateMachine.Ends isa' l' w) : PrivateMachine.Ends isa l w := by
  cases hends with
  | exit _ he hraw =>
    rw [he] at heffects
    generalize hl : isa.effect l.registers l.view.pages = e at heffects
    cases heffects with
    | call hsame =>
      rw [hsame.rax] at hraw
      rw [hsame.rdi]
      exact .exit hwait hl hraw
  | fault _ he =>
    rw [he] at heffects
    generalize hl : isa.effect l.registers l.view.pages = e at heffects
    cases heffects with
    | fault => exact .fault hwait hl

theorem PrivateMachine.Step.awoken (h : Alike l l') {child : ProcessId × Option VirtAddr}
    (hwait : l.waiting = some child) (hstep : PrivateMachine.Step isa' pid l' a l₁') :
    ∃ l₁, PrivateMachine.Step isa pid l a l₁ ∧ Alike l₁ l₁' ∧ l₁.registers.rip = l.registers.rip := by
  have hwait' := h.waiting.trans hwait
  cases hstep with
  | woken hw hput =>
    rw [h.waiting] at hw
    rw [h.view] at hput
    exact ⟨_,.woken hw hput,⟨h.registers.answered _,by rw [h.view],rfl⟩,rfl⟩
  | compute hw | call hw | exhausted hw | unknown hw | yielded hw | waitRefused hw | stillRunning hw
  | collected hw | blocked hw => cases hwait'.symm.trans hw

theorem forced_of_compute {next : TrapFrame} (hwait : l.waiting = none)
    (he : isa.effect l.registers l.view.pages = .compute next []) :
    Forced (PrivateMachine.Step isa pid) (PrivateMachine.Ends isa) Activity.isCompute l
      { l with registers := next } := by
  refine ⟨⟨.compute,.compute hwait he⟩,?_,?_⟩
  · intro a l₁ hstep
    cases hstep with
    | compute _ he' =>
      cases he.symm.trans he'
      exact ⟨rfl,rfl⟩
    | woken hw => cases hwait.symm.trans hw
    | call _ he' | exhausted _ he' | unknown _ he' | yielded _ he' | waitRefused _ he'
    | stillRunning _ he' | collected _ he' | blocked _ he' => cases he.symm.trans he'
  · intro w hends
    cases hends with
    | exit _ he' => cases he.symm.trans he'
    | fault _ he' => cases he.symm.trans he'

end

end VladOs
