import VladOs.Kernel.Progress

namespace VladOs

open Code Transition

def interruptFlag (rflags : UInt64) : Bool := rflags &&& 0x200 != 0

def initialRflags (interrupts : Bool) : UInt64 := if interrupts then 0x202 else 0x2

structure Machine where
  system : System
  interrupts : Bool
  mainInterrupts : Bool
  holder : Option (Option ℕ)
  spinning : Bool

inductive Move where
  | perform (a : Action) (o : Output) (locks : Bool)
  | acquire
  | release (body : Memory → Memory)
  | prepared (init : UserTaskInit)
  | setInterrupts (enabled : Bool)

def usesUserMemory : Action → Bool
  | .syscall _ frame =>
    match SyscallNumber.fromRaw frame.rax with
    | some .exit | some .write | some .waitPid | some .open | some .read | some .brk => true
    | _ => false
  | .fault _ _ _ => true
  | _ => false

def switchesToKernel (k : Kernel) (o : Output) (k' : Kernel) : Bool :=
  match o with
  | .control (.restoreMain _) => true
  | .control (.resume _) => k'.current != k.current && k'.currentTask.any fun t => t.processId.isNone
  | _ => false

structure LockUse (a : Action) (k : Kernel) (o : Output) (k' : Kernel) (locks : Bool) : Prop where
  needed : switchesToKernel k o k' = true → locks = true
  allowed : locks = true → switchesToKernel k o k' = true ∨ usesUserMemory a = true

namespace Machine

def running (m : Machine) : Option ℕ := m.system.kernel.current

def Inside (m : Machine) : Prop := m.holder = some m.running

def KernelMode (m : Machine) : Prop := m.system.kernel.currentPid = none

def Preemptible (m : Machine) : Prop :=
  m.interrupts = true ∧ m.system.kernel.preemptionEnabled = true ∧ m.running.isSome = true

def Permitted (m : Machine) : Action → Prop
  | .timer _ frame => m.interrupts = true ∧ interruptFlag frame.rflags = true
  | .yield _ frame | .syscall _ frame | .fault _ frame _ =>
    ¬m.Inside ∧ interruptFlag frame.rflags = m.interrupts
  | .userStore _ _ => ¬m.Inside
  | .spawn _ rflags _ | .spawnUser _ _ rflags _ =>
    ¬m.Inside ∧ m.KernelMode ∧ rflags = initialRflags m.interrupts
  | .newUser | .loadUserElf _ _ | .createUserTask _ _ _ | .copyToUser _ _ _ =>
    m.holder = none ∧ m.KernelMode
  | .setTaskInitialArg _ _ | .setPreemption _ | .run _ | .kernelReturn => ¬m.Inside ∧ m.KernelMode

def savedInterrupts (m : Machine) : Action → Bool
  | .run _ => m.interrupts
  | _ => m.mainInterrupts

def after (m : Machine) (a : Action) (o : Output) (s : System) : Machine where
  system := s
  interrupts :=
    match o with
    | .control (.resume rsp) => interruptFlag (s.kernel.frames rsp).rflags
    | .control (.restoreMain _) => m.savedInterrupts a
    | _ => m.interrupts
  mainInterrupts := m.savedInterrupts a
  holder := m.holder
  spinning := m.spinning

inductive Moves (P : Platform) (m : Machine) : Move → Machine → Prop where
  | performed {a : Action} {o : Output} {locks : Bool} {s : System} : m.spinning = false →
      m.Permitted a → Step P m.system (a,o) s → LockUse a m.system.kernel o s.kernel locks →
      (locks = true → m.holder = none) → Moves P m (.perform a o locks) (m.after a o s)
  | spins {a : Action} {o : Output} {s : System} : m.spinning = false → m.Permitted a →
      Step P m.system (a,o) s → LockUse a m.system.kernel o s.kernel true → m.holder ≠ none →
      Moves P m (.perform a o true) { m with spinning := true }
  | acquired : m.spinning = false → m.KernelMode → m.holder = none →
      Moves P m .acquire { m with holder := some m.running }
  | released {body : Memory → Memory} : m.spinning = false → m.Inside →
      Moves P m (.release body) { m with
        system := { m.system with kernel := { m.system.kernel with
          memory := body m.system.kernel.memory } }
        holder := none }
  | prepared {init : UserTaskInit} : m.spinning = false → m.KernelMode → ¬m.Inside →
      Moves P m (.prepared init) { m with
        system := { m.system with inits := init :: m.system.inits } }
  | interruptsSet {enabled : Bool} : m.spinning = false → m.KernelMode → ¬m.Inside →
      Moves P m (.setInterrupts enabled) { m with interrupts := enabled }

def Guarded (m : Machine) : Move → Prop
  | .acquire => ¬m.Preemptible
  | _ => True

end Machine

def Boot.machine (B : Boot) : Machine where
  system := B.system
  interrupts := false
  mainInterrupts := false
  holder := none
  spinning := false

def MachineRun (P : Platform) (B : Boot) : List Move → Machine → Prop :=
  Runs (· = B.machine) fun m a m' => m.Moves P a m'

def GuardedRun (P : Platform) (B : Boot) : List Move → Machine → Prop :=
  Runs (· = B.machine) fun m a m' => m.Moves P a m' ∧ m.Guarded a

variable {P : Platform} {B : Boot} {m m' : Machine} {move : Move} {trace : List Move}

theorem timer_unpreempted {s : System} (rsp : ℕ) (frame : TrapFrame)
    (h : ¬(s.kernel.preemptionEnabled = true ∧ s.kernel.current.isSome = true)) :
    Spec (System.perform P (.timer rsp frame)) s
      (fun o s' => o = .control (.resume rsp) ∧ s' = { s with kernel := s.kernel.trap rsp frame })
      fun _ _ => False := by
  rw [System.perform,spec_bind,spec_onKernel,spec_push,spec_bind,spec_onKernel,Kernel.onTimerInterrupt,
    spec_bind,spec_read,spec_ite]
  constructor
  · intro hon
    exact absurd hon h
  · intro _
    rw [spec_pure,spec_pure]
    exact ⟨rfl,rfl⟩

structure Machine.Disciplined (m : Machine) : Prop where
  spinning : m.spinning = false
  holder : ∀ c, m.holder = some c → c = m.running ∧ ¬m.Preemptible

namespace Machine.Disciplined

theorem of_free (hspin : m.spinning = false) (hfree : m.holder = none) : m.Disciplined where
  spinning := hspin
  holder c hc := by
    rw [hfree] at hc
    cases hc

theorem free (h : m.Disciplined) (hout : ¬m.Inside) : m.holder = none := by
  rcases hh : m.holder with _ | c
  · rfl
  · refine absurd ?_ hout
    rw [Inside,hh,(h.holder c hh).1]

theorem timer {rsp : ℕ} {frame : TrapFrame} {o : Output} {s : System} {locks : Bool} {c : Option ℕ}
    (h : m.Disciplined) (hc : m.holder = some c) (hallowed : m.Permitted (.timer rsp frame))
    (hstep : Step P m.system (.timer rsp frame,o) s)
    (huse : LockUse (.timer rsp frame) m.system.kernel o s.kernel locks) :
    locks = false ∧ (m.after (.timer rsp frame) o s).Disciplined := by
  obtain ⟨hrunning,hquiet⟩ := h.holder c hc
  have hoff : ¬(m.system.kernel.preemptionEnabled = true ∧ m.system.kernel.current.isSome = true) :=
    fun hon => hquiet ⟨hallowed.1,hon⟩
  obtain ⟨rfl,rfl⟩ := (timer_unpreempted rsp frame hoff).ok hstep.2
  constructor
  · by_contra hlocks
    rcases huse.allowed (by simpa using hlocks) with hswitch | huser
    · simp [switchesToKernel,Kernel.trap,Kernel.setFrame] at hswitch
    · cases huser
  · refine ⟨h.spinning,?_⟩
    intro c' hc'
    have hsame : c' = c := Option.some.inj (hc'.symm.trans hc)
    rw [hsame]
    exact ⟨hrunning,fun hp => hoff hp.2⟩

theorem free_of_permitted (h : m.Disciplined) {a : Action} (hallowed : m.Permitted a)
    (hother : ∀ rsp frame, a ≠ .timer rsp frame) : m.holder = none := by
  cases a with
  | timer rsp frame => exact absurd rfl (hother rsp frame)
  | yield rsp frame => exact h.free hallowed.1
  | syscall rsp frame => exact h.free hallowed.1
  | fault rsp frame info => exact h.free hallowed.1
  | userStore address byte => exact h.free hallowed
  | spawn entry rflags stack => exact h.free hallowed.1
  | spawnUser parent index rflags stack => exact h.free hallowed.1
  | newUser => exact hallowed.1
  | loadUserElf bytes arg0 => exact hallowed.1
  | createUserTask program arg0 testPageValue => exact hallowed.1
  | copyToUser task address bytes => exact hallowed.1
  | setTaskInitialArg task arg0 => exact h.free hallowed.1
  | setPreemption enabled => exact h.free hallowed.1
  | run bootRsp => exact h.free hallowed.1
  | kernelReturn => exact h.free hallowed.1

theorem performed {a : Action} {o : Output} {s : System} {locks : Bool} (h : m.Disciplined)
    (hallowed : m.Permitted a) (hstep : Step P m.system (a,o) s)
    (huse : LockUse a m.system.kernel o s.kernel locks) :
    (m.holder ≠ none → locks = false) ∧ (m.after a o s).Disciplined := by
  rcases hc : m.holder with _ | c
  · exact ⟨fun hheld => absurd rfl hheld,of_free h.spinning hc⟩
  · cases a with
    | timer rsp frame =>
      obtain ⟨hlocks,hafter⟩ := h.timer hc hallowed hstep huse
      exact ⟨fun _ => hlocks,hafter⟩
    | _ =>
      have hfree := h.free_of_permitted hallowed (by simp)
      rw [hfree] at hc
      cases hc

theorem moves (h : m.Disciplined) (hguard : m.Guarded move) (hmove : m.Moves P move m') :
    m'.Disciplined := by
  cases hmove with
  | performed _ hallowed hstep huse _ => exact (h.performed hallowed hstep huse).2
  | spins _ hallowed hstep huse hheld => cases (h.performed hallowed hstep huse).1 hheld
  | acquired _ _ _ =>
    refine ⟨h.spinning,?_⟩
    rintro c ⟨⟩
    exact ⟨rfl,hguard⟩
  | released _ _ => exact of_free h.spinning rfl
  | prepared _ _ hout => exact of_free h.spinning (h.free hout)
  | interruptsSet _ _ hout => exact of_free h.spinning (h.free hout)

end Machine.Disciplined

theorem GuardedRun.disciplined (h : GuardedRun P B trace m) : m.Disciplined := by
  refine Runs.invariant_when (I := Machine.Disciplined) ?_ ?_ h
  · rintro _ rfl
    exact .of_free rfl rfl
  · intro _ _ _ hi hguard hmove
    exact hi.moves hguard hmove

def kernelTrap (interrupts : Bool) : TrapFrame where
  rip := 0
  cs := 8
  rflags := initialRflags interrupts
  rsp := 0
  ss := 16

namespace GuardedRun

theorem setInterrupts (h : GuardedRun P B trace m) (enabled : Bool) (hmode : m.KernelMode)
    (hfree : m.holder = none) :
    GuardedRun P B (.setInterrupts enabled :: trace) { m with interrupts := enabled } := by
  refine .next h ⟨.interruptsSet h.disciplined.spinning hmode ?_,trivial⟩
  intro hin
  cases hfree.symm.trans hin

theorem perform (h : GuardedRun P B trace m) (a : Action) (o : Output) (locks : Bool) {s : System}
    (hallowed : m.Permitted a) (hstep : Step P m.system (a,o) s)
    (huse : LockUse a m.system.kernel o s.kernel locks) (hfree : m.holder = none) :
    GuardedRun P B (.perform a o locks :: trace) (m.after a o s) :=
  .next h ⟨.performed h.disciplined.spinning hallowed hstep huse fun _ => hfree,trivial⟩

theorem acquire (h : GuardedRun P B trace m) (hmode : m.KernelMode) (hfree : m.holder = none)
    (hquiet : ¬m.Preemptible) :
    GuardedRun P B (.acquire :: trace) { m with holder := some m.running } :=
  .next h ⟨.acquired h.disciplined.spinning hmode hfree,hquiet⟩

theorem machineRun (h : GuardedRun P B trace m) : MachineRun P B trace m :=
  Runs.mono h fun _ _ _ hs => hs.1

end GuardedRun

theorem exists_preemptible_pair : ∃ trace m, GuardedRun standardPlatform smallMachine trace m ∧
    m.KernelMode ∧ m.holder = none ∧ m.running = some 0 ∧ m.Preemptible ∧
    ∃ rsp s, Step standardPlatform m.system (.timer rsp (kernelTrap true),
        .control (.resume (Task.kernelFrameBottom (HEAP_START + TASK_STACK_SIZE)))) s ∧
      switchesToKernel m.system.kernel
        (.control (.resume (Task.kernelFrameBottom (HEAP_START + TASK_STACK_SIZE)))) s.kernel = true := by
  have h₀ : GuardedRun standardPlatform smallMachine [] smallMachine.machine := .start rfl
  have h₁ := h₀.setInterrupts true rfl rfl
  have h₂ := h₁.perform (.spawn 0 (initialRflags true) HEAP_START) (.task (.ok 0)) false
    ⟨nofun,rfl,rfl⟩ ⟨stackFree_first rfl,rfl⟩ ⟨nofun,nofun⟩ rfl
  have h₃ := h₂.perform (.spawn 0 (initialRflags true) (HEAP_START + TASK_STACK_SIZE)) (.task (.ok 1)) false
    ⟨nofun,rfl,rfl⟩ ⟨stackFree_second rfl rfl,rfl⟩ ⟨nofun,nofun⟩ rfl
  have h₄ := h₃.perform (.setPreemption true) .quiet false ⟨nofun,rfl⟩ ⟨trivial,rfl⟩ ⟨nofun,nofun⟩ rfl
  have h₅ := h₄.perform (.run 0) (.control (.resume (Task.kernelFrameBottom HEAP_START))) true
    ⟨nofun,rfl⟩ ⟨rfl,rfl⟩ ⟨fun _ => rfl,fun _ => Or.inl rfl⟩ rfl
  refine ⟨_,_,h₅,rfl,rfl,rfl,⟨rfl,rfl,rfl⟩,HEAP_START,_,⟨?_,rfl⟩,rfl⟩
  exact ⟨le_refl _,by decide⟩

theorem timer_spins_on_held_lock : ∃ trace m rsp, MachineRun standardPlatform smallMachine
      (.perform (.timer rsp (kernelTrap true))
        (.control (.resume (Task.kernelFrameBottom (HEAP_START + TASK_STACK_SIZE)))) true ::
        .acquire :: trace) m ∧
    m.system.kernel.preemptionEnabled = true ∧ m.holder = some (some 0) ∧ m.spinning = true := by
  obtain ⟨trace,m,hrun,hmode,hfree,hrunning,hpreempt,rsp,s,hstep,hswitch⟩ := exists_preemptible_pair
  have hheld := Runs.next hrun.machineRun (.acquired hrun.disciplined.spinning hmode hfree)
  refine ⟨trace,_,rsp,.next hheld (.spins hrun.disciplined.spinning ⟨hpreempt.1,by decide⟩ hstep
    ⟨fun _ => rfl,fun _ => Or.inl hswitch⟩ nofun),hpreempt.2.1,?_,rfl⟩
  rw [hrunning]

theorem guarded_lock_never_spins (h : GuardedRun P B trace m) :
    m.spinning = false ∧ ∀ c, m.holder = some c → c = m.running :=
  ⟨h.disciplined.spinning,fun c hc => (h.disciplined.holder c hc).1⟩

theorem guarded_lock_never_spins_pair : ∃ trace m, GuardedRun standardPlatform smallMachine trace m ∧
    m.system.kernel.preemptionEnabled = true ∧ m.holder = some (some 0) ∧ m.spinning = false := by
  obtain ⟨trace,m,hrun,hmode,hfree,hrunning,hpreempt,-⟩ := exists_preemptible_pair
  have hoff := hrun.setInterrupts false hmode hfree
  have hheld := hoff.acquire hmode hfree nofun
  refine ⟨_,_,hheld,hpreempt.2.1,?_,(guarded_lock_never_spins hheld).1⟩
  exact congrArg some hrunning

end VladOs
