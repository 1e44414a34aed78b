import VladOs.Kernel.Spawning

namespace VladOs

open Code Paging ProcessTable

namespace Syscall

open Kernel

def PointersCanonical (frame : TrapFrame) : Prop :=
  match SyscallNumber.fromRaw frame.rax with
  | some .write | some .read => (VirtAddr.new frame.rsi.toNat).isSome
  | some .open => (VirtAddr.new frame.rdi.toNat).isSome
  | some .waitPid => (waitStatusAddress frame.rsi.toNat).isSome
  | _ => True

def request (frame : TrapFrame) : Option Call :=
  match SyscallNumber.fromRaw frame.rax with
  | some .write =>
    (VirtAddr.new frame.rsi.toNat).map fun buf => .write frame.rdi.toNat buf frame.rdx.toNat
  | some .getPid => some .getPid
  | some .open =>
    (VirtAddr.new frame.rdi.toNat).map fun path => .open path frame.rsi.toNat frame.rdx.toNat
  | some .read =>
    (VirtAddr.new frame.rsi.toNat).map fun buf => .read frame.rdi.toNat buf frame.rdx.toNat
  | some .close => some (.close frame.rdi.toNat)
  | some .brk => some (.brk frame.rdi.toNat)
  | some .yield | some .exit | some .waitPid | none => none

def exitOf (frame : TrapFrame) : ProcessExit := .exited frame.rdi.toUInt32.toInt32

def exitTask (rsp : ℕ) (frame : TrapFrame) : Task → Task := endTask rsp .finished (some frame.rdi) none

inductive UserDispatch (B : BootMemory) (inits : List UserTaskInit) (k : Kernel) (i : ℕ)
    (pid : ProcessId) (P : Process) (rsp : ℕ) (frame : TrapFrame) : Control → Kernel → Prop where
  | returned {c : Call} {r : Except SysError ℕ} {k' : Kernel} : request frame = some c →
      CallEffect B inits k pid P c r k' →
      UserDispatch B inits k i pid P rsp frame (.resume rsp) (k'.setRax rsp (result r))
  | unknown : SyscallNumber.fromRaw frame.rax = none →
      UserDispatch B inits k i pid P rsp frame (.resume rsp) (k.setRax rsp SysError.noSys.rawReturn)
  | yielded {c : Control} {k' : Kernel} : SyscallNumber.fromRaw frame.rax = some .yield →
      Switches (k.setRax rsp 0) rsp c k' → UserDispatch B inits k i pid P rsp frame c k'
  | exited {k₁ : Kernel} {c : Control} {k' : Kernel} :
      SyscallNumber.fromRaw frame.rax = some .exit →
      Finishes B k i (exitTask rsp frame) (exitOf frame) k₁ → Selects k₁ i c k' →
      UserDispatch B inits k i pid P rsp frame c k'
  | waited {statusPtr : Option VirtAddr} {c : Control} {k' : Kernel} :
      SyscallNumber.fromRaw frame.rax = some .waitPid →
      waitStatusAddress frame.rsi.toNat = some statusPtr →
      WaitResult B k i rsp pid P frame.rdi.toNat statusPtr frame.rdx.toNat c k' →
      UserDispatch B inits k i pid P rsp frame c k'

variable {B : BootMemory} {inits : List UserTaskInit} {k k' : Kernel} {i : ℕ} {pid : ProcessId}
  {P : Process} {rsp : ℕ} {frame : TrapFrame} {c : Control} {ε : Type} {t : Task} {p : Platform}

theorem UserDispatch.waits {statusPtr : Option VirtAddr} (h : UserDispatch B inits k i pid P rsp frame c k')
    (hraw : SyscallNumber.fromRaw frame.rax = some .waitPid)
    (hptr : waitStatusAddress frame.rsi.toNat = some statusPtr) :
    WaitResult B k i rsp pid P frame.rdi.toNat statusPtr frame.rdx.toNat c k' := by
  cases h with
  | returned hreq _ => simp [request,hraw] at hreq
  | unknown hnone => rw [hraw] at hnone; cases hnone
  | yielded hy _ => rw [hraw] at hy; cases hy
  | exited he _ _ => rw [hraw] at he; cases he
  | waited _ hptr' hw =>
    cases hptr.symm.trans hptr'
    exact hw

theorem returning_spec (h : Caller B inits k i pid P) {X : Mapper} {c : Call}
    (hreq : request frame = some c) :
    Spec (returning rsp (call X c) : Code Kernel ε Control) k
      (UserDispatch B inits k i pid P rsp frame) fun _ _ => False := by
  rw [returning,spec_bind,spec_attempt]
  refine (h.call_spec X c).mono ?_ ?_
  · intro n k' he
    rw [spec_bind,setFrameRax,spec_modify,spec_pure]
    exact .returned hreq he
  · intro e k' he
    rw [spec_bind,setFrameRax,spec_modify,spec_pure]
    exact .returned hreq he

theorem rooted_setRax (h : k.Rooted) (rsp : ℕ) (value : UInt64) : (k.setRax rsp value).Rooted :=
  fun ht hs => h ht hs

theorem dispatch_user_spec (h : Caller B inits k i pid P) (hs : k.Scheduled)
    (hframe : k.frames rsp = frame) (hcanon : PointersCanonical frame) :
    Spec (dispatch p rsp : Code Kernel ε Control) k (UserDispatch B inits k i pid P rsp frame)
      fun _ _ => False := by
  rw [dispatch,spec_bind,spec_read,hframe]
  unfold PointersCanonical at hcanon
  cases hraw : SyscallNumber.fromRaw frame.rax with
  | none =>
    simp only [hraw,spec_bind,setFrameRax,spec_modify,spec_pure]
    exact .unknown hraw
  | some number =>
    simp only [hraw] at hcanon ⊢
    cases number with
    | yield =>
      simp only [spec_bind,setFrameRax,spec_modify]
      exact (switchFromInterrupt_spec (scheduled_setRax hs rsp 0) (rooted_setRax h.inv.rooted rsp 0)
        rsp).imp fun _ _ hsw => .yielded hraw hsw
    | exit =>
      have hexit : processExit .finished (some frame.rdi) = some (exitOf frame) := rfl
      refine (finishCurrentFromInterrupt_spec h.inv hs h.current hexit rsp none).imp ?_
      rintro c k' ⟨k₁,hfin,hsel⟩
      exact .exited hraw hfin hsel
    | write =>
      obtain ⟨buf,hbuf⟩ := Option.isSome_iff_exists.mp hcanon
      have hreq : request frame = some (.write frame.rdi.toNat buf frame.rdx.toNat) := by
        simp [request,hraw,hbuf]
      simp only [spec_bind,virtAddr,hbuf,spec_orAbort_some]
      exact returning_spec h (X := p.mapper) hreq
    | getPid =>
      simp only [spec_bind]
      rw [h.spec_currentProcessId]
      simp only [spec_bind,setFrameRax,spec_modify,spec_pure]
      have hreq : request frame = some .getPid := by simp [request,hraw]
      exact .returned hreq (h.unchanged (r := .ok pid) rfl)
    | waitPid =>
      obtain ⟨statusPtr,hptr⟩ := Option.isSome_iff_exists.mp hcanon
      obtain ⟨t,ht,hp⟩ := h.task
      simp only [spec_bind,hptr,spec_orAbort_some]
      exact (waitpidFromInterrupt_spec h.inv hs h.current ht hp h.acts rsp frame.rdi.toNat statusPtr
        frame.rdx.toNat).imp fun _ _ hw => .waited hraw hptr hw
    | «open» =>
      obtain ⟨path,hpath⟩ := Option.isSome_iff_exists.mp hcanon
      have hreq : request frame = some (.open path frame.rsi.toNat frame.rdx.toNat) := by
        simp [request,hraw,hpath]
      simp only [spec_bind,virtAddr,hpath,spec_orAbort_some]
      exact returning_spec h (X := p.mapper) hreq
    | read =>
      obtain ⟨buf,hbuf⟩ := Option.isSome_iff_exists.mp hcanon
      have hreq : request frame = some (.read frame.rdi.toNat buf frame.rdx.toNat) := by
        simp [request,hraw,hbuf]
      simp only [spec_bind,virtAddr,hbuf,spec_orAbort_some]
      exact returning_spec h (X := p.mapper) hreq
    | close =>
      have hreq : request frame = some (.close frame.rdi.toNat) := by simp [request,hraw]
      exact returning_spec h (X := p.mapper) hreq
    | brk =>
      have hreq : request frame = some (.brk frame.rdi.toNat) := by simp [request,hraw]
      exact returning_spec h (X := p.mapper) hreq

theorem dispatch_call {call' : Call} (hframe : k.frames rsp = frame) (hreq : request frame = some call')
    (hne : call' ≠ .getPid) :
    (dispatch p rsp : Code Kernel ε Control) k = returning rsp (call p.mapper call') k := by
  have hread : (Code.read : Code Kernel ε Kernel) k = .ok k k := rfl
  have haddr : ∀ {a : ℕ} {v : VirtAddr} (f : VirtAddr → Code Kernel ε Control), VirtAddr.new a = some v →
      (virtAddr a >>= f) k = f v k := by
    intro a v f hv
    refine bind_ok ?_ _
    rw [virtAddr,hv]
    rfl
  unfold request at hreq
  rw [dispatch]
  refine (bind_ok hread _).trans ?_
  rw [hframe]
  cases hraw : SyscallNumber.fromRaw frame.rax with
  | none => simp [hraw] at hreq
  | some number =>
    simp only [hraw] at hreq ⊢
    cases number with
    | write =>
      obtain ⟨buf,hbuf,rfl⟩ := Option.map_eq_some_iff.mp hreq
      exact haddr _ hbuf
    | «open» =>
      obtain ⟨path,hpath,rfl⟩ := Option.map_eq_some_iff.mp hreq
      exact haddr _ hpath
    | read =>
      obtain ⟨buf,hbuf,rfl⟩ := Option.map_eq_some_iff.mp hreq
      exact haddr _ hbuf
    | close =>
      cases hreq
      rfl
    | brk =>
      cases hreq
      rfl
    | getPid =>
      cases hreq
      exact absurd rfl hne
    | _ => cases hreq

theorem dispatch_panic (hframe : k.frames rsp = frame) (hbad : ¬ PointersCanonical frame) :
    (dispatch p rsp : Code Kernel ε Control) k = .panic := by
  have habort : ∀ {α : Type} {o : Option α} (f : α → Code Kernel ε Control), ¬ o.isSome →
      ((Code.orAbort o : Code Kernel ε α) >>= f) k = .panic := by
    intro α o f ho
    cases o with
    | none => exact bind_panic rfl f
    | some a => exact absurd rfl ho
  unfold PointersCanonical at hbad
  have hread : (Code.read : Code Kernel ε Kernel) k = .ok k k := rfl
  rw [dispatch]
  refine (bind_ok hread _).trans ?_
  rw [hframe]
  cases hraw : SyscallNumber.fromRaw frame.rax with
  | none => simp [hraw] at hbad
  | some number =>
    simp only [hraw] at hbad ⊢
    cases number with
    | write => exact habort _ hbad
    | read => exact habort _ hbad
    | «open» => exact habort _ hbad
    | waitPid => exact habort _ hbad
    | _ => exact absurd trivial hbad

inductive KernelDispatch (B : BootMemory) (k : Kernel) (i rsp : ℕ) (frame : TrapFrame) :
    Control → Kernel → Prop where
  | returned (r : Except SysError ℕ) : SyscallNumber.fromRaw frame.rax ≠ some .yield →
      SyscallNumber.fromRaw frame.rax ≠ some .exit →
      (SyscallNumber.fromRaw frame.rax = some .waitPid → r = .error .child) →
      KernelDispatch B k i rsp frame (.resume rsp) (k.setRax rsp (result r))
  | yielded {c : Control} {k' : Kernel} : SyscallNumber.fromRaw frame.rax = some .yield →
      Switches (k.setRax rsp 0) rsp c k' → KernelDispatch B k i rsp frame c k'
  | exited {k₁ : Kernel} {c : Control} {k' : Kernel} :
      SyscallNumber.fromRaw frame.rax = some .exit →
      Finishes B k i (exitTask rsp frame) (exitOf frame) k₁ → Selects k₁ i c k' →
      KernelDispatch B k i rsp frame c k'

theorem spec_kernelProcessId (hcur : k.current = some i) (ht : k.tasks[i]? = some t)
    (hp : t.processId = none) {R : Option ProcessId → Kernel → Prop} {E : ε → Kernel → Prop} :
    Spec currentProcessId k R E ↔ R none k := by
  rw [currentProcessId,spec_bind,spec_read]
  simp only [hcur,spec_bind]
  rw [spec_taskAt ht,spec_pure,hp]

def Empty : Call → Prop
  | .read _ _ len => len = 0
  | .write _ _ len => len = 0
  | _ => False

theorem processlessCall_spec (hnone : ∀ {R : Option ProcessId → Kernel → Prop}
      {E : SysError → Kernel → Prop}, Spec currentProcessId k R E ↔ R none k) (X : Mapper) (c : Call) :
    Spec (call X c) k (fun n k' => k' = k ∧ n = 0 ∧ Empty c) (fun _ k' => k' = k) := by
  have hpid : ∀ {α : Type} {e : SysError} {f : ProcessId → Code Kernel SysError α}
      {Q : α → Kernel → Prop}, Spec (currentProcessId >>= fun pid => Code.orFail pid e >>= f) k Q
        (fun _ k' => k' = k) := by
    intro α e f Q
    rw [spec_bind,hnone,spec_bind,spec_orFail_none]
  have hfile : ∀ {α : Type} {fd : ℕ} {f : ProcessId × OpenFileId × OpenFile → Code Kernel SysError α}
      {Q : α → Kernel → Prop}, Spec (openFileFor fd >>= f) k Q (fun _ k' => k' = k) := by
    intro α fd f Q
    rw [spec_bind]
    exact hpid
  cases c with
  | «open» path pathLen flags =>
    rw [call,sysOpenCurrent,spec_ite]
    refine ⟨fun _ => (spec_fail _).mpr rfl,fun _ => ?_⟩
    rw [spec_ite]
    refine ⟨fun _ => (spec_fail _).mpr rfl,fun _ => ?_⟩
    rw [spec_ite]
    exact ⟨fun _ => (spec_fail _).mpr rfl,fun _ => hpid⟩
  | read fd buf len =>
    rw [call,sysReadCurrent,spec_ite]
    exact ⟨fun hz => (spec_pure _).mpr ⟨rfl,rfl,hz⟩,fun _ => hfile⟩
  | write fd buf len =>
    rw [call,sysWriteCurrent,spec_ite]
    exact ⟨fun hz => (spec_pure _).mpr ⟨rfl,rfl,hz⟩,fun _ => hfile⟩
  | close fd => exact hpid
  | brk requested => exact hpid
  | getPid =>
    rw [call,sysGetPidCurrent,spec_bind,hnone,spec_orFail_none]

theorem kernelCall_spec (hcur : k.current = some i) (ht : k.tasks[i]? = some t)
    (hp : t.processId = none) (X : Mapper) (c : Call) :
    Spec (call X c) k (fun _ k' => k' = k) (fun _ k' => k' = k) :=
  (processlessCall_spec (spec_kernelProcessId hcur ht hp) X c).imp fun _ _ h => h.1

theorem kernelReturning_spec (hcur : k.current = some i) (ht : k.tasks[i]? = some t)
    (hp : t.processId = none) (hyield : SyscallNumber.fromRaw frame.rax ≠ some .yield)
    (hexit : SyscallNumber.fromRaw frame.rax ≠ some .exit)
    (hwait : SyscallNumber.fromRaw frame.rax ≠ some .waitPid) (X : Mapper) (c : Call) :
    Spec (returning rsp (call X c) : Code Kernel ε Control) k (KernelDispatch B k i rsp frame)
      fun _ _ => False := by
  rw [returning,spec_bind,spec_attempt]
  refine (kernelCall_spec hcur ht hp X c).mono ?_ ?_
  · rintro n _ rfl
    rw [spec_bind,setFrameRax,spec_modify,spec_pure]
    exact .returned (.ok n) hyield hexit fun hw => absurd hw hwait
  · rintro e _ rfl
    rw [spec_bind,setFrameRax,spec_modify,spec_pure]
    exact .returned (.error e) hyield hexit fun hw => absurd hw hwait

theorem dispatch_kernel_spec (h : CoreInv B (k.core inits)) (hs : k.Scheduled)
    (hcur : k.current = some i) (ht : k.tasks[i]? = some t) (hp : t.processId = none)
    (hframe : k.frames rsp = frame) (hcanon : PointersCanonical frame) :
    Spec (dispatch p rsp : Code Kernel ε Control) k (KernelDispatch B k i rsp frame)
      fun _ _ => False := by
  rw [dispatch,spec_bind,spec_read,hframe]
  unfold PointersCanonical at hcanon
  have hcall : SyscallNumber.fromRaw frame.rax ≠ some .yield →
      SyscallNumber.fromRaw frame.rax ≠ some .exit →
      SyscallNumber.fromRaw frame.rax ≠ some .waitPid → ∀ c,
      Spec (returning rsp (call p.mapper c) : Code Kernel ε Control) k (KernelDispatch B k i rsp frame)
        fun _ _ => False :=
    fun h₁ h₂ h₃ => kernelReturning_spec hcur ht hp h₁ h₂ h₃ p.mapper
  cases hraw : SyscallNumber.fromRaw frame.rax with
  | none =>
    simp only [hraw,spec_bind,setFrameRax,spec_modify,spec_pure]
    exact .returned (.error .noSys) (by simp [hraw]) (by simp [hraw]) (by simp [hraw])
  | some number =>
    simp only [hraw] at hcanon ⊢
    cases number with
    | yield =>
      simp only [spec_bind,setFrameRax,spec_modify]
      exact (switchFromInterrupt_spec (scheduled_setRax hs rsp 0) (rooted_setRax h.rooted rsp 0)
        rsp).imp fun _ _ hsw => .yielded hraw hsw
    | exit =>
      have hexit : processExit .finished (some frame.rdi) = some (exitOf frame) := rfl
      refine (finishCurrentFromInterrupt_spec h hs hcur hexit rsp none).imp ?_
      rintro c k' ⟨k₁,hfin,hsel⟩
      exact .exited hraw hfin hsel
    | write =>
      obtain ⟨buf,hbuf⟩ := Option.isSome_iff_exists.mp hcanon
      simp only [spec_bind,virtAddr,hbuf,spec_orAbort_some]
      exact hcall (by simp [hraw]) (by simp [hraw]) (by simp [hraw])
        (.write frame.rdi.toNat buf frame.rdx.toNat)
    | getPid =>
      simp only [spec_bind]
      rw [spec_kernelProcessId hcur ht hp]
      simp only [spec_bind,setFrameRax,spec_modify,spec_pure]
      exact .returned (.error .child) (by simp [hraw]) (by simp [hraw]) fun _ => rfl
    | waitPid =>
      obtain ⟨statusPtr,hptr⟩ := Option.isSome_iff_exists.mp hcanon
      simp only [spec_bind,hptr,spec_orAbort_some]
      rw [waitpidFromInterrupt,spec_bind,spec_read]
      simp only [hcur,spec_bind]
      rw [spec_taskAt ht]
      simp only [hp,returnSysError,spec_bind,setFrameRax,spec_modify,spec_pure]
      exact .returned (.error .child) (by simp [hraw]) (by simp [hraw]) fun _ => rfl
    | «open» =>
      obtain ⟨path,hpath⟩ := Option.isSome_iff_exists.mp hcanon
      simp only [spec_bind,virtAddr,hpath,spec_orAbort_some]
      exact hcall (by simp [hraw]) (by simp [hraw]) (by simp [hraw])
        (.open path frame.rsi.toNat frame.rdx.toNat)
    | read =>
      obtain ⟨buf,hbuf⟩ := Option.isSome_iff_exists.mp hcanon
      simp only [spec_bind,virtAddr,hbuf,spec_orAbort_some]
      exact hcall (by simp [hraw]) (by simp [hraw]) (by simp [hraw])
        (.read frame.rdi.toNat buf frame.rdx.toNat)
    | close => exact hcall (by simp [hraw]) (by simp [hraw]) (by simp [hraw]) (.close frame.rdi.toNat)
    | brk => exact hcall (by simp [hraw]) (by simp [hraw]) (by simp [hraw]) (.brk frame.rdi.toNat)

theorem exitTask_ends (rsp : ℕ) (frame : TrapFrame) : Ends (exitTask rsp frame) :=
  endTask_ends (show processExit .finished (some frame.rdi) = some (exitOf frame) from rfl) rsp none

theorem UserDispatch.evolves (h : Caller B inits k i pid P) (hs : k.Scheduled)
    (hd : UserDispatch B inits k i pid P rsp frame c k') : Evolves B inits k inits k' := by
  cases hd with
  | returned _ he => exact ⟨he.core,scheduled_setRax (he.scheduled h hs) rsp _⟩
  | unknown _ => exact ⟨Or.inl rfl,scheduled_setRax hs rsp _⟩
  | yielded _ hsw =>
    have hset := scheduled_setRax hs rsp 0
    have hcore : k'.core inits = (k.setRax rsp 0).core inits := hsw.core hset
    exact ⟨Or.inl hcore,hsw.scheduled hset⟩
  | exited _ hfin hsel => exact hfin.selected (exitTask_ends rsp frame) h.inv hs h.current hsel
  | waited _ _ hw => exact ⟨hw.coreStep h.acts,hw.scheduled h hs⟩

theorem KernelDispatch.evolves (h : CoreInv B (k.core inits)) (hs : k.Scheduled)
    (hcur : k.current = some i) (hd : KernelDispatch B k i rsp frame c k') :
    Evolves B inits k inits k' := by
  cases hd with
  | returned r _ _ _ => exact ⟨Or.inl rfl,scheduled_setRax hs rsp _⟩
  | yielded _ hsw =>
    have hset := scheduled_setRax hs rsp 0
    have hcore : k'.core inits = (k.setRax rsp 0).core inits := hsw.core hset
    exact ⟨Or.inl hcore,hsw.scheduled hset⟩
  | exited _ hfin hsel => exact hfin.selected (exitTask_ends rsp frame) h hs hcur hsel

end Syscall

end VladOs
