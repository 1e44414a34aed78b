import VladOs.Kernel.Wakeup

namespace VladOs

open Code Paging OpenFileTable FdTable ProcessTable Kernel

structure Stores where
  processes : ProcessTable
  openFiles : OpenFileTable
  memory : Memory

def Kernel.stores (k : Kernel) : Stores := ⟨k.processes,k.openFiles,k.memory⟩

inductive OtherStep (B : BootMemory) (c : Stores) : Stores → Prop where
  | same : OtherStep B c c
  | extend {m' : Memory} : Extends B c.memory m' → OtherStep B c { c with memory := m' }
  | write {r : Frame} {m' : Memory} : WritesSpace B c.memory r m' →
      OtherStep B c { c with memory := m' }
  | spawn {parent : Option ProcessId} {space : AddressSpace} {heap : UserHeap} {table : FdTable}
      {mainTask : TaskId} {pid : ProcessId} {t' : ProcessTable} {o' : OpenFileTable} :
      newWithStdio c.openFiles = (.ok table,o') →
      Forest.Created c.processes parent (newProcess pid parent space heap table mainTask) pid t' →
      OtherStep B c { c with processes := t', openFiles := o' }
  | reap {parent child : ProcessId} {P C : Process} {exit : ProcessExit} {statusPtr : Option VirtAddr}
      {m' : Memory} : c.processes.get parent = some P → c.processes.get child = some C →
      C.state = .zombie exit → StatusWritten B c.memory P.addressSpace statusPtr exit m' →
      OtherStep B c { c with processes := reapTable c.processes parent child, memory := m' }
  | exitAlone {pid : ProcessId} {P : Process} {exit : ProcessExit} : c.processes.get pid = some P →
      OtherStep B c { c with
        processes := (exitTable c.processes pid P exit).reapOrphanIfZombie pid
        openFiles := closeEntries P.fdTable.entries c.openFiles }
  | exitWoken {pid parent : ProcessId} {P Q : Process} {exit : ProcessExit}
      {statusPtr : Option VirtAddr} {m' : Memory} : c.processes.get pid = some P →
      c.processes.get parent = some Q → StatusWritten B c.memory Q.addressSpace statusPtr exit m' →
      OtherStep B c ⟨reapTable (exitTable c.processes pid P exit) parent pid,
        closeEntries P.fdTable.entries c.openFiles,m'⟩

inductive CallsKernel (B : BootMemory) (s : System) (pid : ProcessId) (c : Call)
    (r : Except SysError ℕ) : Action → System → Prop where
  | intro {rsp i : ℕ} {frame : TrapFrame} {Q : Process} {k' : Kernel} :
      Caller B s.inits (s.kernel.trap rsp frame) i pid Q → Syscall.request frame = some c →
      CallEffect B s.inits (s.kernel.trap rsp frame) pid Q c r k' →
      CallsKernel B s pid c r (.syscall rsp frame) { s with kernel := k'.setRax rsp (Syscall.result r) }

section

variable {B : BootMemory} {k k₁ k' : Kernel} {i rsp start : ℕ} {c : Control} {f : Task → Task}
  {exit : ProcessExit}

theorem Kernel.Selects.stores (h : Selects k start c k') : k'.stores = k.stores := by
  cases h <;> rfl

theorem Kernel.Switches.stores (h : Switches k rsp c k') : k'.stores = k.stores := by
  cases h <;> rfl

theorem Kernel.Starts.stores {bootRsp : ℕ} {c : Option Control} (h : Starts k bootRsp c k') :
    k'.stores = k.stores := by
  cases h <;> rfl

theorem Kernel.Finishes.stores (h : Finishes B k i f exit k') : OtherStep B k.stores k'.stores := by
  cases h with
  | kernel _ _ => exact .same
  | user _ _ hP hx =>
    cases hx with
    | alone _ => exact .exitAlone (c := k.stores) hP
    | woken _ _ _ _ hQ _ hw => exact .exitWoken (c := k.stores) hP hQ hw

theorem Kernel.WaitResult.stores {pid child : ProcessId} {P : Process} {statusPtr : Option VirtAddr}
    {options : ℕ} (hP : k.processes.get pid = some P)
    (h : WaitResult B k i rsp pid P child statusPtr options c k') : OtherStep B k.stores k'.stores := by
  cases h with
  | refused _ => exact .same
  | running _ _ _ _ _ => exact .same
  | reaped _ hC hz _ hw => exact .reap (c := k.stores) hP hC hz hw
  | blocked _ _ _ _ _ hsel =>
    rw [hsel.stores]
    exact .same

theorem Kernel.Finishes.selects_stores (h : Finishes B k i f exit k₁) (hsel : Selects k₁ start c k') :
    OtherStep B k.stores k'.stores := by
  rw [hsel.stores]
  exact h.stores

theorem Kernel.Switches.other (h : Switches k rsp c k') : OtherStep B k.stores k'.stores := by
  rw [h.stores]
  exact .same

end

section

variable {B : BootMemory} {s s' : System} {a : Action} {o : Output}

theorem Syscall.UserDispatch.stores {i rsp : ℕ} {pid : ProcessId} {Q : Process} {frame : TrapFrame}
    {c : Control} {k' : Kernel} (h : Caller B s.inits (s.kernel.trap rsp frame) i pid Q)
    (hd : UserDispatch B s.inits (s.kernel.trap rsp frame) i pid Q rsp frame c k') :
    (∃ c r, CallsKernel B s pid c r (.syscall rsp frame) { s with kernel := k' }) ∨
      OtherStep B s.kernel.stores k'.stores := by
  cases hd with
  | returned hreq he => exact Or.inl ⟨_,_,.intro h hreq he⟩
  | unknown _ => exact Or.inr .same
  | yielded _ hsw => exact Or.inr hsw.other
  | exited _ hfin hsel =>
    have hother := hfin.selects_stores hsel
    exact Or.inr hother
  | waited _ _ hw =>
    have hother := hw.stores h.get
    exact Or.inr hother

theorem Syscall.KernelDispatch.stores {k k' : Kernel} {i rsp : ℕ} {frame : TrapFrame} {c : Control}
    (hd : KernelDispatch B k i rsp frame c k') : OtherStep B k.stores k'.stores := by
  cases hd with
  | returned _ _ _ _ => exact .same
  | yielded _ hsw => exact hsw.other
  | exited _ hfin hsel => exact hfin.selects_stores hsel

theorem Performs.stores (hp : Performs B s a o s') :
    (∃ pid c r, CallsKernel B s pid c r a s') ∨ OtherStep B s.kernel.stores s'.kernel.stores := by
  cases hp with
  | userCall hcaller hd => exact hd.stores hcaller |>.imp_left fun ⟨c,r,h⟩ => ⟨_,c,r,h⟩
  | kernelCall _ _ _ hd => exact Or.inr hd.stores
  | faulted _ hfin hsel =>
    have hother := hfin.selects_stores hsel
    exact Or.inr hother
  | kernelReturned _ _ _ hsel =>
    refine Or.inr ?_
    rw [hsel.stores]
    exact .same
  | spawned hspawn =>
    cases hspawn
    exact Or.inr .same
  | processSpawned _ hspawn =>
    cases hspawn with
    | intro _ hopen hcreated => exact Or.inr (.spawn (c := s.kernel.stores) hopen hcreated)
  | processRefused hfail =>
    obtain rfl := hfail.same
    exact Or.inr .same
  | started _ hstart =>
    refine Or.inr ?_
    rw [hstart.stores]
    exact .same
  | timer hsw => exact Or.inr hsw.other
  | yielded hsw => exact Or.inr hsw.other
  | space hext => exact Or.inr (.extend (c := s.kernel.stores) hext)
  | loaded hbuilt => exact Or.inr (.extend (c := s.kernel.stores) hbuilt.toExtends)
  | loadFailed hext => exact Or.inr (.extend (c := s.kernel.stores) hext)
  | built hbuilt _ => exact Or.inr (.extend (c := s.kernel.stores) hbuilt.toExtends)
  | buildFailed hext _ _ => exact Or.inr (.extend (c := s.kernel.stores) hext)
  | copied hw => exact Or.inr (.write (c := s.kernel.stores) hw)
  | stored hw => exact Or.inr (.write (c := s.kernel.stores) hw)
  | _ => exact Or.inr .same

end

end VladOs
