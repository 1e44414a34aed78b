import VladOs.Kernel.History
import VladOs.Kernel.Wakeup
import VladOs.Kernel.Seats

namespace VladOs

open Code Paging ProcessTable Kernel Transition

namespace Kernel

structure StillWaiting (k : Kernel) (ended : Option ProcessId) (tasks : List Task) : Prop where
  kept : ∀ {j : ℕ} {t : Task} {child : ProcessId} {statusPtr : Option VirtAddr},
    k.tasks[j]? = some t → t.state = .blocked (.childExit child statusPtr) → ended ≠ some child →
    tasks[j]? = some t

variable {B : BootMemory} {k k₁ k' : Kernel} {i j start : ℕ} {t : Task} {c : Control} {f : Task → Task}
  {pid : ProcessId} {P : Process} {exit : ProcessExit} {rsp : ℕ} {ended : Option ProcessId}

theorem StillWaiting.refl : StillWaiting k ended k.tasks := ⟨fun ht _ _ => ht⟩

theorem StillWaiting.append : StillWaiting k ended (k.tasks ++ [t]) :=
  ⟨fun hu _ _ => (List.getElem?_append_left (List.getElem?_eq_some_iff.mp hu).1).trans hu⟩

theorem StillWaiting.modify (h : StillWaiting k ended k₁.tasks)
    (hi : ∀ {t child statusPtr}, k.tasks[i]? = some t → ended ≠ some child →
      t.state ≠ .blocked (.childExit child statusPtr)) :
    StillWaiting k ended (k₁.modifyTask i f).tasks := by
  refine ⟨fun {j t child statusPtr} ht hs hne => ?_⟩
  have hji : j ≠ i := by
    rintro rfl
    exact hi ht hne hs
  rw [modifyTask_of_ne hji]
  exact h.kept ht hs hne

theorem StillWaiting.current (h : StillWaiting k ended k₁.tasks) (hs : k.Scheduled)
    (hi : k.current = some i) : StillWaiting k ended (k₁.modifyTask i f).tasks := by
  refine h.modify fun {t child statusPtr} ht _ hstate => ?_
  obtain ⟨u,hu,hrun⟩ := hs.task hi
  rw [ht] at hu
  cases hu
  rw [hstate] at hrun
  cases hrun

theorem StillWaiting.resumed {next : ℕ} {root : Frame} (h : StillWaiting k ended k₁.tasks)
    (ht : k₁.tasks[next]? = some t) (hready : t.state = .ready) :
    StillWaiting k ended (k₁.resumed next t root).tasks := by
  refine StillWaiting.modify (f := Task.setState .running) h fun {u child statusPtr} hu hne hstate => ?_
  rw [h.kept hu hstate hne] at ht
  cases ht
  rw [hstate] at hready
  cases hready

theorem StillWaiting.selected (h : StillWaiting k ended k₁.tasks) (hsel : Selects k₁ start c k') :
    StillWaiting k ended k'.tasks := by
  cases hsel with
  | resume _ ht hready _ => exact h.resumed ht hready
  | main _ => exact h

theorem Starts.stillWaiting {bootRsp : ℕ} {c : Option Control} (h : Starts k bootRsp c k') :
    StillWaiting k ended k'.tasks := by
  cases h with
  | nothing _ => exact .refl
  | @first next t root _ ht hready _ =>
    have hsame : StillWaiting k ended { k with mainContext := bootRsp }.tasks := .refl
    exact hsame.resumed ht hready

theorem Switches.stillWaiting (hs : k.Scheduled) (h : Switches k rsp c k') :
    StillWaiting k ended k'.tasks := by
  cases h with
  | idle _ => exact .refl
  | stay hi _ => exact StillWaiting.refl.current hs hi
  | @switch i next t root hi _ ht hready hne _ =>
    refine ((StillWaiting.refl.current hs hi).current hs hi).resumed ?_ hready
    rw [modifyTask_of_ne hne,modifyTask_of_ne hne]
    exact ht

theorem Exits.stillWaiting (hs : k.Scheduled) (hi : k.current = some i)
    (h : Exits B k i f pid P exit k') : StillWaiting k (some pid) k'.tasks := by
  have hend : StillWaiting k (some pid) (k.modifyTask i f).tasks := StillWaiting.refl.current hs hi
  cases h with
  | alone _ => exact hend
  | @woken w u _ _ _ _ hu _ hstate _ _ _ _ =>
    refine hend.modify fun {t child statusPtr} ht hne hblocked => ?_
    rw [hu] at ht
    cases ht
    rw [hstate] at hblocked
    cases hblocked
    exact hne rfl

theorem WaitResult.stillWaiting {child : ProcessId} {statusPtr : Option VirtAddr} {options : ℕ}
    (hs : k.Scheduled) (hi : k.current = some i)
    (h : WaitResult B k i rsp pid P child statusPtr options c k') : StillWaiting k ended k'.tasks := by
  cases h with
  | refused _ => exact .refl
  | running _ _ _ _ _ => exact .refl
  | reaped _ _ _ _ _ => exact StillWaiting.refl.current hs hi
  | blocked _ _ _ _ _ hsel => exact ((StillWaiting.refl.current hs hi).current hs hi).selected hsel

theorem Finishes.stillWaiting (hs : k.Scheduled) (hi : k.current = some i)
    (h : Finishes B k i f exit k') : StillWaiting k k.currentPid k'.tasks := by
  cases h with
  | kernel _ _ => exact StillWaiting.refl.current hs hi
  | user ht hp _ hx =>
    rw [currentPid_eq.mpr ⟨i,_,hi,ht,hp⟩]
    exact hx.stillWaiting hs hi

end Kernel

section

open TaskTable

variable {t t' : ProcessTable} {pid c parent child : ProcessId} {P : Process} {exit e : ProcessExit}

theorem state_reapTable {state : ProcessState} (h : (reapTable t parent child).state c = some state) :
    t.state c = some state := by
  obtain ⟨C,hC,hstate⟩ := state_eq.mp h
  obtain ⟨-,C₀,hC₀,rfl | ⟨-,rfl⟩⟩ := get_reapTable_some hC
  · exact state_eq.mpr ⟨C,hC₀,hstate⟩
  · exact state_eq.mpr ⟨C₀,hC₀,hstate⟩

theorem zombie_exitTable (hf : Forest t) (hP : t.get pid = some P)
    (h : (exitTable t pid P exit).state c = some (.zombie e)) :
    t.state c = some (.zombie e) ∨ c = pid ∧ e = exit := by
  obtain ⟨C,hC,hz⟩ := state_eq.mp h
  rcases get_exitTable_some hf hP hC with ⟨rfl,rfl⟩ | ⟨-,-,C₀,-,hrun,rfl⟩ | ⟨-,-,hC⟩
  · cases hz
    exact Or.inr ⟨rfl,rfl⟩
  · cases hrun.symm.trans hz
  · exact Or.inl (state_eq.mpr ⟨C,hC,hz⟩)

theorem Forest.Created.zombie {parent : Option ProcessId} {space : AddressSpace} {heap : UserHeap}
    {table : FdTable} {task : TaskId}
    (h : Forest.Created t parent (newProcess pid parent space heap table task) pid t')
    (hz : t'.state c = some (.zombie e)) : t.state c = some (.zombie e) := by
  obtain ⟨C,hC,hz⟩ := state_eq.mp hz
  rw [h.get] at hC
  split at hC
  · cases hC
    cases hz
  · split at hC
    · obtain ⟨C₀,hC₀,rfl⟩ := Option.map_eq_some_iff.mp hC
      exact state_eq.mpr ⟨C₀,hC₀,hz⟩
    · exact state_eq.mpr ⟨C,hC,hz⟩

theorem TableStep.zombie (hf : Forest t) (h : TableStep t t') (hz : t'.state c = some (.zombie e)) :
    t.state c = some (.zombie e) ∨ t.state c = some .running := by
  have hexit : ∀ {pid P exit}, t.get pid = some P → P.state = .running →
      (exitTable t pid P exit).state c = some (.zombie e) →
      t.state c = some (.zombie e) ∨ t.state c = some .running := by
    intro pid P exit hP hrun hz
    rcases zombie_exitTable hf hP hz with hold | ⟨rfl,-⟩
    · exact Or.inl hold
    · exact Or.inr (state_eq.mpr ⟨P,hP,hrun⟩)
  cases h with
  | same _ hk =>
    obtain ⟨C,hC,hz⟩ := state_eq.mp hz
    obtain ⟨C₀,hC₀,hkin⟩ := get_of_kin (hk c) hC
    exact Or.inl (state_eq.mpr ⟨C₀,hC₀,(congrArg Kin.state hkin).trans hz⟩)
  | created hc => exact Or.inl (hc.zombie hz)
  | exited exit hP hrun =>
    obtain ⟨C,hC,hz⟩ := state_eq.mp hz
    exact hexit hP hrun (state_eq.mpr ⟨C,get_reapOrphan_some hC,hz⟩)
  | collectedExit exit hP hrun _ _ => exact hexit hP hrun (state_reapTable hz)
  | collected _ _ _ _ => exact Or.inl (state_reapTable hz)

end

section

variable {B : BootMemory} {k k' : Kernel} {inits inits' : List UserTaskInit} {i : ℕ} {f : Task → Task}
  {pid c : ProcessId} {P : Process} {exit e : ProcessExit}

theorem Kernel.Evolves.zombie (h : CoreInv B (k.core inits)) (he : Evolves B inits k inits' k')
    (htasks : k'.tasks = k.tasks) (hz : k'.processes.state c = some (.zombie e)) :
    k.processes.state c = some (.zombie e) := by
  rcases (he.table h).zombie h.forest hz with hold | hrun
  · exact hold
  · obtain ⟨C,hC,hzc⟩ := TaskTable.state_eq.mp hz
    obtain ⟨v,hv,hvp⟩ := (he.inv h).tasks.main hC
    have hv₀ : (k.core inits).tasks[C.mainTask]? = some v := by
      have hviews : k'.views = k.views := by rw [views,htasks,views]
      change k.views[C.mainTask]? = some v
      rw [← hviews]
      exact hv
    have hlive := ((he.inv h).tasks.live hv hvp).mp ((h.tasks.live hv₀ hvp).mpr hrun)
    cases hz.symm.trans hlive

theorem Kernel.Exits.zombie (hf : Forest k.processes) (hP : k.processes.get pid = some P)
    (h : Exits B k i f pid P exit k') (hz : k'.processes.state c = some (.zombie e)) :
    k.processes.state c = some (.zombie e) ∨ c = pid ∧ e = exit := by
  cases h with
  | alone _ =>
    obtain ⟨C,hC,hz⟩ := TaskTable.state_eq.mp hz
    exact zombie_exitTable hf hP (TaskTable.state_eq.mpr ⟨C,get_reapOrphan_some hC,hz⟩)
  | woken _ _ _ _ _ _ _ => exact zombie_exitTable hf hP (state_reapTable hz)

theorem Kernel.Finishes.zombie (hf : Forest k.processes) (hi : k.current = some i)
    (h : Finishes B k i f exit k') (hz : k'.processes.state c = some (.zombie e)) :
    k.processes.state c = some (.zombie e) ∨ k.currentPid = some c ∧ e = exit := by
  cases h with
  | kernel _ _ => exact Or.inl hz
  | user ht hp hP hx =>
    refine (hx.zombie hf hP hz).imp_right ?_
    rintro ⟨rfl,he⟩
    exact ⟨currentPid_eq.mpr ⟨i,_,hi,ht,hp⟩,he⟩

theorem Kernel.Selects.processes {start : ℕ} {control : Control} (h : Selects k start control k') :
    k'.processes = k.processes := by
  cases h <;> rfl

theorem Kernel.Selects.memory {start : ℕ} {control : Control} (h : Selects k start control k') :
    k'.memory = k.memory := by
  cases h <;> rfl

theorem Kernel.Switches.processes {rsp : ℕ} {control : Control} (h : Switches k rsp control k') :
    k'.processes = k.processes := by
  cases h <;> rfl

theorem Kernel.WaitResult.zombie {rsp options : ℕ} {child : ProcessId} {statusPtr : Option VirtAddr}
    {control : Control} (h : WaitResult B k i rsp pid P child statusPtr options control k')
    (hz : k'.processes.state c = some (.zombie e)) : k.processes.state c = some (.zombie e) := by
  cases h with
  | refused _ => exact hz
  | running _ _ _ _ _ => exact hz
  | reaped _ _ _ _ _ => exact state_reapTable hz
  | blocked _ _ _ _ _ hsel =>
    rw [hsel.processes] at hz
    exact hz

end

section

variable {B : BootMemory} {s s' : System} {a : Action} {o : Output}

def Action.ends (s : System) : Action → Option ProcessId
  | .syscall _ frame => if SyscallNumber.fromRaw frame.rax = some .exit then s.kernel.currentPid else none
  | .fault _ _ _ => s.kernel.currentPid
  | _ => none

theorem ends_eq {pid : ProcessId} : a.ends s = some pid ↔ ∃ exit, EndsProcess s a pid exit := by
  constructor
  · intro h
    cases a with
    | syscall rsp frame =>
      simp only [Action.ends] at h
      split at h
      · next hraw => exact ⟨_,.exit h hraw⟩
      · cases h
    | fault rsp frame info => exact ⟨_,.fault h⟩
    | _ => cases h
  · rintro ⟨exit,h⟩
    cases h with
    | exit hpid hraw => exact (if_pos hraw).trans hpid
    | fault hpid => exact hpid

theorem Kernel.StillWaiting.of_trap {rsp : ℕ} {frame : TrapFrame} {k : Kernel} {ended : Option ProcessId}
    {tasks : List Task} (h : StillWaiting (k.trap rsp frame) ended tasks) : StillWaiting k ended tasks :=
  ⟨h.kept⟩

theorem UserDispatch.stillWaiting {inits : List UserTaskInit} {k k' : Kernel} {i rsp : ℕ}
    {pid : ProcessId} {P : Process} {frame : TrapFrame} {c : Control} {ended : Option ProcessId}
    (hs : k.Scheduled) (hi : k.current = some i)
    (hended : SyscallNumber.fromRaw frame.rax = some .exit → ended = k.currentPid)
    (h : Syscall.UserDispatch B inits k i pid P rsp frame c k') : StillWaiting k ended k'.tasks := by
  cases h with
  | @returned _ _ k' _ he =>
    have hrest : k'.tasks = k.tasks := by rw [he.rest]
    change StillWaiting k _ k'.tasks
    rw [hrest]
    exact .refl
  | unknown _ => exact .refl
  | yielded _ hsw => exact ⟨(hsw.stillWaiting (scheduled_setRax hs rsp 0)).kept⟩
  | exited hraw hfin hsel =>
    rw [hended hraw]
    exact (hfin.stillWaiting hs hi).selected hsel
  | waited _ _ hw => exact hw.stillWaiting hs hi

theorem KernelDispatch.stillWaiting {k k' : Kernel} {i rsp : ℕ} {frame : TrapFrame} {c : Control}
    {ended : Option ProcessId} (hs : k.Scheduled) (hi : k.current = some i)
    (hended : SyscallNumber.fromRaw frame.rax = some .exit → ended = k.currentPid)
    (h : Syscall.KernelDispatch B k i rsp frame c k') : StillWaiting k ended k'.tasks := by
  cases h with
  | returned _ _ _ _ => exact .refl
  | yielded _ hsw => exact ⟨(hsw.stillWaiting (scheduled_setRax hs rsp 0)).kept⟩
  | exited hraw hfin hsel =>
    rw [hended hraw]
    exact (hfin.stillWaiting hs hi).selected hsel

theorem Performs.stillWaiting (h : Stable B s) (hp : Performs B s a o s') :
    StillWaiting s.kernel (a.ends s) s'.kernel.tasks := by
  cases hp with
  | spawned hspawn =>
    cases hspawn with
    | intro _ => exact .append
  | processSpawned _ hspawn =>
    cases hspawn with
    | intro _ _ _ => exact .append
  | @processRefused _ _ _ _ _ k' hfail =>
    obtain rfl := hfail.same
    exact .refl
  | started _ hstart => exact hstart.stillWaiting
  | timer hsw => exact (hsw.stillWaiting (h.scheduled.trap _ _)).of_trap
  | yielded hsw => exact (hsw.stillWaiting (h.scheduled.trap _ _)).of_trap
  | userCall hcaller hd =>
    exact (UserDispatch.stillWaiting (h.scheduled.trap _ _) hcaller.current (fun hraw => if_pos hraw)
      hd).of_trap
  | kernelCall hcur _ _ hd =>
    exact (KernelDispatch.stillWaiting (h.scheduled.trap _ _) hcur (fun hraw => if_pos hraw) hd).of_trap
  | faulted hcur hfin hsel =>
    exact ((hfin.stillWaiting (h.scheduled.trap _ _) hcur).selected hsel).of_trap
  | kernelReturned hcur _ _ hsel =>
    exact (StillWaiting.refl.current h.scheduled hcur).selected hsel
  | _ => exact .refl

theorem Performs.zombie (h : Stable B s) (hp : Performs B s a o s') {c : ProcessId} {exit : ProcessExit}
    (hz : s'.kernel.processes.state c = some (.zombie exit)) :
    s.kernel.processes.state c = some (.zombie exit) ∨ EndsProcess s a c exit := by
  have he := hp.evolves h
  have hf : ∀ rsp frame, Forest (s.kernel.trap rsp frame).processes := fun _ _ => h.core.forest
  cases hp with
  | spawned hspawn =>
    cases hspawn with
    | intro _ => exact Or.inl hz
  | processSpawned _ hspawn =>
    cases hspawn with
    | intro _ _ hcreated => exact Or.inl (hcreated.zombie hz)
  | @processRefused _ _ _ _ _ k' hfail =>
    obtain rfl := hfail.same
    exact Or.inl hz
  | started _ hstart =>
    cases hstart with
    | nothing _ => exact Or.inl hz
    | first _ _ _ _ => exact Or.inl hz
  | timer hsw =>
    rw [hsw.processes] at hz
    exact Or.inl hz
  | yielded hsw =>
    rw [hsw.processes] at hz
    exact Or.inl hz
  | userCall hcaller hd =>
    cases hd with
    | @returned _ _ k' _ hcall =>
      have hrest : k'.tasks = s.kernel.tasks := by rw [hcall.rest]; rfl
      exact Or.inl (he.zombie h.core hrest hz)
    | unknown _ => exact Or.inl hz
    | yielded _ hsw =>
      rw [hsw.processes] at hz
      exact Or.inl hz
    | exited hraw hfin hsel =>
      rw [hsel.processes] at hz
      refine (hfin.zombie (hf _ _) hcaller.current hz).imp_right ?_
      rintro ⟨hpid,rfl⟩
      exact .exit hpid hraw
    | waited _ _ hw => exact Or.inl (hw.zombie hz)
  | kernelCall hcur _ _ hd =>
    cases hd with
    | returned _ _ _ _ => exact Or.inl hz
    | yielded _ hsw =>
      rw [hsw.processes] at hz
      exact Or.inl hz
    | exited hraw hfin hsel =>
      rw [hsel.processes] at hz
      refine (hfin.zombie (hf _ _) hcur hz).imp_right ?_
      rintro ⟨hpid,rfl⟩
      exact .exit hpid hraw
  | faulted hcur hfin hsel =>
    rw [hsel.processes] at hz
    refine (hfin.zombie (hf _ _) hcur hz).imp_right ?_
    rintro ⟨hpid,rfl⟩
    exact .fault hpid
  | kernelReturned _ _ _ hsel =>
    rw [hsel.processes] at hz
    exact Or.inl hz
  | _ => exact Or.inl hz

end

end VladOs
