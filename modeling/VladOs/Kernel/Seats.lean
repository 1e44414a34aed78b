import VladOs.Kernel.Steps

namespace VladOs

open Code ProcessTable Kernel

def Action.frame? : Action → Option (ℕ × TrapFrame)
  | .timer rsp frame => some (rsp,frame)
  | .yield rsp frame => some (rsp,frame)
  | .syscall rsp frame => some (rsp,frame)
  | .fault rsp frame _ => some (rsp,frame)
  | _ => none

structure Task.Seat where
  process : Option ProcessId
  stack : ℕ
  top : ℕ

def Task.seat (t : Task) : Task.Seat := ⟨t.processId,t.kernelStack,t.kernelStackTop⟩

namespace Kernel

structure TaskAfter (k : Kernel) (rsp : Option ℕ) (j : ℕ) (t t' : Task) : Prop where
  seat : t'.seat = t.seat
  ended : t.state.terminal = true → t'.state.terminal = true
  saved : k.current ≠ some j → t'.savedRsp = t.savedRsp
  left : k.current = some j → t'.state = .running ∨ t'.state.terminal = true ∨ rsp = some t'.savedRsp
  waits : k.current ≠ some j → ∀ reason, t'.state = .blocked reason → t.state = .blocked reason

structure TasksAfter (k : Kernel) (rsp : Option ℕ) (tasks : List Task) : Prop where
  length : tasks.length = k.tasks.length
  task : ∀ {j : ℕ} {t' : Task}, tasks[j]? = some t' →
    ∃ t, k.tasks[j]? = some t ∧ TaskAfter k rsp j t t'

variable {B : BootMemory} {k k₁ k' : Kernel} {i j start : ℕ} {t t' : Task} {c : Control} {f : Task → Task}
  {pid : ProcessId} {P : Process} {exit : ProcessExit} {rsp : ℕ} {r : Option ℕ}

theorem TaskAfter.process (h : TaskAfter k r j t t') : t'.processId = t.processId :=
  congrArg Task.Seat.process h.seat

theorem TaskAfter.stack (h : TaskAfter k r j t t') : t'.kernelStack = t.kernelStack :=
  congrArg Task.Seat.stack h.seat

theorem TaskAfter.top (h : TaskAfter k r j t t') : t'.kernelStackTop = t.kernelStackTop :=
  congrArg Task.Seat.top h.seat

theorem TaskAfter.live (h : TaskAfter k r j t t') (hlive : t'.state.terminal = false) :
    t.state.terminal = false := by
  cases hterm : t.state.terminal with
  | false => rfl
  | true =>
    rw [h.ended hterm] at hlive
    cases hlive

theorem getElem?_modifyTask (h : (k.modifyTask i f).tasks[j]? = some t') :
    ∃ t, k.tasks[j]? = some t ∧ (j = i ∧ t' = f t ∨ j ≠ i ∧ t' = t) := by
  by_cases hj : j = i
  · subst hj
    cases ht : k.tasks[j]? with
    | none =>
      rw [modifyTask,List.getElem?_modify,ht] at h
      cases h
    | some t =>
      rw [modifyTask_self ht] at h
      cases h
      exact ⟨t,rfl,Or.inl ⟨rfl,rfl⟩⟩
  · rw [modifyTask_of_ne hj] at h
    exact ⟨t',h,Or.inr ⟨hj,rfl⟩⟩

theorem TasksAfter.refl (h : k.Scheduled) : TasksAfter k r k.tasks := by
  refine ⟨rfl,fun {j t} ht => ?_⟩
  refine ⟨t,ht,rfl,fun hend => hend,fun _ => rfl,fun hc => Or.inl ?_,fun _ _ hs => hs⟩
  obtain ⟨u,hu,hrun⟩ := h.task hc
  rw [ht] at hu
  cases hu
  exact hrun

theorem TasksAfter.left (h : TasksAfter k r k₁.tasks) (hs : k.Scheduled) (hi : k.current = some i)
    (hf : ∀ t, k₁.tasks[i]? = some t →
      (f t).seat = t.seat ∧ ((f t).state.terminal = true ∨ r = some (f t).savedRsp)) :
    TasksAfter k r (k₁.modifyTask i f).tasks := by
  refine ⟨(List.length_modify ..).trans h.length,fun {j t'} ht' => ?_⟩
  obtain ⟨t₁,ht₁,⟨rfl,rfl⟩ | ⟨-,rfl⟩⟩ := getElem?_modifyTask ht'
  · obtain ⟨t,ht,hafter⟩ := h.task ht₁
    obtain ⟨hseat,hleft⟩ := hf t₁ ht₁
    refine ⟨t,ht,hseat.trans hafter.seat,fun hend => ?_,fun hc => absurd hi hc,fun _ => Or.inr hleft,
      fun hc => absurd hi hc⟩
    obtain ⟨u,hu,hrun⟩ := hs.task hi
    rw [ht] at hu
    cases hu
    rw [hrun] at hend
    cases hend
  · exact h.task ht₁

theorem TasksAfter.woken {w : ℕ} {u : Task} (h : TasksAfter k r k₁.tasks) (hu : k.tasks[w]? = some u)
    (hw : k.current ≠ some w) (hlive : u.state.terminal = false) :
    TasksAfter k r (k₁.modifyTask w (Task.setState .ready)).tasks := by
  refine ⟨(List.length_modify ..).trans h.length,fun {j t'} ht' => ?_⟩
  obtain ⟨t₁,ht₁,⟨rfl,rfl⟩ | ⟨-,rfl⟩⟩ := getElem?_modifyTask ht'
  · obtain ⟨t,ht,hafter⟩ := h.task ht₁
    rw [hu] at ht
    cases ht
    refine ⟨u,hu,hafter.seat,fun hend => ?_,hafter.saved,fun hc => absurd hc hw,
      fun _ _ hs => by cases hs⟩
    rw [hlive] at hend
    cases hend
  · exact h.task ht₁

theorem TasksAfter.resumed {next : ℕ} {root : Frame} (h : TasksAfter k r k₁.tasks)
    (ht : k₁.tasks[next]? = some t) (hready : t.state = .ready) :
    TasksAfter k r (k₁.resumed next t root).tasks := by
  refine ⟨(List.length_modify ..).trans h.length,fun {j t'} ht' => ?_⟩
  obtain ⟨t₁,ht₁,⟨rfl,rfl⟩ | ⟨-,rfl⟩⟩ := getElem?_modifyTask (f := Task.setState .running) ht'
  · rw [ht] at ht₁
    cases ht₁
    obtain ⟨u,hu,hafter⟩ := h.task ht
    refine ⟨u,hu,hafter.seat,fun hend => ?_,hafter.saved,fun _ => Or.inl rfl,
      fun _ _ hs => by cases hs⟩
    have hterm := hafter.ended hend
    rw [hready] at hterm
    cases hterm
  · exact h.task ht₁

theorem TasksAfter.selected (h : TasksAfter k r k₁.tasks) (hsel : Selects k₁ start c k') :
    TasksAfter k r k'.tasks := by
  cases hsel with
  | resume _ ht hready _ => exact h.resumed ht hready
  | main _ => exact h

theorem TasksAfter.not_ready (h : TasksAfter k none k₁.tasks) (hc : k.current = some i)
    (ht : k₁.tasks[i]? = some t) : t.state ≠ .ready := by
  intro hready
  obtain ⟨t₀,-,hafter⟩ := h.task ht
  rcases hafter.left hc with hs | hs | hs
  · rw [hready] at hs
    cases hs
  · rw [hready] at hs
    cases hs
  · cases hs

theorem Starts.tasksAfter {bootRsp : ℕ} {c : Option Control} (hs : k.Scheduled)
    (h : Starts k bootRsp c k') : TasksAfter k r k'.tasks := by
  cases h with
  | nothing _ => exact .refl hs
  | @first next t root _ ht hready _ => exact @TasksAfter.resumed k k t r next root (.refl hs) ht hready

theorem Exits.tasksAfter (hs : k.Scheduled) (hi : k.current = some i) (hf : Ends f)
    (hseat : ∀ t, (f t).seat = t.seat) (h : Exits B k i f pid P exit k') :
    TasksAfter k r k'.tasks := by
  have hend : TasksAfter k r (k.modifyTask i f).tasks := by
    refine TasksAfter.left (.refl hs) hs hi fun t _ => ⟨hseat t,Or.inl ?_⟩
    rcases hf.state t with hc | hc <;> rw [hc] <;> rfl
  cases h with
  | alone _ => exact hend
  | @woken w u _ _ _ _ hu hwi hstate _ _ _ _ =>
    refine hend.woken hu (fun hc => hwi ?_) (by rw [hstate]; rfl)
    rw [hi] at hc
    exact (Option.some.inj hc).symm

theorem Finishes.tasksAfter (hs : k.Scheduled) (hi : k.current = some i) (hf : Ends f)
    (hseat : ∀ t, (f t).seat = t.seat) (h : Finishes B k i f exit k') : TasksAfter k r k'.tasks := by
  cases h with
  | kernel _ _ =>
    refine TasksAfter.left (.refl hs) hs hi fun t _ => ⟨hseat t,Or.inl ?_⟩
    rcases hf.state t with hc | hc <;> rw [hc] <;> rfl
  | user _ _ _ hx => exact hx.tasksAfter hs hi hf hseat

theorem TasksAfter.saved (hs : k.Scheduled) (hi : k.current = some i) (rsp : ℕ) :
    TasksAfter k (some rsp) (k.modifyTask i (Task.setSavedRsp rsp)).tasks :=
  TasksAfter.left (.refl hs) hs hi fun _ _ => ⟨rfl,Or.inr rfl⟩

theorem TasksAfter.suspended (hs : k.Scheduled) (hi : k.current = some i) (rsp : ℕ) (state : TaskState) :
    TasksAfter k (some rsp)
      ((k.modifyTask i (Task.setSavedRsp rsp)).modifyTask i (Task.setState state)).tasks := by
  refine (TasksAfter.saved hs hi rsp).left hs hi fun t₁ ht₁ => ⟨rfl,Or.inr ?_⟩
  obtain ⟨t,-,⟨-,rfl⟩ | ⟨hc,-⟩⟩ := getElem?_modifyTask ht₁
  · rfl
  · exact absurd rfl hc

theorem Switches.tasksAfter (hs : k.Scheduled) (h : Switches k rsp c k') :
    TasksAfter k (some rsp) k'.tasks := by
  cases h with
  | idle _ => exact .refl hs
  | stay hi _ => exact .saved hs hi rsp
  | @switch i next t root hi _ ht hready hne _ =>
    refine (TasksAfter.suspended hs hi rsp .ready).resumed ?_ hready
    rw [modifyTask_of_ne hne,modifyTask_of_ne hne]
    exact ht

theorem WaitResult.tasksAfter {child : ProcessId} {statusPtr : Option VirtAddr} {options : ℕ}
    (hs : k.Scheduled) (hi : k.current = some i)
    (h : WaitResult B k i rsp pid P child statusPtr options c k') : TasksAfter k (some rsp) k'.tasks := by
  cases h with
  | refused _ => exact .refl hs
  | running _ _ _ _ _ => exact .refl hs
  | reaped _ _ _ _ _ => exact .saved hs hi rsp
  | blocked _ _ _ _ _ hsel => exact (TasksAfter.suspended hs hi rsp _).selected hsel

theorem TasksAfter.congr {tasks : List Task} (h : TasksAfter k₁ r tasks) (ht : k₁.tasks = k.tasks)
    (hc : k₁.current = k.current) : TasksAfter k r tasks := by
  refine ⟨h.length.trans (by rw [ht]),fun {j t'} ht' => ?_⟩
  obtain ⟨t,hget,hafter⟩ := h.task ht'
  exact ⟨t,ht ▸ hget,hafter.seat,hafter.ended,hc ▸ hafter.saved,hc ▸ hafter.left,hc ▸ hafter.waits⟩

theorem Switches.tasksAfter_setRax (hs : k.Scheduled) {value : UInt64}
    (h : Switches (k.setRax rsp value) rsp c k') : TasksAfter k (some rsp) k'.tasks :=
  (Switches.tasksAfter (scheduled_setRax hs rsp value) h).congr rfl rfl

theorem UserDispatch.tasksAfter {inits : List UserTaskInit} {frame : TrapFrame} (hs : k.Scheduled)
    (hi : k.current = some i) (h : Syscall.UserDispatch B inits k i pid P rsp frame c k') :
    TasksAfter k (some rsp) k'.tasks := by
  cases h with
  | @returned _ _ k' _ he =>
    have hrest : k'.tasks = k.tasks := by rw [he.rest]
    change TasksAfter k _ k'.tasks
    rw [hrest]
    exact .refl hs
  | unknown _ => exact .refl hs
  | yielded _ hsw => exact hsw.tasksAfter_setRax hs
  | exited _ hfin hsel =>
    exact (hfin.tasksAfter hs hi (Syscall.exitTask_ends rsp frame) fun _ => rfl).selected hsel
  | waited _ _ hw => exact hw.tasksAfter hs hi

theorem KernelDispatch.tasksAfter {frame : TrapFrame} (hs : k.Scheduled) (hi : k.current = some i)
    (h : Syscall.KernelDispatch B k i rsp frame c k') : TasksAfter k (some rsp) k'.tasks := by
  cases h with
  | returned _ _ _ _ => exact .refl hs
  | yielded _ hsw => exact hsw.tasksAfter_setRax hs
  | exited _ hfin hsel =>
    exact (hfin.tasksAfter hs hi (Syscall.exitTask_ends rsp frame) fun _ => rfl).selected hsel

end Kernel

inductive Seats (s : System) : Action → Output → System → Prop where
  | same {a : Action} {o : Output} {s' : System} :
      TasksAfter s.kernel (a.frame?.map Prod.fst) s'.kernel.tasks → Seats s a o s'
  | kernel {entry : TaskEntry} {rflags : UInt64} {stack : ℕ} {o : Output} {s' : System} :
      s'.kernel.tasks = s.kernel.tasks ++ [Task.newKernel s.kernel.tasks.length entry stack] →
      s'.kernel.processes = s.kernel.processes → Seats s (.spawn entry rflags stack) o s'
  | user {parent : Option ProcessId} {index : ℕ} {rflags : UInt64} {stack : ℕ} {init : UserTaskInit}
      {handle : UserProcessHandle} {s' : System} : s.inits[index]? = some init →
      SpawnsUser s.kernel parent init stack handle s'.kernel →
      Seats s (.spawnUser parent index rflags stack) (.process (.ok handle)) s'

theorem Performs.seats {B : BootMemory} {s s' : System} {a : Action} {o : Output} (h : Stable B s)
    (hp : Performs B s a o s') : Seats s a o s' := by
  have hsame : ∀ {r}, TasksAfter s.kernel r s.kernel.tasks := .refl h.scheduled
  have htrap : ∀ {rsp frame r tasks}, TasksAfter (s.kernel.trap rsp frame) r tasks →
      TasksAfter s.kernel r tasks := fun ht => ht.congr rfl rfl
  cases hp with
  | spawned hspawn =>
    cases hspawn with
    | intro _ => exact .kernel rfl rfl
  | processSpawned hinit hspawn => exact .user hinit hspawn
  | @processRefused _ _ _ _ _ k' hfail =>
    obtain rfl := hfail.same
    exact .same hsame
  | started _ hstart => exact .same (hstart.tasksAfter h.scheduled)
  | timer hsw => exact .same (htrap (hsw.tasksAfter (h.scheduled.trap _ _)))
  | yielded hsw => exact .same (htrap (hsw.tasksAfter (h.scheduled.trap _ _)))
  | userCall hcaller hd =>
    exact .same (htrap (UserDispatch.tasksAfter (h.scheduled.trap _ _) hcaller.current hd))
  | kernelCall hcur _ _ hd =>
    exact .same (htrap (KernelDispatch.tasksAfter (h.scheduled.trap _ _) hcur hd))
  | @faulted rsp frame info i k₁ c k' hcur hfin hsel =>
    exact .same (htrap ((hfin.tasksAfter (h.scheduled.trap _ _) hcur (faultTask_ends rsp info)
      fun _ => rfl).selected hsel))
  | kernelReturned hcur ht hp hsel =>
    have hfin : Finishes B s.kernel _ (Task.setState .finished) .faulted _ := .kernel ht hp
    exact .same ((hfin.tasksAfter h.scheduled hcur setState_ends fun _ => rfl).selected hsel)
  | _ => exact .same hsame

end VladOs
