import VladOs.Kernel.HandOver

namespace VladOs

open Code ProcessTable Kernel Transition

def OnStack (t : Task) (rsp : ℕ) : Prop :=
  t.kernelStack ≤ rsp ∧ rsp + TRAP_FRAME_SIZE ≤ t.kernelStack + TASK_STACK_SIZE

def Apart (a b size : ℕ) : Prop := a + size ≤ b ∨ b + size ≤ a

structure Stacks (s : System) : Prop where
  top : ∀ {i : ℕ} {t : Task}, s.kernel.tasks[i]? = some t → t.kernelStackTop = Task.stackTop t.kernelStack
  apart : ∀ {i j : ℕ} {t u : Task}, s.kernel.tasks[i]? = some t → s.kernel.tasks[j]? = some u → i ≠ j →
    Apart t.kernelStack u.kernelStack TASK_STACK_SIZE
  saved : ∀ {i : ℕ} {t : Task}, s.kernel.tasks[i]? = some t → t.state.terminal = false →
    s.kernel.current ≠ some i → OnStack t t.savedRsp

section

variable {B : BootMemory} {s s' : System} {a : Action} {o : Output} {i j rsp : ℕ} {t u : Task}
  {frame : TrapFrame}

theorem onStack_initialFrame (t : Task) : OnStack t t.initialFrame := by
  unfold OnStack Task.initialFrame
  split
  · unfold Task.kernelFrameBottom Task.stackTop alignDown TRAP_FRAME_SIZE TASK_STACK_SIZE
    omega
  · unfold Task.userFrameBottom Task.stackTop alignDown TRAP_FRAME_SIZE TASK_STACK_SIZE
    omega

theorem Action.frameOn (hen : Enabled s a) (ha : a.frame? = some (rsp,frame)) :
    ∃ size, TRAP_FRAME_SIZE ≤ size ∧ size ≤ TRAP_FRAME_WITH_ERROR_CODE_SIZE ∧
      VladOs.frameOn s.kernel rsp size := by
  cases a with
  | timer _ _ =>
    cases ha
    exact ⟨_,le_refl _,by decide,hen⟩
  | yield _ _ =>
    cases ha
    exact ⟨_,le_refl _,by decide,hen⟩
  | syscall _ _ =>
    cases ha
    exact ⟨_,le_refl _,by decide,hen.2⟩
  | fault _ _ _ =>
    cases ha
    exact ⟨_,by decide,le_refl _,hen.2⟩
  | _ => cases ha

theorem Stacks.pushed (h : Stacks s) (hst : Stable B s) (hen : Enabled s a)
    (ha : a.frame? = some (rsp,frame)) (hcur : s.kernel.current = some i)
    (ht : s.kernel.tasks[i]? = some t) : OnStack t rsp := by
  obtain ⟨size,hle,hge,hon⟩ := Action.frameOn hen ha
  have htask : s.kernel.currentTask = some t := by
    rw [currentTask,hcur,Option.bind_some,ht]
  unfold VladOs.frameOn at hon
  simp only [htask] at hon
  cases hp : t.processId with
  | none =>
    simp only [hp] at hon
    exact ⟨hon.1,le_trans (Nat.add_le_add_left hle _) hon.2⟩
  | some pid =>
    simp only [hp] at hon
    rw [(hst.scheduled.loaded hcur ht).2,h.top ht] at hon
    unfold Task.stackTop alignDown TASK_STACK_SIZE at hon
    unfold OnStack TRAP_FRAME_SIZE TASK_STACK_SIZE
    unfold TRAP_FRAME_SIZE at hle
    unfold TRAP_FRAME_WITH_ERROR_CODE_SIZE at hge
    omega

theorem Stacks.push_apart (h : Stacks s) (hst : Stable B s) (hen : Enabled s a)
    (ha : a.frame? = some (rsp,frame)) (hu : s.kernel.tasks[j]? = some u)
    (hlive : u.state.terminal = false) (hj : s.kernel.current ≠ some j) :
    Apart rsp u.savedRsp TRAP_FRAME_SIZE := by
  obtain ⟨hlow,hhigh⟩ := h.saved hu hlive hj
  cases hcur : s.kernel.current with
  | none =>
    obtain ⟨size,hle,-,hon⟩ := Action.frameOn hen ha
    have htask : s.kernel.currentTask = none := by
      rw [currentTask,hcur,Option.bind_none]
    unfold VladOs.frameOn at hon
    simp only [htask] at hon
    rcases hon u (List.mem_of_getElem? hu) with hc | hc
    · exact Or.inl (le_trans (Nat.add_le_add_left hle _) (le_trans hc hlow))
    · exact Or.inr (le_trans hhigh hc)
  | some i =>
    obtain ⟨t,ht,-⟩ := hst.scheduled.task hcur
    obtain ⟨hlow',hhigh'⟩ := h.pushed hst hen ha hcur ht
    have hne : i ≠ j := by
      rintro rfl
      exact hj hcur
    rcases h.apart ht hu hne with hc | hc
    · exact Or.inl (le_trans hhigh' (le_trans hc hlow))
    · exact Or.inr (le_trans hhigh (le_trans hc hlow'))

theorem Stacks.saved_apart (h : Stacks s) (ht : s.kernel.tasks[i]? = some t)
    (hu : s.kernel.tasks[j]? = some u) (hij : i ≠ j) (hlive : t.state.terminal = false)
    (hlive' : u.state.terminal = false) (hi : s.kernel.current ≠ some i)
    (hj : s.kernel.current ≠ some j) : Apart t.savedRsp u.savedRsp TRAP_FRAME_SIZE := by
  obtain ⟨hlow,hhigh⟩ := h.saved ht hlive hi
  obtain ⟨hlow',hhigh'⟩ := h.saved hu hlive' hj
  rcases h.apart ht hu hij with hc | hc
  · exact Or.inl (le_trans hhigh (le_trans hc hlow'))
  · exact Or.inr (le_trans hhigh' (le_trans hc hlow))

theorem Stacks.same (h : Stacks s) (hst : Stable B s) (hst' : Stable B s') (hen : Enabled s a)
    (hafter : TasksAfter s.kernel (a.frame?.map Prod.fst) s'.kernel.tasks) : Stacks s' := by
  refine ⟨fun {i t'} ht' => ?_,fun {i j t' u'} ht' hu' hij => ?_,fun {i t'} ht' hlive hcur' => ?_⟩
  · obtain ⟨t,ht,hsame⟩ := hafter.task ht'
    rw [hsame.top,hsame.stack]
    exact h.top ht
  · obtain ⟨t,ht,hsame⟩ := hafter.task ht'
    obtain ⟨u,hu,hsame'⟩ := hafter.task hu'
    rw [hsame.stack,hsame'.stack]
    exact h.apart ht hu hij
  · obtain ⟨t,ht,hsame⟩ := hafter.task ht'
    unfold OnStack
    rw [hsame.stack]
    by_cases hcur : s.kernel.current = some i
    · rcases hsame.left hcur with hs | hs | hs
      · exact absurd ((hst'.current_iff ht').mpr hs) hcur'
      · rw [hs] at hlive
        cases hlive
      · obtain ⟨⟨rsp,frame⟩,hframe,hrsp⟩ := Option.map_eq_some_iff.mp hs
        rw [← hrsp]
        exact h.pushed hst hen hframe hcur ht
    · rw [hsame.saved hcur]
      exact h.saved ht (hsame.live hlive) hcur

theorem Stacks.spawned (h : Stacks s) (hst : Stable B s) (hst' : Stable B s') {stack : ℕ} {new : Task}
    (htasks : s'.kernel.tasks = s.kernel.tasks ++ [new]) (hfree : stackFree s.kernel stack)
    (hstack : new.kernelStack = stack) (htop : new.kernelStackTop = Task.stackTop stack)
    (hsaved : new.savedRsp = new.initialFrame) : Stacks s' := by
  have hcase : ∀ {i t}, s'.kernel.tasks[i]? = some t →
      s.kernel.tasks[i]? = some t ∧ i < s.kernel.tasks.length ∨ i = s.kernel.tasks.length ∧ t = new := by
    intro i t ht
    rw [htasks] at ht
    exact TaskTable.getElem?_snoc ht
  have hnew : ∀ {i : ℕ} {t : Task}, s.kernel.tasks[i]? = some t →
      Apart t.kernelStack new.kernelStack TASK_STACK_SIZE := by
    intro i t ht
    rw [hstack]
    exact (hfree.2.2 t (List.mem_of_getElem? ht)).symm
  refine ⟨fun {i t} ht => ?_,fun {i j t u} ht hu hij => ?_,fun {i t} ht hlive hcur' => ?_⟩
  · rcases hcase ht with ⟨hold,-⟩ | ⟨-,rfl⟩
    · exact h.top hold
    · rw [htop,hstack]
  · rcases hcase ht with ⟨hold,-⟩ | ⟨rfl,rfl⟩
    · rcases hcase hu with ⟨hold',-⟩ | ⟨-,rfl⟩
      · exact h.apart hold hold' hij
      · exact hnew hold
    · rcases hcase hu with ⟨hold',-⟩ | ⟨rfl,-⟩
      · exact (hnew hold').symm
      · exact absurd rfl hij
  · rcases hcase ht with ⟨hold,-⟩ | ⟨-,rfl⟩
    · refine h.saved hold hlive fun hcur => hcur' ?_
      exact (hst'.current_iff ht).mpr ((hst.current_iff hold).mp hcur)
    · rw [hsaved]
      exact onStack_initialFrame _

theorem Stacks.next (h : Stacks s) (hst : Stable B s) (hen : Enabled s a) (hp : Performs B s a o s') :
    Stacks s' := by
  have hst' := hp.stable hst
  cases hp.seats hst with
  | same hafter => exact h.same hst hst' hen hafter
  | kernel htasks _ => exact h.spawned hst hst' htasks hen rfl rfl rfl
  | @user parent index rflags stack init handle _ _ hspawn =>
    have htasks : ∃ new : Task, s'.kernel.tasks = s.kernel.tasks ++ [new] ∧ new.kernelStack = stack ∧
        new.kernelStackTop = Task.stackTop stack ∧ new.savedRsp = new.initialFrame := by
      generalize s'.kernel = k' at hspawn
      cases hspawn with
      | intro _ _ _ => exact ⟨_,rfl,rfl,rfl,rfl⟩
    obtain ⟨new,htasks,hstack,htop,hsaved⟩ := htasks
    exact h.spawned hst hst' htasks hen.2 hstack htop hsaved

theorem Run.stacks {B : Boot} {P : Platform} {trace : List Event} (h : Run P B trace s) : Stacks s := by
  refine Runs.trace_invariant (I := fun _ s => Stacks s) h ?_ ?_
  · rintro _ rfl
    exact ⟨fun ht => by simp [Boot.system] at ht,fun ht => by simp [Boot.system] at ht,
      fun ht => by simp [Boot.system] at ht⟩
  · rintro trace s ⟨a,o⟩ s' hrun hs hstep
    have hr : Run P B trace s := hrun
    exact hs.next hr.stable hstep.1 (hr.stable.performs hstep)

end

end VladOs
