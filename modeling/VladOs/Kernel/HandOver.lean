import VladOs.Kernel.Seats
import VladOs.Kernel.History
import VladOs.Kernel.Wakeup

namespace VladOs

open Code ProcessTable Kernel Transition

inductive Handed (k : Kernel) (rsp : Option ℕ) : Output → Kernel → Prop where
  | kept {o : Output} {k' : Kernel} : k'.current = k.current →
      k'.currentLevel4Frame = k.currentLevel4Frame →
      (∀ {c}, o = .control c → rsp.map Control.resume = some c) → Handed k rsp o k'
  | switched {i : ℕ} {t : Task} {k' : Kernel} : k.current ≠ some i → k'.current = some i →
      k'.currentLevel4Frame = some (k'.cr3 * PAGE_SIZE) → k'.tasks[i]? = some t →
      Handed k rsp (.control (.resume t.savedRsp)) k'
  | main {m : ℕ} {k' : Kernel} : k'.current = none → Handed k rsp (.control (.restoreMain m)) k'

section

variable {B : BootMemory} {k k₁ k' : Kernel} {i rsp : ℕ} {t : Task} {c : Control} {f : Task → Task}
  {pid : ProcessId} {P : Process} {exit : ProcessExit} {r : Option ℕ}

theorem handed_resumed {next : ℕ} {root : Frame} (hne : k.current ≠ some next)
    (ht : k₁.tasks[next]? = some t) :
    Handed k r (.control (.resume t.savedRsp)) (k₁.resumed next t root) :=
  .switched (t := t.setState .running) hne rfl rfl (modifyTask_self ht (Task.setState .running))

theorem Kernel.Selects.handed {start : ℕ} (h : Selects k₁ start c k')
    (hleft : ∀ {i t}, k.current = some i → k₁.tasks[i]? = some t → t.state ≠ .ready) :
    Handed k r (.control c) k' := by
  cases h with
  | resume _ ht hready _ => exact handed_resumed (fun hc => hleft hc ht hready) ht
  | main _ => exact .main rfl

theorem Kernel.Switches.handed (h : Switches k rsp c k') : Handed k (some rsp) (.control c) k' := by
  cases h with
  | idle _ => exact .kept rfl rfl fun hr => by cases hr; rfl
  | stay _ _ => exact .kept rfl rfl fun hr => by cases hr; rfl
  | @switch i next t root hi _ ht _ hne _ =>
    refine handed_resumed (fun hc => hne ?_) ?_
    · rw [hi] at hc
      exact (Option.some.inj hc).symm
    · rw [modifyTask_of_ne hne,modifyTask_of_ne hne]
      exact ht

theorem Kernel.Finishes.handed (hs : k.Scheduled) (hi : k.current = some i) (hf : Ends f)
    (hseat : ∀ t, (f t).seat = t.seat) (h : Finishes B k i f exit k₁) (hsel : Selects k₁ i c k') :
    Handed k r (.control c) k' :=
  hsel.handed fun hc ht => (h.tasksAfter hs hi hf hseat).not_ready hc ht

theorem Kernel.WaitResult.handed {child : ProcessId} {statusPtr : Option VirtAddr} {options : ℕ}
    (hi : k.current = some i) (h : WaitResult B k i rsp pid P child statusPtr options c k') :
    Handed k (some rsp) (.control c) k' := by
  cases h with
  | refused _ => exact .kept rfl rfl fun hr => by cases hr; rfl
  | running _ _ _ _ _ => exact .kept rfl rfl fun hr => by cases hr; rfl
  | reaped _ _ _ _ _ => exact .kept rfl rfl fun hr => by cases hr; rfl
  | blocked _ _ _ _ _ hsel =>
    refine hsel.handed fun {j t} hc ht hready => ?_
    cases hi.symm.trans hc
    obtain ⟨u,-,⟨-,rfl⟩ | ⟨hne,-⟩⟩ := getElem?_modifyTask ht
    · cases hready
    · exact hne rfl

theorem Handed.congr {o : Output} (h : Handed k₁ r o k') (hc : k₁.current = k.current)
    (hl : k₁.currentLevel4Frame = k.currentLevel4Frame) : Handed k r o k' := by
  cases h with
  | kept hcur hlevel hr => exact .kept (hcur.trans hc) (hlevel.trans hl) hr
  | switched hne hcur hlevel ht => exact .switched (hc ▸ hne) hcur hlevel ht
  | main hcur => exact .main hcur

theorem Handed.stays {o : Output} (h : Handed k r o k') (hcur : k.current = some i)
    (hcur' : k'.current = some i) (ho : o = .control (.resume rsp)) : r = some rsp := by
  cases h with
  | kept _ _ hr =>
    obtain ⟨x,hx,hcontrol⟩ := Option.map_eq_some_iff.mp (hr ho)
    cases hcontrol
    exact hx
  | switched hne hj _ _ =>
    cases hcur'.symm.trans hj
    exact absurd hcur hne
  | main _ => cases ho

theorem Handed.moves {o : Output} (h : Handed k r o k') (hcur : k.current ≠ some i)
    (hcur' : k'.current = some i) (ht : k'.tasks[i]? = some t) (ho : o = .control (.resume rsp)) :
    rsp = t.savedRsp := by
  cases h with
  | kept hkept _ _ => exact absurd (hkept.symm.trans hcur') hcur
  | switched _ hj _ hu =>
    cases hcur'.symm.trans hj
    cases ht.symm.trans hu
    cases ho
    rfl
  | main _ => cases ho

theorem UserDispatch.handed {inits : List UserTaskInit} {frame : TrapFrame} (hs : k.Scheduled)
    (hi : k.current = some i) (h : Syscall.UserDispatch B inits k i pid P rsp frame c k') :
    Handed k (some rsp) (.control c) k' := by
  cases h with
  | @returned _ _ k' _ he =>
    have hrest := he.rest
    refine .kept ?_ ?_ fun hr => by cases hr; rfl
    · change k'.current = k.current
      rw [hrest]
    · change k'.currentLevel4Frame = k.currentLevel4Frame
      rw [hrest]
  | unknown _ => exact .kept rfl rfl fun hr => by cases hr; rfl
  | yielded _ hsw => exact hsw.handed.congr rfl rfl
  | exited _ hfin hsel => exact hfin.handed hs hi (Syscall.exitTask_ends rsp frame) (fun _ => rfl) hsel
  | waited _ _ hw => exact hw.handed hi

theorem KernelDispatch.handed {frame : TrapFrame} (hs : k.Scheduled) (hi : k.current = some i)
    (h : Syscall.KernelDispatch B k i rsp frame c k') : Handed k (some rsp) (.control c) k' := by
  cases h with
  | returned _ _ _ _ => exact .kept rfl rfl fun hr => by cases hr; rfl
  | yielded _ hsw => exact hsw.handed.congr rfl rfl
  | exited _ hfin hsel => exact hfin.handed hs hi (Syscall.exitTask_ends rsp frame) (fun _ => rfl) hsel

end

section

variable {B : BootMemory} {s s' : System} {a : Action} {o : Output}

theorem Performs.handed (h : Stable B s) (hp : Performs B s a o s') :
    Handed s.kernel (a.frame?.map Prod.fst) o s'.kernel := by
  have htrap : ∀ {rsp frame r o k'}, Handed (s.kernel.trap rsp frame) r o k' → Handed s.kernel r o k' :=
    fun hh => hh.congr rfl rfl
  cases hp with
  | spawned hspawn =>
    cases hspawn with
    | intro _ => exact .kept rfl rfl fun hr => by cases hr
  | processSpawned _ hspawn =>
    cases hspawn with
    | intro _ _ _ => exact .kept rfl rfl fun hr => by cases hr
  | @processRefused _ _ _ _ _ k' hfail =>
    obtain rfl := hfail.same
    exact .kept rfl rfl fun hr => by cases hr
  | started hidle hstart =>
    cases hstart with
    | nothing _ => exact .kept rfl rfl fun hr => by cases hr
    | @first next t root _ ht _ _ =>
      exact .switched (t := t.setState .running) (by rw [hidle]; simp) rfl rfl
        (modifyTask_self ht (Task.setState .running))
  | timerIgnored => exact .kept rfl rfl fun hr => by cases hr; rfl
  | timer hsw => exact htrap hsw.handed
  | yielded hsw => exact htrap hsw.handed
  | userCall hcaller hd =>
    exact htrap (UserDispatch.handed (h.scheduled.trap _ _) hcaller.current hd)
  | kernelCall hcur _ _ hd => exact htrap (KernelDispatch.handed (h.scheduled.trap _ _) hcur hd)
  | @faulted rsp frame info i k₁ c k' hcur hfin hsel =>
    exact htrap (hfin.handed (h.scheduled.trap _ _) hcur (faultTask_ends rsp info) (fun _ => rfl) hsel)
  | kernelReturned hcur ht hp hsel =>
    have hfin : Finishes B s.kernel _ (Task.setState .finished) .faulted _ := .kernel ht hp
    exact hfin.handed h.scheduled hcur setState_ends (fun _ => rfl) hsel
  | _ => exact .kept rfl rfl fun hr => by cases hr

end

def Task.initialFrame (t : Task) : ℕ :=
  match t.processId with
  | none => Task.kernelFrameBottom t.kernelStack
  | some _ => Task.userFrameBottom t.kernelStack

inductive LastFrame (P : Platform) (B : Boot) (i : ℕ) : List Event → System → ℕ → Prop where
  | created {trace : List Event} {s s' : System} {e : Event} {t : Task} : Run P B trace s → Step P s e s' →
      s.kernel.tasks[i]? = none → s'.kernel.tasks[i]? = some t →
      LastFrame P B i (e :: trace) s' t.initialFrame
  | left {trace : List Event} {s s' : System} {e : Event} {rsp : ℕ} {frame : TrapFrame} :
      Run P B trace s → Step P s e s' → s.kernel.current = some i → s'.kernel.current ≠ some i →
      e.1.frame? = some (rsp,frame) → LastFrame P B i (e :: trace) s' rsp
  | kept {trace : List Event} {s s' : System} {e : Event} {rsp : ℕ} : LastFrame P B i trace s rsp →
      Step P s e s' → ¬ (s.kernel.current = some i ∧ s'.kernel.current ≠ some i) →
      LastFrame P B i (e :: trace) s' rsp

section

variable {B : Boot} {P : Platform} {trace : List Event} {s s' : System}

theorem Stable.current_iff {B : BootMemory} {i : ℕ} {t : Task} (h : Stable B s)
    (ht : s.kernel.tasks[i]? = some t) : s.kernel.current = some i ↔ t.state = .running := by
  rw [h.scheduled.current,StateAt,ht]
  simp

theorem Seats.grows {a : Action} {o : Output} (h : Seats s a o s') :
    TasksAfter s.kernel (a.frame?.map Prod.fst) s'.kernel.tasks ∨
      ∃ new, s'.kernel.tasks = s.kernel.tasks ++ [new] ∧ new.state = .ready ∧
        new.savedRsp = new.initialFrame := by
  cases h with
  | same hafter => exact Or.inl hafter
  | kernel htasks _ => exact Or.inr ⟨_,htasks,rfl,rfl⟩
  | user _ hspawn =>
    generalize s'.kernel = k' at hspawn
    cases hspawn with
    | intro _ _ _ => exact Or.inr ⟨_,rfl,rfl,rfl⟩

theorem Seats.length_le {a : Action} {o : Output} (h : Seats s a o s') :
    s.kernel.tasks.length ≤ s'.kernel.tasks.length := by
  rcases h.grows with hafter | ⟨new,htasks,-⟩
  · exact hafter.length.ge
  · rw [htasks,List.length_append]
    exact Nat.le_add_right _ _

theorem Seats.initial {a : Action} {o : Output} {i : ℕ} {t : Task} (h : Seats s a o s')
    (hnone : s.kernel.tasks[i]? = none) (ht : s'.kernel.tasks[i]? = some t) :
    t.savedRsp = t.initialFrame := by
  rcases h.grows with hafter | ⟨new,htasks,-,hsaved⟩
  · obtain ⟨t₀,ht₀,-⟩ := hafter.task ht
    cases hnone.symm.trans ht₀
  · rw [htasks] at ht
    rcases TaskTable.getElem?_snoc ht with ⟨hold,-⟩ | ⟨-,rfl⟩
    · cases hnone.symm.trans hold
    · exact hsaved

theorem Seats.known {a : Action} {o : Output} {i : ℕ} {t t' : Task} (h : Seats s a o s')
    (ht : s.kernel.tasks[i]? = some t) (ht' : s'.kernel.tasks[i]? = some t') :
    t' = t ∨ TaskAfter s.kernel (a.frame?.map Prod.fst) i t t' := by
  rcases h.grows with hafter | ⟨new,htasks,-⟩
  · obtain ⟨t₀,ht₀,hsame⟩ := hafter.task ht'
    cases ht.symm.trans ht₀
    exact Or.inr hsame
  · rw [htasks,List.getElem?_append_left (List.getElem?_eq_some_iff.mp ht).1,ht] at ht'
    exact Or.inl (Option.some.inj ht').symm

theorem Run.lastFrame (h : Run P B trace s) : ∀ {i : ℕ} {t : Task}, s.kernel.tasks[i]? = some t →
    t.state.terminal = false → s.kernel.current ≠ some i → LastFrame P B i trace s t.savedRsp := by
  refine Runs.trace_invariant (I := fun trace s => ∀ {i : ℕ} {t : Task}, s.kernel.tasks[i]? = some t →
    t.state.terminal = false → s.kernel.current ≠ some i → LastFrame P B i trace s t.savedRsp) h ?_ ?_
  · rintro _ rfl i t ht
    simp [Boot.system] at ht
  · rintro trace s ⟨a,o⟩ s' hrun ih hstep i t' ht' hlive hcur'
    have hr : Run P B trace s := hrun
    have hst := hr.stable
    have hp := hst.performs hstep
    have hseats := hp.seats hst
    have hnotRunning : t'.state ≠ .running := fun hs => hcur' (((hp.stable hst).current_iff ht').mpr hs)
    cases ht : s.kernel.tasks[i]? with
    | none =>
      rw [hseats.initial ht ht']
      exact .created hrun hstep ht ht'
    | some t =>
      rcases hseats.known ht ht' with rfl | hafter
      · have hcur : s.kernel.current ≠ some i := fun hc => hnotRunning ((hst.current_iff ht).mp hc)
        exact .kept (ih ht hlive hcur) hstep fun hc => hcur hc.1
      · by_cases hcur : s.kernel.current = some i
        · rcases hafter.left hcur with hs | hs | hs
          · exact absurd hs hnotRunning
          · rw [hs] at hlive
            cases hlive
          · obtain ⟨⟨rsp,frame⟩,hframe,rfl⟩ := Option.map_eq_some_iff.mp hs
            exact .left hrun hstep hcur hcur' hframe
        · rw [hafter.saved hcur]
          exact .kept (ih ht (hafter.live hlive) hcur) hstep fun hc => hcur hc.1

theorem Run.primed (h : Run P B trace s) : s.kernel.current ≠ none →
    s.kernel.currentLevel4Frame = some (s.kernel.cr3 * PAGE_SIZE) := by
  have hsome : s.kernel.current ≠ none → s.kernel.currentLevel4Frame ≠ none := by
    refine Runs.trace_invariant (I := fun _ s => s.kernel.current ≠ none →
      s.kernel.currentLevel4Frame ≠ none) h ?_ ?_
    · rintro _ rfl hc
      exact absurd rfl hc
    · rintro trace s ⟨a,o⟩ s' hrun ih hstep
      have hr : Run P B trace s := hrun
      generalize hk : s'.kernel = k'
      cases hk ▸ (hr.stable.performs hstep).handed hr.stable with
      | kept hcur hlevel _ =>
        rw [hcur,hlevel]
        exact ih
      | switched _ _ hlevel _ =>
        rw [hlevel]
        exact fun _ => by simp
      | main hcur => exact fun hc => absurd hcur hc
  intro hcur
  obtain ⟨x,hx⟩ := Option.ne_none_iff_exists'.mp (hsome hcur)
  rw [hx,h.stable.scheduled.cached x hx]

structure HandOverLaws (P : Platform) (B : Boot) (trace : List Event) (s : System) (e : Event)
    (s' : System) : Prop where
  frame : ∀ {rsp i}, e.2 = .control (.resume rsp) → s'.kernel.current = some i →
    (s.kernel.current = some i → ∃ frame, e.1.frame? = some (rsp,frame)) ∧
    (s.kernel.current ≠ some i → LastFrame P B i trace s rsp)
  loaded : ∀ {i}, s'.kernel.current = some i → ∃ t root, s'.kernel.tasks[i]? = some t ∧
    s'.kernel.rsp0 = t.kernelStackTop ∧ s'.kernel.taskRoot t = some root ∧ s'.kernel.cr3 = root ∧
    s'.kernel.currentLevel4Frame = some (s'.kernel.cr3 * PAGE_SIZE)
  main : ∀ {m}, e.2 = .control (.restoreMain m) → s'.kernel.current = none
  boot : s'.kernel.current = none → s'.kernel.cr3 = s'.kernel.memory.kernelLevel4Frame

theorem control_handed_over {e : Event} (h : Run P B trace s) (hstep : Step P s e s') :
    HandOverLaws P B trace s e s' := by
  obtain ⟨a,o⟩ := e
  have hst := h.stable
  have hp := hst.performs hstep
  have hrun' := h.after hstep
  have hst' := hrun'.stable
  have hhanded := hp.handed hst
  refine ⟨?_,?_,?_,hst'.scheduled.main⟩
  · intro rsp i ho hcur'
    generalize hk : s'.kernel = k' at hhanded
    cases hhanded with
    | kept hcur _ hr =>
      obtain ⟨r,hrsp,hcontrol⟩ := Option.map_eq_some_iff.mp (hr ho)
      cases hcontrol
      obtain ⟨⟨r,frame⟩,hframe,rfl⟩ := Option.map_eq_some_iff.mp hrsp
      rw [← hcur,← hk,hcur']
      exact ⟨fun _ => ⟨frame,hframe⟩,fun hne => absurd rfl hne⟩
    | @switched j t _ hne hcur _ ht =>
      cases ho
      subst hk
      cases hcur'.symm.trans hcur
      refine ⟨fun hc => absurd hc hne,fun _ => ?_⟩
      have hrunning := (hst'.current_iff ht).mp hcur'
      have hseats := hp.seats hst
      obtain ⟨t₀,ht₀⟩ : ∃ t₀, s.kernel.tasks[i]? = some t₀ := by
        cases hseats with
        | same hafter =>
          obtain ⟨t₀,ht₀,-⟩ := hafter.task ht
          exact ⟨t₀,ht₀⟩
        | kernel _ _ => cases hp
      rcases hseats.known ht₀ ht with rfl | hafter
      · exact absurd ((hst.current_iff ht₀).mpr hrunning) hne
      · rw [hafter.saved hne]
        exact h.lastFrame ht₀ (hafter.live (by rw [hrunning]; rfl)) hne
    | main _ => cases ho
  · intro i hcur'
    obtain ⟨t,ht,-⟩ := hst'.scheduled.task hcur'
    obtain ⟨hroot,hrsp⟩ := hst'.scheduled.loaded hcur' ht
    exact ⟨t,_,ht,hrsp,hroot,rfl,hrun'.primed (by rw [hcur']; simp)⟩
  · intro m ho
    generalize hk : s'.kernel = k' at hhanded
    cases hhanded with
    | kept _ _ hr =>
      obtain ⟨r,-,hcontrol⟩ := Option.map_eq_some_iff.mp (hr ho)
      cases hcontrol
    | switched _ _ _ _ => cases ho
    | main hcur => exact hcur

theorem control_handed_over_family : ∃ trace s e s', Run standardPlatform smallMachine trace s ∧
    Step standardPlatform s e s' ∧ s.kernel.current = some 0 ∧ s'.kernel.current = some 1 ∧
    HandOverLaws standardPlatform smallMachine trace s e s' := by
  obtain ⟨trace,s,hrun,hfamily⟩ :=
    exists_familyRunning smallMachine_roomy standardPlatform .yieldThenExit
  obtain ⟨c,s',hstep,hblocked⟩ := hfamily.blocks hrun
  exact ⟨trace,s,_,s',hrun,hstep,hfamily.current,hblocked.current,control_handed_over hrun hstep⟩

end

end VladOs
