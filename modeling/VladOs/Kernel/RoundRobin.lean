import VladOs.Kernel.HandOver

namespace VladOs

open Kernel Transition

structure NextReady (tasks : List Task) (start : ℕ) : Prop where
  none : nextReadyAfter tasks start = none ↔ ∀ t ∈ tasks, t.state ≠ .ready
  some : ∀ i, nextReadyAfter tasks start = some i ↔ (∃ t, tasks[i]? = some t ∧ t.state = .ready) ∧
    ∀ j t, tasks[j]? = some t → t.state = .ready →
      Cyclic.distance tasks.length start i ≤ Cyclic.distance tasks.length start j

inductive Picked (k k' : Kernel) : Prop where
  | kept : k'.current = k.current → Picked k k'
  | after {i : ℕ} {tasks : List Task} : k.current = some i → nextReadyAfter tasks i = k'.current →
      tasks.length = k.tasks.length →
      (∀ j, j ≠ i → k'.current ≠ some j → tasks[j]? = k'.tasks[j]?) → Picked k k'
  | first : k.current = none → firstReady k.tasks = k'.current → Picked k k'

section

variable {tasks : List Task} {start i j : ℕ} {t : Task}

theorem nextReady (tasks : List Task) (start : ℕ) : NextReady tasks start := by
  have hready : ∀ {i : ℕ}, decide ((tasks[i]?).map Task.state = some .ready) = true ↔
      ∃ t : Task, tasks[i]? = some t ∧ t.state = .ready := by
    intro i
    rw [decide_eq_true_eq,Option.map_eq_some_iff]
  refine ⟨?_,?_⟩
  · constructor
    · intro h t ht
      obtain ⟨i,hi⟩ := List.mem_iff_getElem?.mp ht
      exact nextReadyAfter_none h hi
    · intro h
      rw [nextReadyAfter_eq,Cyclic.search_eq_none]
      intro i _
      rw [decide_eq_false_iff_not,Option.map_eq_some_iff]
      rintro ⟨t,ht,hs⟩
      exact h t (List.mem_of_getElem? ht) hs
  · intro i
    rw [nextReadyAfter_eq,Cyclic.search_eq_some]
    constructor
    · rintro ⟨-,hi,hleast⟩
      refine ⟨hready.mp hi,fun j t ht hs => ?_⟩
      exact hleast j (List.getElem?_eq_some_iff.mp ht).1 (hready.mpr ⟨t,ht,hs⟩)
    · rintro ⟨⟨t,ht,hs⟩,hleast⟩
      refine ⟨(List.getElem?_eq_some_iff.mp ht).1,hready.mpr ⟨t,ht,hs⟩,fun j _ hj => ?_⟩
      obtain ⟨u,hu,hready⟩ := hready.mp hj
      exact hleast j u hu hready

end

section

variable {B : BootMemory} {k k₁ k' : Kernel} {i rsp : ℕ} {c : Control} {f : Task → Task}
  {pid : ProcessId} {P : Process} {exit : ProcessExit}

theorem resumed_getElem? {next j : ℕ} {t : Task} {root : Frame} (h : j ≠ next) :
    (k.resumed next t root).tasks[j]? = k.tasks[j]? :=
  modifyTask_of_ne h (Task.setState .running)

theorem Kernel.Selects.picked (hi : k.current = some i) (hlen : k₁.tasks.length = k.tasks.length)
    (h : Selects k₁ i c k') : Picked k k' := by
  cases h with
  | resume hnext _ _ _ =>
    refine .after hi hnext hlen fun j _ hj => (resumed_getElem? ?_).symm
    rintro rfl
    exact hj rfl
  | main hnone => exact .after hi hnone hlen fun _ _ _ => rfl

theorem Kernel.Switches.picked (h : Switches k rsp c k') : Picked k k' := by
  cases h with
  | idle _ => exact .kept rfl
  | stay _ _ => exact .kept rfl
  | @switch i next t root hi hnext _ _ _ _ =>
    refine .after hi hnext rfl fun j hij hj => ?_
    have hne : j ≠ next := by
      rintro rfl
      exact hj rfl
    rw [resumed_getElem? hne,modifyTask_of_ne hij,modifyTask_of_ne hij]

theorem Kernel.WaitResult.picked {child : ProcessId} {statusPtr : Option VirtAddr} {options : ℕ}
    (hi : k.current = some i) (h : WaitResult B k i rsp pid P child statusPtr options c k') :
    Picked k k' := by
  cases h with
  | blocked _ _ _ _ _ hsel =>
    exact hsel.picked hi ((List.length_modify ..).trans (List.length_modify ..))
  | _ => exact .kept rfl

theorem Picked.congr (h : Picked k₁ k') (hcur : k₁.current = k.current) (htasks : k₁.tasks = k.tasks) :
    Picked k k' := by
  cases h with
  | kept hc => exact .kept (hc.trans hcur)
  | after hi hnext hlen hrest => exact .after (hcur ▸ hi) hnext (htasks ▸ hlen) hrest
  | first hidle hfirst => exact .first (hcur ▸ hidle) (htasks ▸ hfirst)

theorem UserDispatch.picked {inits : List UserTaskInit} {frame : TrapFrame} (hi : k.current = some i)
    (h : Syscall.UserDispatch B inits k i pid P rsp frame c k') : Picked k k' := by
  cases h with
  | @returned _ _ k' _ he =>
    refine .kept ?_
    change k'.current = k.current
    rw [he.rest]
  | unknown _ => exact .kept rfl
  | yielded _ hsw => exact hsw.picked.congr rfl rfl
  | exited _ hfin hsel => exact hsel.picked hi hfin.length
  | waited _ _ hw => exact hw.picked hi

theorem KernelDispatch.picked {frame : TrapFrame} (hi : k.current = some i)
    (h : Syscall.KernelDispatch B k i rsp frame c k') : Picked k k' := by
  cases h with
  | returned _ _ _ _ => exact .kept rfl
  | yielded _ hsw => exact hsw.picked.congr rfl rfl
  | exited _ hfin hsel => exact hsel.picked hi hfin.length

theorem Performs.picked {s s' : System} {a : Action} {o : Output} (hp : Performs B s a o s') :
    Picked s.kernel s'.kernel := by
  have htrap : ∀ {rsp frame k'}, Picked (s.kernel.trap rsp frame) k' → Picked s.kernel k' :=
    fun h => h.congr rfl rfl
  cases hp with
  | spawned hspawn =>
    cases hspawn with
    | intro _ => exact .kept rfl
  | processSpawned _ hspawn =>
    cases hspawn with
    | intro _ _ _ => exact .kept rfl
  | processRefused hfail =>
    obtain rfl := hfail.same
    exact .kept rfl
  | started hidle hstart =>
    cases hstart with
    | nothing _ => exact .kept rfl
    | first hfirst _ _ _ => exact .first hidle hfirst
  | timer hsw => exact htrap hsw.picked
  | yielded hsw => exact htrap hsw.picked
  | userCall hcaller hd => exact htrap (UserDispatch.picked hcaller.current hd)
  | kernelCall hcur _ _ hd => exact htrap (KernelDispatch.picked hcur hd)
  | faulted hcur hfin hsel => exact htrap (hsel.picked hcur hfin.length)
  | kernelReturned hcur _ _ hsel => exact hsel.picked hcur (List.length_modify ..)
  | _ => exact .kept rfl

end

def selection (s s' : System) : List ℕ :=
  if s'.kernel.current = s.kernel.current then [] else s'.kernel.current.toList

def ReadyStep (P : Platform) (j : ℕ) (c : System × List ℕ) (e : Event) (c' : System × List ℕ) : Prop :=
  Step P c.1 e c'.1 ∧ c'.1.kernel.StateAt j .ready ∧ c'.2 = selection c.1 c'.1 ++ c.2

structure NoOvertaking (j : ℕ) (selected : List ℕ) : Prop where
  once : selected.Nodup
  others : j ∉ selected
  bounded : selected.length ≤ MAX_TASKS - 1

abbrev turnTo (j x : ℕ) : ℕ := Cyclic.turn MAX_TASKS j x

structure ReadyPeriod (B : BootMemory) (j : ℕ) (c : System × List ℕ) : Prop where
  stable : Stable B c.1
  ready : c.1.kernel.StateAt j .ready
  turns : c.2.Pairwise fun x y => turnTo j y < turnTo j x
  latest : ∀ x ∈ c.2, x < MAX_TASKS ∧ x ≠ j ∧ ∃ i, c.1.kernel.current = some i ∧ turnTo j x ≤ turnTo j i

section

variable {B : BootMemory} {s s' : System} {j : ℕ}

theorem Stable.tasks_le (h : Stable B s) : s.kernel.tasks.length ≤ MAX_TASKS := by
  have hlen : s.kernel.views.length ≤ MAX_TASKS := h.core.tasks.length_le
  rwa [Kernel.views,List.length_map] at hlen

theorem Stable.not_current (h : Stable B s) (hj : s.kernel.StateAt j .ready) :
    s.kernel.current ≠ some j := by
  intro hc
  have hrun := (h.scheduled.current j).mp hc
  rw [StateAt,hj] at hrun
  cases hrun

theorem Picked.turn (h : Picked s.kernel s'.kernel) (hs : Stable B s) (hs' : Stable B s')
    (hj : s.kernel.StateAt j .ready) (hj' : s'.kernel.StateAt j .ready) :
    s'.kernel.current = s.kernel.current ∨ ∃ x, s'.kernel.current = some x ∧ x < MAX_TASKS ∧ x ≠ j ∧
      ∀ i, s.kernel.current = some i → turnTo j i < turnTo j x := by
  have hout := hs'.not_current hj'
  obtain ⟨t,ht,hready⟩ := Option.map_eq_some_iff.mp hj
  obtain ⟨t',ht',hready'⟩ := Option.map_eq_some_iff.mp hj'
  have hbound : ∀ {x}, s'.kernel.current = some x → x < MAX_TASKS := by
    intro x hx
    obtain ⟨u,hu,-⟩ := hs'.scheduled.task hx
    exact (List.getElem?_eq_some_iff.mp hu).1.trans_le hs'.tasks_le
  cases h with
  | kept hcur => exact Or.inl hcur
  | @after i tasks hi hnext hlen hrest =>
    have hij : j ≠ i := by
      rintro rfl
      exact hs.not_current hj hi
    have htasks := (hrest j hij hout).trans ht'
    cases hx : s'.kernel.current with
    | none =>
      rw [hx] at hnext
      exact absurd hready' (nextReadyAfter_none hnext htasks)
    | some x =>
      rw [hx] at hnext hout
      have hxj : x ≠ j := fun hc => hout (by rw [hc])
      refine Or.inr ⟨x,rfl,hbound hx,hxj,fun i' hi' => ?_⟩
      cases hi.symm.trans hi'
      obtain ⟨u,hu,-⟩ := hs.scheduled.task hi
      have hleast := (((nextReady tasks i).some x).mp hnext).2 j t' htasks hready'
      exact Cyclic.turn_lt (hlen ▸ hs.tasks_le) (hlen ▸ (List.getElem?_eq_some_iff.mp hu).1)
        (List.getElem?_eq_some_iff.mp htasks).1 hij.symm hxj hleast
  | first hidle hfirst =>
    cases hx : s'.kernel.current with
    | none => exact Or.inl hidle.symm
    | some x =>
      rw [hx] at hout
      refine Or.inr ⟨x,rfl,hbound hx,fun hc => hout (by rw [hc]),fun i hi => ?_⟩
      rw [hidle] at hi
      cases hi

theorem ReadyPeriod.step {P : Platform} {c c' : System × List ℕ} {e : Event} (h : ReadyPeriod B j c)
    (hstep : ReadyStep P j c e c') : ReadyPeriod B j c' := by
  obtain ⟨s,xs⟩ := c
  obtain ⟨s',xs'⟩ := c'
  obtain ⟨hstep,hj',hxs⟩ := hstep
  have hp := h.stable.performs hstep
  have hs' := hp.stable h.stable
  have hxs' : xs' = selection s s' ++ xs := hxs
  rcases hp.picked.turn h.stable hs' h.ready hj' with hsame | ⟨x,hx,hlt,hxj,hturn⟩
  · rw [selection,if_pos hsame,List.nil_append] at hxs'
    subst hxs'
    refine ⟨hs',hj',h.turns,fun y hy => ?_⟩
    rw [hsame]
    exact h.latest y hy
  · have hne : s'.kernel.current ≠ s.kernel.current := fun hc => by
      exact lt_irrefl _ (hturn x (hc.symm.trans hx))
    rw [selection,if_neg hne,hx,Option.toList_some,List.singleton_append] at hxs'
    subst hxs'
    have hbelow : ∀ y ∈ xs, turnTo j y < turnTo j x := by
      intro y hy
      obtain ⟨-,-,i,hi,hle⟩ := h.latest y hy
      exact hle.trans_lt (hturn i hi)
    refine ⟨hs',hj',List.pairwise_cons.mpr ⟨hbelow,h.turns⟩,fun y hy => ?_⟩
    rcases List.mem_cons.mp hy with rfl | hy
    · exact ⟨hlt,hxj,_,hx,le_refl _⟩
    · obtain ⟨hy₁,hy₂,-⟩ := h.latest y hy
      exact ⟨hy₁,hy₂,x,hx,(hbelow y hy).le⟩

theorem ReadyPeriod.noOvertaking {c : System × List ℕ} (h : ReadyPeriod B j c) :
    NoOvertaking j c.2 := by
  obtain ⟨t,ht,-⟩ := Option.map_eq_some_iff.mp h.ready
  have hj : j < MAX_TASKS := (List.getElem?_eq_some_iff.mp ht).1.trans_le h.stable.tasks_le
  have hnodup := Cyclic.nodup_of_turns h.turns
  have hout : j ∉ c.2 := fun hc => (h.latest j hc).2.1 rfl
  exact ⟨hnodup,hout,Nat.le_sub_one_of_lt (Cyclic.length_lt hnodup hj hout fun x hx => (h.latest x hx).1)⟩

end

section

variable {B : Boot} {P : Platform} {trace events : List Event} {s s' : System} {j : ℕ}

theorem round_robin (h : Run P B trace s) (hj : s.kernel.StateAt j .ready) {selected : List ℕ}
    (hperiod : Runs (· = (s,[])) (ReadyStep P j) events (s',selected)) :
    NoOvertaking j selected ∧ ∀ tasks start, NextReady tasks start := by
  refine ⟨?_,nextReady⟩
  have hinv : ReadyPeriod B.toBootMemory j (s',selected) := by
    refine hperiod.invariant (I := ReadyPeriod B.toBootMemory j) ?_ fun _ _ _ hc => hc.step
    rintro _ rfl
    exact ⟨h.stable,hj,List.Pairwise.nil,by simp⟩
  exact hinv.noOvertaking

theorem round_robin_family : ∃ trace s e s', Run standardPlatform smallMachine trace s ∧
    s.kernel.StateAt 1 .ready ∧ Runs (· = (s,[])) (ReadyStep standardPlatform 1) [e] (s',[0]) ∧
    NoOvertaking 1 [0] ∧ ∀ tasks start, NextReady tasks start := by
  obtain ⟨trace,s,hcareful,hready⟩ :=
    exists_familyReady smallMachine_roomy standardPlatform .yieldThenExit
  have hrun := hcareful.run
  obtain ⟨entry,top,entry',top',htasks⟩ := hready.tasks
  have hfirst : firstReady s.kernel.tasks = some 0 := by rw [htasks]; rfl
  have ht : s.kernel.tasks[0]? = some (Task.newUser 0 1 entry top HEAP_START) := by rw [htasks]; rfl
  have hwaits : s.kernel.StateAt 1 .ready := by rw [StateAt,htasks]; rfl
  obtain ⟨e,s',hstep,htasks',hcur'⟩ : ∃ e s', Step standardPlatform s e s' ∧
      s'.kernel.tasks = s.kernel.tasks.modify 0 (Task.setState .running) ∧
      s'.kernel.current = some 0 := by
    obtain ⟨root,hstep⟩ := hrun.stable.starts standardPlatform hready.current hfirst ht 0
    exact ⟨_,_,hstep,rfl,rfl⟩
  have hselected : Runs (· = (s,[])) (ReadyStep standardPlatform 1) [e] (s',[0]) := by
    refine .next (.start rfl) ⟨hstep,?_,?_⟩
    · rw [StateAt,htasks',htasks]
      rfl
    · simp [selection,hready.current,hcur']
  exact ⟨trace,s,e,s',hrun,hwaits,hselected,round_robin hrun hwaits hselected⟩

end

end VladOs
