import VladOs.Kernel.CoreInvariant
import VladOs.Library.Cyclic

namespace VladOs

open Code

def Kernel.core (k : Kernel) (inits : List UserTaskInit) : Core :=
  ⟨k.views,k.processes,k.openFiles,k.memory,inits⟩

section

variable {tasks : List Task} {start i : ℕ} {t : Task}

theorem nextReadyAfter_eq (tasks : List Task) (start : ℕ) : nextReadyAfter tasks start =
    Cyclic.search tasks.length start fun i => decide ((tasks[i]?).map Task.state = some .ready) := by
  simp only [nextReadyAfter,Cyclic.search,decide_eq_true_eq]

theorem nextReadyAfter_some (h : nextReadyAfter tasks start = some i) :
    ∃ t, tasks[i]? = some t ∧ t.state = .ready := by
  rw [nextReadyAfter_eq] at h
  obtain ⟨-,hready,-⟩ := Cyclic.search_least h
  exact Option.map_eq_some_iff.mp (of_decide_eq_true hready)

theorem nextReadyAfter_none (h : nextReadyAfter tasks start = none) (ht : tasks[i]? = some t) :
    t.state ≠ .ready := by
  rw [nextReadyAfter_eq] at h
  have hi : i < tasks.length := (List.getElem?_eq_some_iff.mp ht).1
  have hfree := of_decide_eq_false (Cyclic.search_eq_none.mp h i hi)
  intro hready
  exact hfree (by rw [ht,Option.map_some,hready])

theorem firstReady_some (h : firstReady tasks = some i) :
    ∃ t, tasks[i]? = some t ∧ t.state = .ready := by
  obtain ⟨hi,hready,-⟩ := List.findIdx?_eq_some_iff_getElem.mp h
  exact ⟨_,List.getElem?_eq_getElem hi,by simpa using hready⟩

theorem map_modify_of_eq {α : Type} {g : Task → α} {f : Task → Task}
    (hf : ∀ {t}, tasks[i]? = some t → g (f t) = g t) : (tasks.modify i f).map g = tasks.map g := by
  refine List.ext_getElem? fun j => ?_
  rw [List.getElem?_map,List.getElem?_map,List.getElem?_modify]
  cases hj : tasks[j]? with
  | none => rfl
  | some t =>
    by_cases hij : i = j
    · subst hij
      simp [hf hj]
    · simp [hij]

theorem map_modify_of_comm {α : Type} {g : Task → α} {f : Task → Task} {f' : α → α}
    (hf : ∀ {t}, tasks[i]? = some t → g (f t) = f' (g t)) :
    (tasks.modify i f).map g = (tasks.map g).modify i f' := by
  refine List.ext_getElem? fun j => ?_
  rw [List.getElem?_map,List.getElem?_modify,List.getElem?_modify,List.getElem?_map]
  cases hj : tasks[j]? with
  | none => rfl
  | some t =>
    by_cases hij : i = j
    · subst hij
      simp [hf hj]
    · simp [hij]

end

namespace Kernel

def taskRoot (k : Kernel) (t : Task) : Option Frame :=
  match t.processId with
  | some pid => (k.processes.addressSpace pid).map AddressSpace.level4Frame
  | none => some k.memory.kernelLevel4Frame

def Cached (k : Kernel) : Prop := ∀ x, k.currentLevel4Frame = some x → x = k.cr3 * PAGE_SIZE

def StateAt (k : Kernel) (i : ℕ) (s : TaskState) : Prop := (k.tasks[i]?).map Task.state = some s

structure Scheduled (k : Kernel) : Prop where
  current : ∀ i, k.current = some i ↔ k.StateAt i .running
  cached : k.Cached
  loaded : ∀ {i t}, k.current = some i → k.tasks[i]? = some t →
    k.taskRoot t = some k.cr3 ∧ k.rsp0 = t.kernelStackTop
  main : k.current = none → k.cr3 = k.memory.kernelLevel4Frame

structure Vacant (k : Kernel) : Prop where
  idle : ∀ i, ¬ k.StateAt i .running
  cached : k.Cached

def modifyTask (k : Kernel) (i : ℕ) (f : Task → Task) : Kernel :=
  { k with tasks := k.tasks.modify i f }

def load (k : Kernel) (root : Frame) : Kernel :=
  { k with cr3 := root, currentLevel4Frame := some (root * PAGE_SIZE) }

def resumed (k : Kernel) (next : ℕ) (t : Task) (root : Frame) : Kernel :=
  { k with
    tasks := k.tasks.modify next (Task.setState .running)
    current := some next
    rsp0 := t.kernelStackTop
    cr3 := root
    currentLevel4Frame := some (root * PAGE_SIZE) }

def returned (k : Kernel) : Kernel :=
  { k with
    current := none
    cr3 := k.memory.kernelLevel4Frame
    currentLevel4Frame := some (k.memory.kernelLevel4Frame * PAGE_SIZE) }

variable {k k' : Kernel} {i next : ℕ} {t : Task} {root : Frame} {ε : Type}

theorem load_self (hc : k.Cached) (h : k.currentLevel4Frame = some (root * PAGE_SIZE)) :
    k.load root = k := by
  have hroot : root = k.cr3 := Nat.eq_of_mul_eq_mul_right (by decide) (hc _ h)
  subst hroot
  rw [load,← h]

theorem spec_loadLevel4 (hc : k.Cached) {Q : Unit → Kernel → Prop} {E : ε → Kernel → Prop} :
    Spec (loadLevel4 root) k Q E ↔ Q () (k.load root) := by
  rw [loadLevel4,spec_modify]
  split
  · next h => rw [load_self hc h]
  · rfl

theorem spec_taskAt (ht : k.tasks[i]? = some t) {Q : Task → Kernel → Prop} {E : ε → Kernel → Prop} :
    Spec (taskAt i) k Q E ↔ Q t k := by
  simp only [taskAt,spec_bind,spec_read,ht,spec_orAbort_some]

theorem spec_updateTask (ht : k.tasks[i]? = some t) {f : Task → Task} {Q : Unit → Kernel → Prop}
    {E : ε → Kernel → Prop} : Spec (updateTask i f) k Q E ↔ Q () (k.modifyTask i f) := by
  rw [updateTask,spec_bind,spec_taskAt ht,spec_modify]
  rfl

theorem modifyTask_self (ht : k.tasks[i]? = some t) (f : Task → Task) :
    (k.modifyTask i f).tasks[i]? = some (f t) := by
  rw [modifyTask,List.getElem?_modify,ht]
  simp

theorem modifyTask_of_ne {j : ℕ} (h : j ≠ i) (f : Task → Task) :
    (k.modifyTask i f).tasks[j]? = k.tasks[j]? := by
  rw [modifyTask,List.getElem?_modify]
  cases k.tasks[j]? <;> simp [h.symm]

theorem spec_prepareToRun (hc : k.Cached) (ht : k.tasks[next]? = some t)
    (hr : k.taskRoot t = some root) {Q : Unit → Kernel → Prop} {E : ε → Kernel → Prop} :
    Spec (prepareToRun next) k Q E ↔ Q () { k.load root with rsp0 := t.kernelStackTop } := by
  have ht' : ({ k with rsp0 := t.kernelStackTop } : Kernel).tasks[next]? = some t := ht
  have hc' : ({ k with rsp0 := t.kernelStackTop } : Kernel).Cached := hc
  rw [prepareToRun,spec_bind,loadKernelStackFor,spec_bind,spec_taskAt ht,spec_modify,
    switchToTaskAddressSpace,spec_bind,spec_taskAt ht',spec_bind,spec_read]
  unfold taskRoot at hr
  cases hp : t.processId with
  | none =>
    rw [hp] at hr
    cases hr
    exact spec_loadLevel4 hc'
  | some pid =>
    rw [hp] at hr
    obtain ⟨space,hs,rfl⟩ := Option.map_eq_some_iff.mp hr
    simp only [spec_bind,hs,spec_orAbort_some]
    exact spec_loadLevel4 hc'

theorem spec_select (hc : k.Cached) (ht : k.tasks[next]? = some t) (hr : k.taskRoot t = some root)
    {Q : Control → Kernel → Prop} {E : ε → Kernel → Prop} :
    Spec (select next) k Q E ↔ Q (.resume t.savedRsp) (k.resumed next t root) := by
  have ht' := modifyTask_self ht (Task.setState .running)
  have hc' : ({ k.modifyTask next (Task.setState .running) with
    current := some next } : Kernel).Cached := hc
  rw [select,spec_bind,spec_updateTask ht,spec_bind,spec_modify,spec_bind]
  refine (spec_prepareToRun hc' ht' hr).trans ?_
  rw [spec_bind]
  have hself : (k.resumed next t root).tasks[next]? = some (t.setState .running) := ht'
  refine (spec_taskAt hself).trans ?_
  rw [spec_pure]
  rfl

theorem StateAt.modify {f : Task → Task} {s : TaskState} (ht : k.tasks[i]? = some t) (j : ℕ) :
    (k.modifyTask i f).StateAt j s ↔ j = i ∧ (f t).state = s ∨ j ≠ i ∧ k.StateAt j s := by
  unfold StateAt
  by_cases hj : j = i
  · subst hj
    simp [modifyTask_self ht]
  · simp [modifyTask_of_ne hj,hj]

theorem resumed_scheduled (hv : k.Vacant) (ht : k.tasks[next]? = some t)
    (hr : k.taskRoot t = some root) : (k.resumed next t root).Scheduled := by
  refine ⟨?_,?_,?_,?_⟩
  · intro j
    refine Iff.trans ?_ (StateAt.modify (f := Task.setState .running) ht j).symm
    change some next = some j ↔ _
    constructor
    · rintro ⟨⟩
      exact Or.inl ⟨rfl,rfl⟩
    · rintro (⟨rfl,-⟩ | ⟨-,hj⟩)
      · rfl
      · exact absurd hj (hv.idle j)
  · rintro x ⟨⟩
    rfl
  · rintro j u ⟨⟩ hu
    rw [show (k.resumed next t root).tasks[next]? = _ from modifyTask_self ht _] at hu
    cases hu
    exact ⟨hr,rfl⟩
  · rintro ⟨⟩

theorem returned_scheduled (hv : k.Vacant) : k.returned.Scheduled := by
  refine ⟨?_,?_,?_,fun _ => rfl⟩
  · intro j
    exact iff_of_false (fun hc => by cases hc) (hv.idle j)
  · rintro x ⟨⟩
    rfl
  · rintro j u ⟨⟩

theorem resumed_views (ht : k.tasks[next]? = some t) (hs : t.state.phase = .active) :
    (k.resumed next t root).views = k.views := by
  refine map_modify_of_eq fun {u} hu => ?_
  rw [ht] at hu
  cases hu
  simp only [Task.view,hs]
  rfl

inductive Selects (k : Kernel) (start : ℕ) : Control → Kernel → Prop where
  | resume {next : ℕ} {t : Task} {root : Frame} : nextReadyAfter k.tasks start = some next →
      k.tasks[next]? = some t → t.state = .ready → k.taskRoot t = some root →
      Selects k start (.resume t.savedRsp) (k.resumed next t root)
  | main : nextReadyAfter k.tasks start = none → Selects k start (.restoreMain k.mainContext) k.returned

def Rooted (k : Kernel) : Prop := ∀ {i : ℕ} {t : Task}, k.tasks[i]? = some t → t.state.phase = .active →
  ∃ root, k.taskRoot t = some root

theorem selectNextOrMain_spec (hv : k.Vacant) (hr : k.Rooted) (start : ℕ) :
    Spec (selectNextOrMain start : Code Kernel ε Control) k (Selects k start) fun _ _ => False := by
  rw [selectNextOrMain,spec_bind,spec_read]
  cases hn : nextReadyAfter k.tasks start with
  | some next =>
    obtain ⟨t,ht,hready⟩ := nextReadyAfter_some hn
    obtain ⟨root,hroot⟩ := hr ht (by rw [hready]; rfl)
    simp only
    rw [spec_select hv.cached ht hroot]
    exact .resume hn ht hready hroot
  | none =>
    have hc : ({ k with current := none } : Kernel).Cached := hv.cached
    simp only [spec_bind,spec_modify,switchToKernelAddressSpace,spec_read]
    rw [spec_loadLevel4 hc,spec_pure]
    exact .main hn

theorem Scheduled.task (h : k.Scheduled) (hcur : k.current = some i) :
    ∃ t, k.tasks[i]? = some t ∧ t.state = .running :=
  Option.map_eq_some_iff.mp ((h.current i).mp hcur)

theorem Scheduled.idle (h : k.Scheduled) (hcur : k.current = none) : k.Vacant := by
  refine ⟨fun i hi => ?_,h.cached⟩
  rw [(h.current i).mpr hi] at hcur
  cases hcur

theorem Scheduled.vacate (h : k.Scheduled) (hcur : k.current = some i) {f : Task → Task}
    (hf : ∀ t, (f t).state ≠ .running) : (k.modifyTask i f).Vacant := by
  obtain ⟨t,ht,-⟩ := h.task hcur
  refine ⟨fun j hj => ?_,h.cached⟩
  rcases (StateAt.modify ht j).mp hj with ⟨-,hs⟩ | ⟨hne,hs⟩
  · exact hf t hs
  · rw [(h.current j).mpr hs] at hcur
    exact hne (Option.some.inj hcur)

theorem Scheduled.modifyTask (h : k.Scheduled) (f : Task → Task) (hs : ∀ t, (f t).state = t.state)
    (hp : ∀ t, (f t).processId = t.processId) (hk : ∀ t, (f t).kernelStackTop = t.kernelStackTop)
    (i : ℕ) : (k.modifyTask i f).Scheduled := by
  have hstate : ∀ j s, (k.modifyTask i f).StateAt j s ↔ k.StateAt j s := by
    intro j s
    unfold StateAt
    by_cases hj : j = i
    · subst hj
      rw [Kernel.modifyTask,List.getElem?_modify]
      cases k.tasks[j]? <;> simp [hs]
    · rw [modifyTask_of_ne hj]
  refine ⟨fun j => (h.current j).trans (hstate j _).symm,h.cached,?_,h.main⟩
  intro j t hcur ht
  by_cases hj : j = i
  · subst hj
    obtain ⟨u,hu,-⟩ := h.task hcur
    rw [modifyTask_self hu] at ht
    cases ht
    obtain ⟨hroot,hstack⟩ := h.loaded hcur hu
    refine ⟨Eq.trans ?_ hroot,hstack.trans (hk u).symm⟩
    unfold taskRoot
    rw [hp]
    rfl
  · rw [modifyTask_of_ne hj] at ht
    exact h.loaded hcur ht

inductive Switches (k : Kernel) (rsp : ℕ) : Control → Kernel → Prop where
  | idle : k.current = none → Switches k rsp (.resume rsp) k
  | stay {i : ℕ} : k.current = some i → nextReadyAfter k.tasks i = none →
      Switches k rsp (.resume rsp) (k.modifyTask i (Task.setSavedRsp rsp))
  | switch {i next : ℕ} {t : Task} {root : Frame} : k.current = some i →
      nextReadyAfter k.tasks i = some next → k.tasks[next]? = some t → t.state = .ready → next ≠ i →
      k.taskRoot t = some root →
      Switches k rsp (.resume t.savedRsp)
        (((k.modifyTask i (Task.setSavedRsp rsp)).modifyTask i (Task.setState .ready)).resumed next t root)

def turned (k : Kernel) (i rsp next : ℕ) (t : Task) (root : Frame) : Kernel :=
  ((k.modifyTask i (Task.setSavedRsp rsp)).modifyTask i (Task.setState .ready)).resumed next t root

theorem turned_leaves {rsp next : ℕ} {u : Task} {root : Frame} (ht : k.tasks[i]? = some t) (hne : next ≠ i) :
    (k.turned i rsp next u root).tasks[i]? = some ((t.setSavedRsp rsp).setState .ready) :=
  (modifyTask_of_ne hne.symm _).trans (modifyTask_self (modifyTask_self ht _) _)

theorem turned_enters {rsp next : ℕ} {root : Frame} (ht : k.tasks[next]? = some t) (hne : next ≠ i) :
    (k.turned i rsp next t root).tasks[next]? = some (t.setState .running) := by
  refine modifyTask_self ?_ _
  rw [modifyTask_of_ne hne,modifyTask_of_ne hne]
  exact ht

theorem turned_length {rsp next : ℕ} {root : Frame} :
    (k.turned i rsp next t root).tasks.length = k.tasks.length := by
  simp [turned,resumed,modifyTask]

theorem Switches.turned {rsp next : ℕ} {c : Control} (h : Switches k rsp c k') (hcur : k.current = some i)
    (hnext : nextReadyAfter k.tasks i = some next) (ht : k.tasks[next]? = some t) :
    ∃ root, c = .resume t.savedRsp ∧ k' = k.turned i rsp next t root := by
  cases h with
  | idle hnone => cases hcur.symm.trans hnone
  | stay hi hn =>
    cases hcur.symm.trans hi
    cases hnext.symm.trans hn
  | switch hi hn ht' =>
    cases hcur.symm.trans hi
    cases hnext.symm.trans hn
    cases ht.symm.trans ht'
    exact ⟨_,rfl,rfl⟩

theorem nextReadyAfter_congr {tasks tasks' : List Task} (h : tasks'.map Task.state = tasks.map Task.state)
    (start : ℕ) : nextReadyAfter tasks' start = nextReadyAfter tasks start := by
  have hlen : tasks'.length = tasks.length := by simpa using congrArg List.length h
  unfold nextReadyAfter
  rw [hlen]
  congr 1
  funext offset
  have hi := congrArg (fun l => l[(start + offset) % tasks.length]?) h
  simp only [List.getElem?_map] at hi
  simp only [hi]

theorem map_state_setSavedRsp (k : Kernel) (i rsp : ℕ) :
    (k.modifyTask i (Task.setSavedRsp rsp)).tasks.map Task.state = k.tasks.map Task.state :=
  map_modify_of_eq fun _ => rfl

theorem switchFromInterrupt_spec (h : k.Scheduled) (hr : k.Rooted) (rsp : ℕ) :
    Spec (switchFromInterrupt rsp : Code Kernel ε Control) k (Switches k rsp) fun _ _ => False := by
  rw [switchFromInterrupt,spec_bind,saveCurrentFrame,spec_bind,spec_read]
  cases hcur : k.current with
  | none =>
    simp only [spec_pure]
    exact .idle hcur
  | some i =>
    obtain ⟨t,ht,hrun⟩ := h.task hcur
    have ht' := modifyTask_self ht (Task.setSavedRsp rsp)
    simp only [spec_bind]
    rw [spec_taskAt ht,if_pos hrun,spec_bind,spec_updateTask ht,spec_pure]
    simp only [spec_bind,spec_read]
    rw [nextReadyAfter_congr (map_state_setSavedRsp k i rsp)]
    cases hn : nextReadyAfter k.tasks i with
    | none =>
      simp only [spec_pure]
      exact .stay hcur hn
    | some next =>
      obtain ⟨u,hu,hready⟩ := nextReadyAfter_some hn
      have hne : next ≠ i := by
        rintro rfl
        rw [ht] at hu
        cases hu
        rw [hrun] at hready
        cases hready
      obtain ⟨root,hroot⟩ := hr hu (by rw [hready]; rfl)
      have hu' : ((k.modifyTask i (Task.setSavedRsp rsp)).modifyTask i
          (Task.setState .ready)).tasks[next]? = some u := by
        rw [modifyTask_of_ne hne,modifyTask_of_ne hne,hu]
      have hc : ((k.modifyTask i (Task.setSavedRsp rsp)).modifyTask i
          (Task.setState .ready)).Cached := h.cached
      simp only [spec_bind]
      rw [spec_updateTask ht',spec_select hc hu' hroot]
      exact .switch hcur hn hu hready hne hroot

theorem views_modifyTask {f : Task → Task} (hf : ∀ {t}, k.tasks[i]? = some t → (f t).view = t.view) :
    (k.modifyTask i f).views = k.views := map_modify_of_eq hf

theorem views_setPhase {f : Task → Task} {phase : Phase}
    (hf : ∀ {t}, k.tasks[i]? = some t → (f t).view = t.view.setPhase phase) :
    (k.modifyTask i f).views = k.views.modify i (.setPhase phase) := map_modify_of_comm hf

theorem views_setSavedRsp (k : Kernel) (i rsp : ℕ) :
    (k.modifyTask i (Task.setSavedRsp rsp)).views = k.views := views_modifyTask fun _ => rfl

theorem views_getElem? (k : Kernel) (i : ℕ) : k.views[i]? = (k.tasks[i]?).map Task.view :=
  List.getElem?_map ..

structure Evolves (B : BootMemory) (inits : List UserTaskInit) (k : Kernel)
    (inits' : List UserTaskInit) (k' : Kernel) : Prop where
  core : k'.core inits' = k.core inits ∨ CoreStep B (k.core inits) (k'.core inits')
  scheduled : k'.Scheduled

theorem Evolves.inv {B : BootMemory} {inits inits' : List UserTaskInit} (h : Evolves B inits k inits' k')
    (hk : CoreInv B (k.core inits)) : CoreInv B (k'.core inits') := by
  rcases h.core with hc | hc
  · rw [hc]
    exact hk
  · exact hc.inv hk

theorem core_of_views {inits : List UserTaskInit} (hv : k'.views = k.views)
    (hp : k'.processes = k.processes) (ho : k'.openFiles = k.openFiles) (hm : k'.memory = k.memory) :
    k'.core inits = k.core inits := by
  simp only [core,hv,hp,ho,hm]

theorem Selects.scheduled {start : ℕ} {c : Control} (hv : k.Vacant) (h : Selects k start c k') :
    k'.Scheduled := by
  cases h with
  | resume _ ht _ hr => exact resumed_scheduled hv ht hr
  | main _ => exact returned_scheduled hv

theorem Selects.core {start : ℕ} {c : Control} {inits : List UserTaskInit} (h : Selects k start c k') :
    k'.core inits = k.core inits := by
  cases h with
  | resume _ ht hs _ => exact core_of_views (resumed_views ht (by rw [hs]; rfl)) rfl rfl rfl
  | main _ => rfl

theorem setReady_vacant (h : k.Scheduled) (hcur : k.current = some i) (rsp : ℕ) :
    ((k.modifyTask i (Task.setSavedRsp rsp)).modifyTask i (Task.setState .ready)).Vacant := by
  have hs : (k.modifyTask i (Task.setSavedRsp rsp)).Scheduled :=
    h.modifyTask (Task.setSavedRsp rsp) (fun _ => rfl) (fun _ => rfl) (fun _ => rfl) i
  exact hs.vacate hcur fun _ hc => by cases hc

theorem Switches.scheduled {rsp : ℕ} {c : Control} (h : k.Scheduled) (hs : Switches k rsp c k') :
    k'.Scheduled := by
  cases hs with
  | idle _ => exact h
  | stay _ _ => exact h.modifyTask (Task.setSavedRsp rsp) (fun _ => rfl) (fun _ => rfl) (fun _ => rfl) _
  | switch hcur _ ht _ hne hr =>
    refine resumed_scheduled (setReady_vacant h hcur rsp) ?_ hr
    rw [modifyTask_of_ne hne,modifyTask_of_ne hne,ht]

theorem Switches.core {rsp : ℕ} {c : Control} {inits : List UserTaskInit} (h : k.Scheduled)
    (hs : Switches k rsp c k') : k'.core inits = k.core inits := by
  cases hs with
  | idle _ => rfl
  | stay _ _ => exact core_of_views (views_setSavedRsp ..) rfl rfl rfl
  | @switch i next t root hcur _ ht hready hne hr =>
    refine core_of_views ?_ rfl rfl rfl
    rw [resumed_views (t := t) (by rw [modifyTask_of_ne hne,modifyTask_of_ne hne,ht]) (by rw [hready]; rfl)]
    obtain ⟨u,hu,hrun⟩ := h.task hcur
    rw [views_modifyTask,views_setSavedRsp]
    intro u' hu'
    rw [modifyTask_self hu] at hu'
    cases hu'
    simp only [Task.view,Task.setState,Task.setSavedRsp,hrun]
    rfl

theorem onTimerInterrupt_spec (h : k.Scheduled) (hr : k.Rooted) (rsp : ℕ) :
    Spec (onTimerInterrupt rsp : Code Kernel ε Control) k
      (fun c k' => c = .resume rsp ∧ k' = k ∨ Switches k rsp c k') fun _ _ => False := by
  rw [onTimerInterrupt,spec_bind,spec_read,spec_ite]
  constructor
  · intro _
    exact (switchFromInterrupt_spec h hr rsp).imp fun _ _ hs => Or.inr hs
  · intro _
    rw [spec_pure]
    exact Or.inl ⟨rfl,rfl⟩

inductive Starts (k : Kernel) (bootRsp : ℕ) : Option Control → Kernel → Prop where
  | nothing : firstReady k.tasks = none → Starts k bootRsp none k
  | first {next : ℕ} {t : Task} {root : Frame} : firstReady k.tasks = some next →
      k.tasks[next]? = some t → t.state = .ready → k.taskRoot t = some root →
      Starts k bootRsp (some (.resume t.savedRsp)) { k.resumed next t root with mainContext := bootRsp }

theorem run_spec (hr : k.Rooted) (bootRsp : ℕ) :
    Spec (run bootRsp : Code Kernel ε (Option Control)) k (Starts k bootRsp) fun _ _ => False := by
  rw [run,spec_bind,spec_read]
  cases hn : firstReady k.tasks with
  | none =>
    simp only [spec_pure]
    exact .nothing hn
  | some next =>
    obtain ⟨t,ht,hready⟩ := firstReady_some hn
    obtain ⟨root,hroot⟩ := hr ht (by rw [hready]; rfl)
    have ht₁ : ({ k with current := some next } : Kernel).tasks[next]? = some t := ht
    simp only [spec_bind,spec_modify]
    rw [spec_updateTask ht₁]
    have ht₂ := modifyTask_self ht (Task.setState .running)
    have hc : ({ k.modifyTask next (Task.setState .running) with
      current := some next
      currentLevel4Frame := some (k.cr3 * PAGE_SIZE) } : Kernel).Cached := by
      rintro x ⟨⟩
      rfl
    refine (spec_prepareToRun hc ht₂ hroot).mpr ?_
    have ht₃ : ({ k.resumed next t root with mainContext := bootRsp } : Kernel).tasks[next]? =
      some (t.setState .running) := ht₂
    refine (spec_taskAt ht₃).mpr ?_
    rw [spec_pure]
    exact Starts.first (t := t) hn ht hready hroot

theorem Starts.scheduled {bootRsp : ℕ} {c : Option Control} (h : k.Scheduled)
    (hcur : k.current = none) (hs : Starts k bootRsp c k') : k'.Scheduled := by
  cases hs with
  | nothing _ => exact h
  | first _ ht _ hr =>
    have hres := resumed_scheduled (h.idle hcur) ht hr
    exact ⟨hres.current,hres.cached,hres.loaded,hres.main⟩

theorem Starts.core {bootRsp : ℕ} {c : Option Control} {inits : List UserTaskInit}
    (hs : Starts k bootRsp c k') : k'.core inits = k.core inits := by
  cases hs with
  | nothing _ => rfl
  | @first next t root _ ht hready _ =>
    have hviews : (k.resumed next t root).views = k.views := resumed_views ht (by rw [hready]; rfl)
    exact core_of_views hviews rfl rfl rfl

end Kernel

theorem CoreInv.rooted {B : BootMemory} {k : Kernel} {inits : List UserTaskInit}
    (h : CoreInv B (k.core inits)) : k.Rooted := by
  intro i t ht hactive
  have hv : (k.core inits).tasks[i]? = some t.view := by
    rw [Kernel.core,k.views_getElem?,ht]
    rfl
  unfold Kernel.taskRoot
  cases hp : t.processId with
  | none => exact ⟨_,rfl⟩
  | some pid =>
    have hne : t.view.phase ≠ .ended := by
      rw [Task.view,hactive]
      exact fun hc => by cases hc
    obtain ⟨P,hP,-⟩ := h.tasks.running hv hp hne
    have hP' : k.processes.get pid = some P := hP
    exact ⟨P.addressSpace.level4Frame,by simp [ProcessTable.addressSpace,hP']⟩

end VladOs
