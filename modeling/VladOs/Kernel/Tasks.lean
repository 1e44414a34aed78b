import VladOs.Kernel.Scheduler
import VladOs.Process.FileLinks

namespace VladOs

inductive Phase where
  | active
  | waiting (child : ProcessId) (statusPtr : Option VirtAddr)
  | ended

def TaskState.phase : TaskState → Phase
  | .ready | .running => .active
  | .blocked (.childExit child statusPtr) => .waiting child statusPtr
  | .finished | .failed => .ended

structure TaskView where
  id : TaskId
  process : Option ProcessId
  phase : Phase

def Task.view (t : Task) : TaskView := ⟨t.id,t.processId,t.state.phase⟩

def Kernel.views (k : Kernel) : List TaskView := k.tasks.map Task.view

structure TaskTable (views : List TaskView) (t : ProcessTable) : Prop where
  length_le : views.length ≤ MAX_TASKS
  nextPid_le : t.nextPid ≤ views.length + 1
  id : ∀ {i : ℕ} {v : TaskView}, views[i]? = some v → v.id = i
  created : ∀ {i : ℕ} {v : TaskView} {pid}, views[i]? = some v → v.process = some pid → pid < t.nextPid
  unique : ∀ {i j : ℕ} {v w : TaskView} {pid}, views[i]? = some v → views[j]? = some w →
    v.process = some pid → w.process = some pid → i = j
  live : ∀ {i : ℕ} {v : TaskView} {pid}, views[i]? = some v → v.process = some pid →
    (v.phase ≠ .ended ↔ t.state pid = some .running)
  main : ∀ {pid P}, t.get pid = some P → ∃ v, views[P.mainTask]? = some v ∧ v.process = some pid

namespace TaskTable

variable {views views' : List TaskView} {t t' : ProcessTable} {i pid : ℕ} {v : TaskView}

theorem new : TaskTable [] .new where
  length_le := by simp
  nextPid_le := by simp [ProcessTable.new]
  id h := by simp at h
  created h := by simp at h
  unique h := by simp at h
  live h := by simp at h
  main h := by simp [ProcessTable.new,ProcessTable.get] at h

theorem state_eq {s : ProcessState} :
    t.state pid = some s ↔ ∃ P, t.get pid = some P ∧ P.state = s := by
  unfold ProcessTable.state
  rw [Option.map_eq_some_iff]

theorem running (h : TaskTable views t) (hv : views[i]? = some v) (hp : v.process = some pid)
    (hne : v.phase ≠ .ended) : ∃ P, t.get pid = some P ∧ P.state = .running :=
  state_eq.mp ((h.live hv hp).mp hne)

theorem mainTask_eq (h : TaskTable views t) (hv : views[i]? = some v) (hp : v.process = some pid)
    {P : Process} (hP : t.get pid = some P) : P.mainTask = i := by
  obtain ⟨w,hw,hwp⟩ := h.main hP
  exact h.unique hw hv hwp hp

theorem update (h : TaskTable views t) (hlen : views'.length = views.length)
    (hnext : t'.nextPid = t.nextPid)
    (hviews : ∀ {i : ℕ} {v' : TaskView}, views'[i]? = some v' →
      ∃ v, views[i]? = some v ∧ v'.id = v.id ∧ v'.process = v.process)
    (hmain : ∀ {q Q'}, t'.get q = some Q' → ∃ Q, t.get q = some Q ∧ Q'.mainTask = Q.mainTask)
    (hlive : ∀ {i : ℕ} {v' : TaskView} {pid}, views'[i]? = some v' → v'.process = some pid →
      (v'.phase ≠ .ended ↔ t'.state pid = some .running)) : TaskTable views' t' := by
  refine ⟨hlen ▸ h.length_le,by rw [hnext,hlen]; exact h.nextPid_le,?_,?_,?_,hlive,?_⟩
  · intro i v' hv'
    obtain ⟨v,hv,hid,-⟩ := hviews hv'
    rw [hid]
    exact h.id hv
  · intro i v' pid hv' hp
    obtain ⟨v,hv,-,hproc⟩ := hviews hv'
    rw [hnext]
    exact h.created hv (hproc ▸ hp)
  · intro i j v' w' pid hv' hw' hp hp'
    obtain ⟨v,hv,-,hproc⟩ := hviews hv'
    obtain ⟨w,hw,-,hproc'⟩ := hviews hw'
    exact h.unique hv hw (hproc ▸ hp) (hproc' ▸ hp')
  · intro q Q' hQ'
    obtain ⟨Q,hQ,hm⟩ := hmain hQ'
    obtain ⟨v,hv,hp⟩ := h.main hQ
    have hlt : Q.mainTask < views'.length := by
      rw [hlen]
      exact (List.getElem?_eq_some_iff.mp hv).1
    obtain ⟨v₀,hv₀,-,hproc⟩ := hviews (List.getElem?_eq_getElem hlt)
    rw [hv] at hv₀
    cases hv₀
    exact ⟨views'[Q.mainTask],by rw [hm,List.getElem?_eq_getElem hlt],hproc.trans hp⟩

theorem processes (h : TaskTable views t) (hnext : t'.nextPid = t.nextPid)
    (hmain : ∀ {q Q'}, t'.get q = some Q' → ∃ Q, t.get q = some Q ∧ Q'.mainTask = Q.mainTask)
    (hstate : ∀ q, t'.state q = some .running ↔ t.state q = some .running) : TaskTable views t' :=
  h.update rfl hnext (fun hv => ⟨_,hv,rfl,rfl⟩) hmain fun hv hp => (h.live hv hp).trans (hstate _).symm

theorem getElem?_snoc {α : Type} {l : List α} {v w : α} (hv : (l ++ [w])[i]? = some v) :
    l[i]? = some v ∧ i < l.length ∨ i = l.length ∧ v = w := by
  rw [List.getElem?_append] at hv
  split at hv
  · next hlt => exact Or.inl ⟨hv,hlt⟩
  · next hge =>
    obtain ⟨hi,hw⟩ := List.getElem?_eq_some_iff.mp hv
    simp only [List.length_singleton] at hi
    refine Or.inr ⟨by omega,?_⟩
    rw [← hw]
    simp

theorem spawn (h : TaskTable views t) (hroom : views.length < MAX_TASKS) :
    TaskTable (views ++ [⟨views.length,none,.active⟩]) t := by
  refine ⟨by simpa using Nat.succ_le_of_lt hroom,?_,?_,?_,?_,?_,?_⟩
  · have := h.nextPid_le
    simp only [List.length_append,List.length_singleton]
    omega
  · intro i v hv
    rcases getElem?_snoc hv with ⟨hv,-⟩ | ⟨rfl,rfl⟩
    · exact h.id hv
    · rfl
  · intro i v pid hv hp
    rcases getElem?_snoc hv with ⟨hv,-⟩ | ⟨rfl,rfl⟩
    · exact h.created hv hp
    · cases hp
  · intro i j v w pid hv hw hp hp'
    rcases getElem?_snoc hv with ⟨hv,-⟩ | ⟨rfl,rfl⟩
    · rcases getElem?_snoc hw with ⟨hw,-⟩ | ⟨rfl,rfl⟩
      · exact h.unique hv hw hp hp'
      · cases hp'
    · cases hp
  · intro i v pid hv hp
    rcases getElem?_snoc hv with ⟨hv,-⟩ | ⟨rfl,rfl⟩
    · exact h.live hv hp
    · cases hp
  · intro pid P hP
    obtain ⟨v,hv,hp⟩ := h.main hP
    exact ⟨v,by rw [List.getElem?_append_left (List.getElem?_eq_some_iff.mp hv).1]; exact hv,hp⟩

theorem state_created {parent : Option ProcessId} {process : Process}
    (hc : Forest.Created t parent process pid t') {q : ProcessId} (hq : q ≠ pid) :
    t'.state q = t.state q := by
  unfold ProcessTable.state
  rw [hc.get,if_neg hq]
  split
  · cases t.get q <;> rfl
  · rfl

theorem spawnUser (h : TaskTable views t) (hroom : views.length < MAX_TASKS)
    {parent : Option ProcessId} {space : AddressSpace} {heap : UserHeap} {table : FdTable}
    (hc : Forest.Created t parent
      (ProcessTable.newProcess pid parent space heap table views.length) pid t') :
    TaskTable (views ++ [⟨views.length,some pid,.active⟩]) t' := by
  have hold : ∀ {i : ℕ} {v : TaskView} {q}, views[i]? = some v → v.process = some q → q ≠ pid := by
    intro i v q hv hp
    rw [hc.pid_eq]
    exact Nat.ne_of_lt (h.created hv hp)
  refine ⟨by simpa using Nat.succ_le_of_lt hroom,?_,?_,?_,?_,?_,?_⟩
  · have := h.nextPid_le
    rw [hc.nextPid,List.length_append,List.length_singleton]
    omega
  · intro i v hv
    rcases getElem?_snoc hv with ⟨hv,-⟩ | ⟨rfl,rfl⟩
    · exact h.id hv
    · rfl
  · intro i v q hv hp
    rw [hc.nextPid]
    rcases getElem?_snoc hv with ⟨hv,-⟩ | ⟨rfl,rfl⟩
    · exact Nat.lt_succ_of_lt (h.created hv hp)
    · rw [← Option.some.inj hp,hc.pid_eq]
      exact Nat.lt_succ_self _
  · intro i j v w q hv hw hp hp'
    rcases getElem?_snoc hv with ⟨hv,-⟩ | ⟨rfl,rfl⟩
    · rcases getElem?_snoc hw with ⟨hw,-⟩ | ⟨rfl,rfl⟩
      · exact h.unique hv hw hp hp'
      · exact absurd (Option.some.inj hp').symm (hold hv hp)
    · rcases getElem?_snoc hw with ⟨hw,-⟩ | ⟨rfl,-⟩
      · exact absurd (Option.some.inj hp).symm (hold hw hp')
      · rfl
  · intro i v q hv hp
    rcases getElem?_snoc hv with ⟨hv,-⟩ | ⟨rfl,rfl⟩
    · rw [state_created hc (hold hv hp)]
      exact h.live hv hp
    · obtain rfl : pid = q := Option.some.inj hp
      refine iff_of_true (by simp) (state_eq.mpr ⟨_,by rw [hc.get,if_pos rfl],rfl⟩)
  · intro q Q hQ
    have hkeep : ∀ {Q₀}, t.get q = some Q₀ → Q.mainTask = Q₀.mainTask →
        ∃ v, (views ++ [⟨views.length,some pid,.active⟩])[Q.mainTask]? = some v ∧
          v.process = some q := by
      intro Q₀ hQ₀ hm
      obtain ⟨v,hv,hp⟩ := h.main hQ₀
      refine ⟨v,?_,hp⟩
      rw [hm,List.getElem?_append_left (List.getElem?_eq_some_iff.mp hv).1]
      exact hv
    rw [hc.get] at hQ
    split at hQ
    · next hq =>
      cases hQ
      exact ⟨⟨views.length,some pid,.active⟩,by simp [ProcessTable.newProcess],by rw [hq]⟩
    · split at hQ
      · obtain ⟨Q₀,hQ₀,rfl⟩ := Option.map_eq_some_iff.mp hQ
        exact hkeep hQ₀ rfl
      · exact hkeep hQ rfl

end TaskTable

end VladOs
