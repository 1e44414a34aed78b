import VladOs.Process.Exit

namespace VladOs

open ProcessTable

structure Kin where
  parent : Option ProcessId
  children : List ProcessId
  state : ProcessState
  orphaned : Bool
  mainTask : TaskId
  deriving DecidableEq

def Process.kin (P : Process) : Kin := ⟨P.parent,P.children,P.state,P.orphaned,P.mainTask⟩

def ProcessTable.kin (t : ProcessTable) (pid : ProcessId) : Option Kin := (t.get pid).map Process.kin

inductive TableStep (t : ProcessTable) : ProcessTable → Prop where
  | same {t' : ProcessTable} : t'.nextPid = t.nextPid → (∀ q, t'.kin q = t.kin q) → TableStep t t'
  | created {t' : ProcessTable} {parent : Option ProcessId} {space : AddressSpace} {heap : UserHeap}
      {table : FdTable} {task : TaskId} {pid : ProcessId} :
      Forest.Created t parent (newProcess pid parent space heap table task) pid t' → TableStep t t'
  | exited {pid : ProcessId} {P : Process} (exit : ProcessExit) : t.get pid = some P →
      P.state = .running → TableStep t ((exitTable t pid P exit).reapOrphanIfZombie pid)
  | collectedExit {pid parent : ProcessId} {P Q : Process} (exit : ProcessExit) : t.get pid = some P →
      P.state = .running → t.get parent = some Q → pid ∈ Q.children →
      TableStep t (reapTable (exitTable t pid P exit) parent pid)
  | collected {parent child : ProcessId} {P C : Process} {exit : ProcessExit} : t.get parent = some P →
      child ∈ P.children → t.get child = some C → C.state = .zombie exit →
      TableStep t (reapTable t parent child)

variable {t t' : ProcessTable} {pid q parent child : ProcessId} {P Q C : Process} {κ : Kin}

theorem kin_eq_some : t.kin q = some κ ↔ ∃ Q, t.get q = some Q ∧ Q.kin = κ := Option.map_eq_some_iff

theorem get_of_kin (h : t'.kin q = t.kin q) (hQ : t'.get q = some Q) :
    ∃ Q₀, t.get q = some Q₀ ∧ Q₀.kin = Q.kin := by
  have hk : t'.kin q = some Q.kin := kin_eq_some.mpr ⟨Q,hQ,rfl⟩
  exact kin_eq_some.mp (h.symm.trans hk)

theorem reapTable_nextPid : (reapTable t parent child).nextPid = t.nextPid := by
  rw [reapTable,remove_nextPid,modify_nextPid]

theorem get_reapTable_some (h : (reapTable t parent child).get q = some Q) :
    q ≠ child ∧ ∃ Q₀, t.get q = some Q₀ ∧ (Q = Q₀ ∨ q = parent ∧ Q = removeChild child Q₀) := by
  rw [reapTable,get_reapChild] at h
  split at h
  · cases h
  · next hne =>
    split at h
    · next hq =>
      obtain ⟨Q₀,hQ₀,rfl⟩ := Option.map_eq_some_iff.mp h
      exact ⟨hne,Q₀,hQ₀,Or.inr ⟨hq,rfl⟩⟩
    · exact ⟨hne,Q,h,Or.inl rfl⟩

theorem get_reapOrphan_some (h : (t.reapOrphanIfZombie pid).get q = some Q) : t.get q = some Q := by
  rw [get_reapOrphanIfZombie] at h
  split at h
  · obtain ⟨Q₀,hQ₀,hk⟩ := Option.bind_eq_some_iff.mp h
    unfold unlessDeadOrphan at hk
    split at hk
    · cases hk
    · cases hk
      exact hQ₀
  · exact h

theorem get_exitTable_some (h : Forest t) (hP : t.get pid = some P) {exit : ProcessExit}
    (hQ : (exitTable t pid P exit).get q = some Q) :
    q = pid ∧ Q = ProcessTable.exited exit P ∨
    q ≠ pid ∧ q ∈ P.children ∧ (∃ Q₀, t.get q = some Q₀ ∧ Q₀.state = .running ∧ Q = orphan Q₀) ∨
    q ≠ pid ∧ q ∉ P.children ∧ t.get q = some Q := by
  rw [get_exitTable h hP] at hQ
  split at hQ
  · next hq =>
    subst hq
    rw [hP,Option.map_some] at hQ
    exact Or.inl ⟨rfl,(Option.some.inj hQ).symm⟩
  · next hq =>
    split at hQ
    · next hc =>
      obtain ⟨Q₀,hQ₀,hk⟩ := Option.bind_eq_some_iff.mp hQ
      obtain ⟨hrun,rfl⟩ := orphanOrReap_eq_some.mp hk
      exact Or.inr (Or.inl ⟨hq,hc,Q₀,hQ₀,hrun,rfl⟩)
    · next hc => exact Or.inr (Or.inr ⟨hq,hc,hQ⟩)

namespace TableStep

theorem nextPid_le (h : TableStep t t') : t.nextPid ≤ t'.nextPid := by
  cases h with
  | same hn _ => exact hn.ge
  | created hc => rw [hc.nextPid]; exact Nat.le_succ _
  | exited exit _ _ => rw [reapOrphanIfZombie_nextPid,exitTable_nextPid]
  | collectedExit exit _ _ _ _ => rw [reapTable_nextPid,exitTable_nextPid]
  | collected _ _ _ _ => rw [reapTable_nextPid]

theorem kept (hf : Forest t) (h : TableStep t t') (hQ : t'.get q = some Q) (hlt : q < t.nextPid) :
    ∃ Q₀, t.get q = some Q₀ ∧ Q.mainTask = Q₀.mainTask := by
  have hexit : ∀ {pid P exit}, t.get pid = some P → (exitTable t pid P exit).get q = some Q →
      ∃ Q₀, t.get q = some Q₀ ∧ Q.mainTask = Q₀.mainTask := by
    intro pid P exit hP hQ
    rcases get_exitTable_some hf hP hQ with ⟨rfl,rfl⟩ | ⟨-,-,Q₀,hQ₀,-,rfl⟩ | ⟨-,-,hQ⟩
    · exact ⟨P,hP,rfl⟩
    · exact ⟨Q₀,hQ₀,rfl⟩
    · exact ⟨Q,hQ,rfl⟩
  cases h with
  | same _ hk =>
    obtain ⟨Q₀,hQ₀,he⟩ := get_of_kin (hk q) hQ
    exact ⟨Q₀,hQ₀,(congrArg Kin.mainTask he).symm⟩
  | created hc =>
    rw [hc.get,if_neg (by rw [hc.pid_eq]; exact Nat.ne_of_lt hlt)] at hQ
    split at hQ
    · obtain ⟨Q₀,hQ₀,rfl⟩ := Option.map_eq_some_iff.mp hQ
      exact ⟨Q₀,hQ₀,rfl⟩
    · exact ⟨Q,hQ,rfl⟩
  | exited exit hP _ => exact hexit hP (get_reapOrphan_some hQ)
  | collectedExit exit hP _ _ _ =>
    obtain ⟨-,Q₁,hQ₁,rfl | ⟨-,rfl⟩⟩ := get_reapTable_some hQ
    · exact hexit hP hQ₁
    · rcases get_exitTable_some hf hP hQ₁ with ⟨rfl,rfl⟩ | ⟨-,-,Q₀,hQ₀,-,rfl⟩ | ⟨-,-,hQ₁⟩
      · exact ⟨_,hP,rfl⟩
      · exact ⟨Q₀,hQ₀,rfl⟩
      · exact ⟨Q₁,hQ₁,rfl⟩
  | collected _ _ _ _ =>
    obtain ⟨-,Q₁,hQ₁,rfl | ⟨-,rfl⟩⟩ := get_reapTable_some hQ
    · exact ⟨Q,hQ₁,rfl⟩
    · exact ⟨Q₁,hQ₁,rfl⟩

theorem gone (hf : Forest t) (h : TableStep t t') (hnone : t.get q = none) (hlt : q < t.nextPid) :
    t'.get q = none := by
  cases hQ : t'.get q with
  | none => rfl
  | some Q =>
    obtain ⟨Q₀,hQ₀,-⟩ := h.kept hf hQ hlt
    rw [hnone] at hQ₀
    cases hQ₀

end TableStep

def ParentsAlive (t : ProcessTable) : Prop := ∀ (c p : ProcessId) (C : Process),
  t.get c = some C → C.parent = some p →
  ∃ P, t.get p = some P ∧ P.state = .running ∧ c ∈ P.children

def NewParentsRun (t t' : ProcessTable) : Prop := ∀ {c p : ProcessId} {C P : Process} {exit : ProcessExit},
  t'.get c = some C → t.get c = none → C.parent = some p → t.get p = some P → P.state ≠ .zombie exit

theorem running_of_not_zombie (h : ∀ exit, P.state ≠ .zombie exit) : P.state = .running := by
  cases hs : P.state with
  | running => rfl
  | zombie exit => exact absurd hs (h exit)

theorem exitTable_survives (hf : Forest t) (hP : t.get pid = some P) {exit : ProcessExit}
    (hQ : t.get q = some Q) (hrun : Q.state = .running) (hne : q ≠ pid) :
    ∃ Q', (exitTable t pid P exit).get q = some Q' ∧ Q'.state = .running ∧ Q'.children = Q.children := by
  rw [get_exitTable hf hP,if_neg hne,hQ]
  split
  · exact ⟨orphan Q,orphanOrReap_eq_some.mpr ⟨hrun,rfl⟩,hrun,rfl⟩
  · exact ⟨Q,rfl,hrun,rfl⟩

namespace ParentsAlive

theorem exitTable (hf : Forest t) (h : ParentsAlive t) (hP : t.get pid = some P) {exit : ProcessExit} :
    ParentsAlive (exitTable t pid P exit) := by
  intro c p C hC hparent
  have hother : ∀ {C₀ : Process}, t.get c = some C₀ → C₀.parent = some p → c ∉ P.children →
      ∃ Q, (VladOs.exitTable t pid P exit).get p = some Q ∧ Q.state = .running ∧ c ∈ Q.children := by
    intro C₀ hC₀ hpar hnot
    obtain ⟨Q,hQ,hrun,hmem⟩ := h _ _ _ hC₀ hpar
    have hne : p ≠ pid := by
      rintro rfl
      rw [hP] at hQ
      cases hQ
      exact hnot hmem
    obtain ⟨Q',hQ',hrun',hch⟩ := exitTable_survives hf hP hQ hrun hne
    exact ⟨Q',hQ',hrun',hch ▸ hmem⟩
  rcases get_exitTable_some hf hP hC with ⟨rfl,rfl⟩ | ⟨-,-,C₀,-,-,rfl⟩ | ⟨-,hnot,hC⟩
  · exact hother hP hparent (hf.self_notMem hP)
  · cases hparent
  · exact hother hC hparent hnot

theorem reapTable (h : ParentsAlive t) (hC : t.get child = some C) (hz : C.state ≠ .running) :
    ParentsAlive (reapTable t parent child) := by
  intro c p D hD hparent
  obtain ⟨hne,D₀,hD₀,hD⟩ := get_reapTable_some hD
  have hparent₀ : D₀.parent = some p := by
    rcases hD with rfl | ⟨-,rfl⟩
    · exact hparent
    · exact hparent
  obtain ⟨Q,hQ,hrun,hmem⟩ := h _ _ _ hD₀ hparent₀
  have hpne : p ≠ child := by
    rintro rfl
    rw [hC] at hQ
    cases hQ
    exact hz hrun
  rw [VladOs.reapTable,get_reapChild,if_neg hpne,hQ]
  split
  · exact ⟨removeChild child Q,rfl,hrun,List.mem_filter.mpr ⟨hmem,by simpa using hne⟩⟩
  · exact ⟨Q,rfl,hrun,hmem⟩

theorem reapOrphan (h : ParentsAlive t) (pid : ProcessId) : ParentsAlive (t.reapOrphanIfZombie pid) := by
  intro c p C hC hparent
  obtain ⟨Q,hQ,hrun,hmem⟩ := h _ _ _ (get_reapOrphan_some hC) hparent
  refine ⟨Q,?_,hrun,hmem⟩
  rw [get_reapOrphanIfZombie,hQ]
  split
  · rw [Option.bind_some,unlessDeadOrphan,if_neg]
    simp [Process.isZombie,hrun]
  · rfl

theorem created (hf : Forest t) (h : ParentsAlive t) {space : AddressSpace} {heap : UserHeap}
    {table : FdTable} {task : TaskId} {parent : Option ProcessId}
    (hc : Forest.Created t parent (newProcess pid parent space heap table task) pid t')
    (hnew : NewParentsRun t t') : ParentsAlive t' := by
  have hfresh : t.get pid = none := by
    cases hP : t.get pid with
    | none => rfl
    | some P =>
      have hlt := (hf.slot hP).2.2
      rw [hc.pid_eq] at hlt
      exact absurd hlt (Nat.lt_irrefl _)
  have halive : ∀ {p : ProcessId} {Q : Process}, t.get p = some Q → Q.state = .running →
      ∃ Q', t'.get p = some Q' ∧ Q'.state = .running ∧ (∀ c ∈ Q.children, c ∈ Q'.children) ∧
        (parent = some p → pid ∈ Q'.children) := by
    intro p Q hQ hrun
    have hne : p ≠ pid := by
      rintro rfl
      rw [hfresh] at hQ
      cases hQ
    rw [hc.get,if_neg hne,hQ]
    split
    · exact ⟨addChild pid Q,rfl,hrun,fun c hc => List.mem_append_left _ hc,
        fun _ => List.mem_append_right _ (List.mem_singleton_self _)⟩
    · next hpar => exact ⟨Q,rfl,hrun,fun c hc => hc,fun hp => absurd hp hpar⟩
  intro c p C hC hparent
  have hC' := hC
  rw [hc.get] at hC
  split at hC
  · next hpid =>
    subst hpid
    cases hC
    have hpar : parent = some p := hparent
    obtain ⟨Q,hQ⟩ := hc.parent_found hpar
    have hrun := running_of_not_zombie fun exit => hnew hC' hfresh hparent hQ
    obtain ⟨Q',hQ',hrun',-,hin⟩ := halive hQ hrun
    exact ⟨Q',hQ',hrun',hin hpar⟩
  · have hC₀ : ∃ C₀, t.get c = some C₀ ∧ C₀.parent = some p := by
      split at hC
      · obtain ⟨C₀,hC₀,rfl⟩ := Option.map_eq_some_iff.mp hC
        exact ⟨C₀,hC₀,hparent⟩
      · exact ⟨C,hC,hparent⟩
    obtain ⟨C₀,hC₀,hpar₀⟩ := hC₀
    obtain ⟨Q,hQ,hrun,hmem⟩ := h _ _ _ hC₀ hpar₀
    obtain ⟨Q',hQ',hrun',hch,-⟩ := halive hQ hrun
    exact ⟨Q',hQ',hrun',hch c hmem⟩

theorem step (hf : Forest t) (h : ParentsAlive t) (hs : TableStep t t') (hnew : NewParentsRun t t') :
    ParentsAlive t' := by
  cases hs with
  | same _ hk =>
    intro c p C hC hparent
    obtain ⟨C₀,hC₀,he⟩ := get_of_kin (hk c) hC
    obtain ⟨Q,hQ,hrun,hmem⟩ := h _ _ _ hC₀ ((congrArg Kin.parent he).trans hparent)
    obtain ⟨Q',hQ',he'⟩ := get_of_kin (hk p).symm hQ
    exact ⟨Q',hQ',(congrArg Kin.state he').trans hrun,
      (show Q'.children = Q.children from congrArg Kin.children he') ▸ hmem⟩
  | created hc => exact h.created hf hc hnew
  | exited exit hP _ => exact reapOrphan (h.exitTable hf hP) _
  | @collectedExit pid _ P _ exit hP _ _ _ =>
    have hget : (VladOs.exitTable t pid P exit).get pid = some (ProcessTable.exited exit P) := by
      rw [get_exitTable hf hP,if_pos rfl,hP]
      rfl
    exact reapTable (h.exitTable hf hP) hget fun hc => by cases hc
  | collected _ _ hC hz => exact h.reapTable hC (by rw [hz]; exact fun hc => by cases hc)

end ParentsAlive

end VladOs
