import VladOs.Process.Table

namespace VladOs

structure Forest (t : ProcessTable) : Prop where
  slots : t.processes = [] ∨ t.processes.length = MAX_PROCESSES + 1
  nextPid_pos : 1 ≤ t.nextPid
  nextPid_le : t.nextPid ≤ MAX_PROCESSES + 1
  slot : ∀ {i P}, t.get i = some P → P.pid = i ∧ 1 ≤ i ∧ i < t.nextPid
  child : ∀ {p P c}, t.get p = some P → c ∈ P.children →
    ∃ C, t.get c = some C ∧ p < c ∧ C.parent = some p
  nodup : ∀ {p P}, t.get p = some P → P.children.Nodup
  orphan : ∀ {c C}, t.get c = some C → C.orphaned = true → C.parent = none

def OrphansRun (t : ProcessTable) : Prop :=
  ∀ {c C}, t.get c = some C → C.orphaned = true → C.state = .running

namespace Forest

open ProcessTable

variable {t t' : ProcessTable} {pid q p c : ProcessId} {P C : Process}

theorem new : Forest .new where
  slots := Or.inl rfl
  nextPid_pos := le_refl _
  nextPid_le := by norm_num [ProcessTable.new]
  slot h := by simp [ProcessTable.new,ProcessTable.get] at h
  child h := by simp [ProcessTable.new,ProcessTable.get] at h
  nodup h := by simp [ProcessTable.new,ProcessTable.get] at h
  orphan h := by simp [ProcessTable.new,ProcessTable.get] at h

theorem slots_of_length (h : Forest t) (hl : t'.processes.length = t.processes.length) :
    t'.processes = [] ∨ t'.processes.length = MAX_PROCESSES + 1 := by
  rcases h.slots with hs | hs
  · rw [hs,List.length_nil] at hl
    exact Or.inl (List.length_eq_zero_iff.mp hl)
  · exact Or.inr (hl.trans hs)

theorem self_notMem (h : Forest t) (hp : t.get p = some P) : p ∉ P.children := by
  intro hc
  obtain ⟨C,-,hlt,-⟩ := h.child hp hc
  exact Nat.lt_irrefl p hlt

theorem child_unique (h : Forest t) {p' : ProcessId} {P' : Process} (hp : t.get p = some P)
    (hp' : t.get p' = some P') (hc : c ∈ P.children) (hc' : c ∈ P'.children) : p = p' := by
  obtain ⟨C,hC,-,h₁⟩ := h.child hp hc
  obtain ⟨C',hC',-,h₂⟩ := h.child hp' hc'
  rw [hC] at hC'
  cases hC'
  rw [h₁] at h₂
  exact Option.some.inj h₂

theorem orphan_notMem (h : Forest t) (hc : t.get c = some C) (ho : C.orphaned = true)
    (hp : t.get p = some P) : c ∉ P.children := by
  intro hmem
  obtain ⟨C',hC',-,hparent⟩ := h.child hp hmem
  rw [hc] at hC'
  cases hC'
  rw [h.orphan hc ho] at hparent
  cases hparent

theorem modify (h : Forest t) {f : Process → Process}
    (hf : ∀ P, (f P).pid = P.pid ∧ (f P).parent = P.parent ∧ (f P).children = P.children ∧
      (f P).orphaned = P.orphaned) : Forest (t.modify pid f) := by
  have hget : ∀ {q Q}, (t.modify pid f).get q = some Q → ∃ Q₀, t.get q = some Q₀ ∧
      Q.pid = Q₀.pid ∧ Q.parent = Q₀.parent ∧ Q.children = Q₀.children ∧
        Q.orphaned = Q₀.orphaned := by
    intro q Q hq
    rw [get_modify] at hq
    split at hq
    · obtain ⟨Q₀,h₀,rfl⟩ := Option.map_eq_some_iff.mp hq
      exact ⟨Q₀,h₀,hf Q₀⟩
    · exact ⟨Q,hq,rfl,rfl,rfl,rfl⟩
  refine ⟨h.slots_of_length modify_length,h.nextPid_pos,h.nextPid_le,?_,?_,?_,?_⟩
  · intro i Q hQ
    obtain ⟨Q₀,h₀,hpid,-⟩ := hget hQ
    rw [hpid]
    exact h.slot h₀
  · intro q Q c hQ hc
    obtain ⟨Q₀,h₀,-,-,hch,-⟩ := hget hQ
    rw [hch] at hc
    obtain ⟨C,hC,hlt,hpar⟩ := h.child h₀ hc
    refine ⟨if c = pid then f C else C,?_,hlt,?_⟩
    · rw [get_modify,hC]
      split <;> rfl
    · split
      · rw [(hf C).2.1,hpar]
      · exact hpar
  · intro q Q hQ
    obtain ⟨Q₀,h₀,-,-,hch,-⟩ := hget hQ
    rw [hch]
    exact h.nodup h₀
  · intro q Q hQ ho
    obtain ⟨Q₀,h₀,-,hpar,-,hor⟩ := hget hQ
    rw [hpar]
    exact h.orphan h₀ (hor ▸ ho)

theorem remove (h : Forest t) (hnot : ∀ {q Q}, t.get q = some Q → pid ∉ Q.children) :
    Forest (t.remove pid) := by
  have hget : ∀ {q Q}, (t.remove pid).get q = some Q → t.get q = some Q := by
    intro q Q hq
    rw [get_remove] at hq
    split at hq
    · cases hq
    · exact hq
  refine ⟨h.slots_of_length remove_length,h.nextPid_pos,h.nextPid_le,fun hq => h.slot (hget hq),?_,
    fun hq => h.nodup (hget hq),fun hq => h.orphan (hget hq)⟩
  intro q Q c hQ hc
  obtain ⟨C,hC,hrest⟩ := h.child (hget hQ) hc
  refine ⟨C,?_,hrest⟩
  rw [get_remove,if_neg]
  · exact hC
  · rintro rfl
    exact hnot (hget hQ) hc

theorem reapChild (h : Forest t) (hP : t.get p = some P) (hc : c ∈ P.children) :
    Forest ((t.modify p (removeChild c)).remove c) := by
  have hget : ∀ {q Q}, ((t.modify p (removeChild c)).remove c).get q = some Q →
      q ≠ c ∧ ∃ Q₀, t.get q = some Q₀ ∧ Q.pid = Q₀.pid ∧ Q.parent = Q₀.parent ∧
        Q.orphaned = Q₀.orphaned ∧ Q.children = Q₀.children.filter (· ≠ c) := by
    intro q Q hq
    rw [get_reapChild] at hq
    split at hq
    · cases hq
    · next hqc =>
      refine ⟨hqc,?_⟩
      split at hq
      · obtain ⟨Q₀,h₀,rfl⟩ := Option.map_eq_some_iff.mp hq
        exact ⟨Q₀,h₀,rfl,rfl,rfl,rfl⟩
      · next hqp =>
        refine ⟨Q,hq,rfl,rfl,rfl,(List.filter_eq_self.mpr ?_).symm⟩
        intro a ha
        rw [decide_eq_true_eq]
        rintro rfl
        exact hqp (h.child_unique hq hP ha hc)
  refine ⟨h.slots_of_length (by simp),h.nextPid_pos,h.nextPid_le,?_,?_,?_,?_⟩
  · intro q Q hQ
    obtain ⟨-,Q₀,h₀,hpid,-⟩ := hget hQ
    rw [hpid]
    exact h.slot h₀
  · intro q Q d hQ hd
    obtain ⟨-,Q₀,h₀,-,-,-,hch⟩ := hget hQ
    rw [hch,List.mem_filter,decide_eq_true_eq] at hd
    obtain ⟨D,hD,hlt,hpar⟩ := h.child h₀ hd.1
    refine ⟨if d = p then removeChild c D else D,?_,hlt,?_⟩
    · rw [get_reapChild,if_neg hd.2,hD]
      split <;> rfl
    · split <;> exact hpar
  · intro q Q hQ
    obtain ⟨-,Q₀,h₀,-,-,-,hch⟩ := hget hQ
    rw [hch]
    exact (h.nodup h₀).filter _
  · intro q Q hQ ho
    obtain ⟨-,Q₀,h₀,-,hpar,hor,-⟩ := hget hQ
    rw [hpar]
    exact h.orphan h₀ (hor ▸ ho)

theorem reapOrphanIfZombie (h : Forest t) : Forest (t.reapOrphanIfZombie pid) := by
  unfold ProcessTable.reapOrphanIfZombie
  split
  · exact h
  · next process hp =>
    split
    · next ho =>
      refine h.remove ?_
      intro q Q hQ
      exact h.orphan_notMem hp (Bool.and_eq_true_iff.mp ho).1 hQ
    · exact h

theorem markExited (h : Forest t) (hP : t.get pid = some P) (exit : ProcessExit) :
    Forest (P.children.foldl orphanChild (t.modify pid (exited exit))) := by
  have hgets := fun q => @get_markExited t pid P exit (h.nodup hP) (h.self_notMem hP) q
  have hlen := (foldl_orphanChild_length (t := t.modify pid (exited exit)) P.children).trans modify_length
  have hnext := foldl_orphanChild_nextPid (t := t.modify pid (exited exit)) P.children
  generalize P.children.foldl orphanChild (t.modify pid (exited exit)) = t' at *
  have hnext' : t'.nextPid = t.nextPid := hnext
  have hget : ∀ {q Q}, t'.get q = some Q → ∃ Q₀, t.get q = some Q₀ ∧ Q.pid = Q₀.pid ∧
      (q = pid ∧ Q.children = [] ∧ Q.parent = Q₀.parent ∧ Q.orphaned = Q₀.orphaned ∨
        q ≠ pid ∧ Q.children = Q₀.children ∧
          (q ∈ P.children ∧ Q.parent = none ∨
            q ∉ P.children ∧ Q.parent = Q₀.parent ∧ Q.orphaned = Q₀.orphaned)) := by
    intro q Q hq
    rw [hgets] at hq
    split at hq
    · next hqp =>
      obtain ⟨Q₀,h₀,rfl⟩ := Option.map_eq_some_iff.mp hq
      exact ⟨Q₀,h₀,rfl,Or.inl ⟨hqp,rfl,rfl,rfl⟩⟩
    · next hqp =>
      split at hq
      · next hqc =>
        obtain ⟨Q₀,h₀,hor⟩ := Option.bind_eq_some_iff.mp hq
        unfold orphanOrReap at hor
        split at hor
        · cases hor
        · cases hor
          exact ⟨Q₀,h₀,rfl,Or.inr ⟨hqp,rfl,Or.inl ⟨hqc,rfl⟩⟩⟩
      · next hqc => exact ⟨Q,hq,rfl,Or.inr ⟨hqp,rfl,Or.inr ⟨hqc,rfl,rfl⟩⟩⟩
  refine ⟨h.slots_of_length hlen,by rw [hnext']; exact h.nextPid_pos,by rw [hnext']; exact h.nextPid_le,
    ?_,?_,?_,?_⟩
  · intro q Q hQ
    obtain ⟨Q₀,h₀,hpid,-⟩ := hget hQ
    rw [hpid,hnext']
    exact h.slot h₀
  · intro q Q d hQ hd
    obtain ⟨Q₀,h₀,-,hcase⟩ := hget hQ
    rcases hcase with ⟨-,hnil,-⟩ | ⟨hqp,hch,-⟩
    · simp [hnil] at hd
    · rw [hch] at hd
      obtain ⟨D,hD,hlt,hpar⟩ := h.child h₀ hd
      have hdP : d ∉ P.children := fun hc => hqp (h.child_unique h₀ hP hd hc)
      refine ⟨if d = pid then exited exit D else D,?_,hlt,?_⟩
      · rw [hgets,hD,if_neg hdP]
        split <;> rfl
      · split <;> exact hpar
  · intro q Q hQ
    obtain ⟨Q₀,h₀,-,hcase⟩ := hget hQ
    rcases hcase with ⟨-,hnil,-⟩ | ⟨-,hch,-⟩
    · rw [hnil]
      exact List.nodup_nil
    · rw [hch]
      exact h.nodup h₀
  · intro q Q hQ ho
    obtain ⟨Q₀,h₀,-,hcase⟩ := hget hQ
    rcases hcase with ⟨-,-,hpar,hor⟩ | ⟨-,-,⟨-,hpar⟩ | ⟨-,hpar,hor⟩⟩
    · rw [hpar]
      exact h.orphan h₀ (hor ▸ ho)
    · exact hpar
    · rw [hpar]
      exact h.orphan h₀ (hor ▸ ho)

open Code

structure Created (t : ProcessTable) (parent : Option ProcessId) (process : Process)
    (pid : ProcessId) (t' : ProcessTable) : Prop where
  pid_eq : pid = t.nextPid
  nextPid : t'.nextPid = t.nextPid + 1
  length : t'.processes.length = MAX_PROCESSES + 1
  room : t.nextPid ≤ MAX_PROCESSES
  parent_found : ∀ {q}, parent = some q → ∃ Q, t.get q = some Q
  get : ∀ q, t'.get q = if q = pid then some process
    else if parent = some q then (t.get q).map (addChild pid) else t.get q

theorem Created.get_cases {parent : Option ProcessId} {process Q : Process}
    (hc : Created t parent process pid t') (hQ : t'.get q = some Q) :
    q = pid ∧ Q = process ∨
    q ≠ pid ∧ ∃ Q₀, t.get q = some Q₀ ∧ Q.pid = Q₀.pid ∧ Q.parent = Q₀.parent ∧
      Q.orphaned = Q₀.orphaned ∧ (parent = some q ∧ Q.children = Q₀.children ++ [pid] ∨
        parent ≠ some q ∧ Q.children = Q₀.children) := by
  rw [hc.get] at hQ
  split at hQ
  · next hqp => exact Or.inl ⟨hqp,(Option.some.inj hQ).symm⟩
  · next hqp =>
    refine Or.inr ⟨hqp,?_⟩
    split at hQ
    · next hpar =>
      obtain ⟨Q₀,h₀,rfl⟩ := Option.map_eq_some_iff.mp hQ
      exact ⟨Q₀,h₀,rfl,rfl,rfl,Or.inl ⟨hpar,rfl⟩⟩
    · next hpar => exact ⟨Q,hQ,rfl,rfl,rfl,Or.inr ⟨hpar,rfl⟩⟩

theorem fresh (h : Forest t) : t.get t.nextPid = none := by
  cases hP : t.get t.nextPid with
  | none => rfl
  | some P => exact absurd (h.slot hP).2.2 (Nat.lt_irrefl _)

theorem canCreate_room {parent : Option ProcessId} (hcan : t.canCreate parent = .ok ()) :
    t.nextPid ≤ MAX_PROCESSES ∧ ∀ {q}, parent = some q → ∃ Q, t.get q = some Q := by
  unfold canCreate at hcan
  split at hcan
  · cases hcan
  · split at hcan
    · cases hcan
    · next hn =>
      refine ⟨by omega,?_⟩
      rintro q rfl
      simp only at hcan
      split at hcan
      · next hsome => exact Option.isSome_iff_exists.mp hsome
      · cases hcan

theorem ensureSlots_nextPid : t.ensureSlots.nextPid = t.nextPid := by
  unfold ensureSlots
  split <;> rfl

theorem ensureSlots_length (h : Forest t) : t.ensureSlots.processes.length = MAX_PROCESSES + 1 := by
  unfold ensureSlots
  rcases h.slots with hs | hs
  · simp [hs]
  · have hne : t.processes.isEmpty = false := by
      cases hp : t.processes with
      | nil => simp [hp] at hs
      | cons _ _ => rfl
    simp [hne,hs]

theorem get_placed (h : Forest t) (hroom : t.nextPid ≤ MAX_PROCESSES) (process : Process)
    (q : ProcessId) :
    ProcessTable.get ⟨t.ensureSlots.processes.set t.nextPid (some process),t.nextPid + 1⟩ q =
      if q = t.nextPid then some process else t.get q := by
  rw [← get_ensureSlots t q,ProcessTable.get,ProcessTable.get,List.getElem?_set]
  by_cases hq : t.nextPid = q
  · subst hq
    have hlt : t.nextPid < t.ensureSlots.processes.length := by
      rw [h.ensureSlots_length]
      omega
    simp [hlt]
  · have hq' : q ≠ t.nextPid := fun hc => hq hc.symm
    simp [hq,hq']

theorem create_spec (h : Forest t) (parent : Option ProcessId) (space : AddressSpace)
    (heap : UserHeap) (fdTable : FdTable) (mainTask : TaskId) :
    Spec (create parent space heap fdTable mainTask) t
      (fun pid t' => Created t parent (newProcess pid parent space heap fdTable mainTask) pid t')
      (fun e t' => t' = t ∧ t.canCreate parent = .error e) := by
  rw [create,spec_bind,spec_read]
  cases hcan : t.canCreate parent with
  | error e =>
    simp only [spec_fail]
    exact ⟨trivial,trivial⟩
  | ok u =>
    have hroom := canCreate_room hcan
    have hlen := h.ensureSlots_length
    have hset := h.get_placed hroom.1
    simp only [spec_bind,spec_modify,spec_read,ensureSlots_nextPid]
    rw [if_pos (by rw [hlen]; omega)]
    simp only [spec_bind,spec_modify,ensureSlots_nextPid]
    cases hparent : parent with
    | none =>
      simp only [spec_pure]
      exact ⟨rfl,rfl,by simpa using hlen,hroom.1,by simp,fun q => by rw [hset]; rfl⟩
    | some p =>
      obtain ⟨P,hP⟩ := hroom.2 hparent
      have hpn : p ≠ t.nextPid := Nat.ne_of_lt (h.slot hP).2.2
      simp only [spec_bind,spec_read,hset,if_neg hpn,hP,spec_orAbort_some,spec_modify,spec_pure]
      refine ⟨rfl,rfl,by simpa using hlen,hroom.1,?_,?_⟩
      · rintro q hq
        cases hq
        exact ⟨P,hP⟩
      · intro q
        rw [get_modify,hset]
        by_cases hq : q = t.nextPid
        · subst hq
          simp [hpn.symm]
          rfl
        · by_cases hqp : q = p
          · subst hqp
            simp [hq]
            rfl
          · have hqp' : ¬ some p = some q := fun hc => hqp (Option.some.inj hc).symm
            simp [hq,hqp,hqp']

theorem created (h : Forest t) {parent : Option ProcessId} {space : AddressSpace} {heap : UserHeap}
    {fdTable : FdTable} {mainTask : TaskId}
    (hc : Created t parent (newProcess pid parent space heap fdTable mainTask) pid t') :
    Forest t' := by
  have hpid := hc.pid_eq
  have hfresh : t.get pid = none := hpid ▸ h.fresh
  have hnext := hc.nextPid
  have hroom := hc.room
  have hpos := h.nextPid_pos
  refine ⟨Or.inr hc.length,by omega,by omega,?_,?_,?_,?_⟩
  · intro q Q hQ
    rcases hc.get_cases hQ with ⟨rfl,rfl⟩ | ⟨-,Q₀,h₀,hp,-⟩
    · refine ⟨rfl,?_,?_⟩
      · rw [hpid]
        exact hpos
      · rw [hpid,hnext]
        exact Nat.lt_succ_self _
    · obtain ⟨h₁,h₂,h₃⟩ := h.slot h₀
      rw [hp,hnext]
      exact ⟨h₁,h₂,Nat.lt_succ_of_lt h₃⟩
  · intro q Q d hQ hd
    have hold : ∀ {q Q₀}, t.get q = some Q₀ → d ∈ Q₀.children →
        ∃ D, t'.get d = some D ∧ q < d ∧ D.parent = some q := by
      intro q Q₀ h₀ hd
      obtain ⟨D,hD,hlt,hpar⟩ := h.child h₀ hd
      have hdp : d ≠ pid := by
        rintro rfl
        simp [hfresh] at hD
      refine ⟨if parent = some d then addChild pid D else D,?_,hlt,?_⟩
      · rw [hc.get,if_neg hdp,hD]
        split <;> rfl
      · split <;> exact hpar
    rcases hc.get_cases hQ with ⟨rfl,rfl⟩ | ⟨-,Q₀,h₀,-,-,-,⟨hpar,hch⟩ | ⟨-,hch⟩⟩
    · cases hd
    · rw [hch] at hd
      rcases List.mem_append.mp hd with hd | hd
      · exact hold h₀ hd
      · rw [List.mem_singleton.mp hd]
        refine ⟨_,by rw [hc.get,if_pos rfl],?_,hpar⟩
        rw [hpid]
        exact (h.slot h₀).2.2
    · rw [hch] at hd
      exact hold h₀ hd
  · intro q Q hQ
    rcases hc.get_cases hQ with ⟨rfl,rfl⟩ | ⟨-,Q₀,h₀,-,-,-,⟨-,hch⟩ | ⟨-,hch⟩⟩
    · exact List.nodup_nil
    · rw [hch]
      refine List.nodup_append.mpr ⟨h.nodup h₀,by simp,?_⟩
      intro a ha b hb hab
      obtain ⟨C,hC,-⟩ := h.child h₀ ha
      rw [hab,List.mem_singleton.mp hb,hfresh] at hC
      cases hC
    · rw [hch]
      exact h.nodup h₀
  · intro q Q hQ ho
    rcases hc.get_cases hQ with ⟨rfl,rfl⟩ | ⟨-,Q₀,h₀,-,hpar,hor,-⟩
    · cases ho
    · rw [hpar]
      exact h.orphan h₀ (hor ▸ ho)

end Forest

end VladOs
