import VladOs.Memory.Spaces

namespace VladOs

open Paging Code

variable {B : BootMemory} {m m' m₁ : Memory} {r f : Frame} {n e : ℕ} {ε : Type}

structure WritesSpace (B : BootMemory) (m : Memory) (r : Frame) (m' : Memory) : Prop where
  sound : m'.Sound B
  leaf : m'.leaf = m.leaf
  spaces : m'.addressSpaces = m.addressSpaces
  next : m'.next = m.next
  bytes : ∀ g, (∀ n e, m.leaf r n ≠ some (g,e)) → m'.bytes g = m.bytes g

theorem WritesSpace.refl (hm : m.Sound B) : WritesSpace B m r m :=
  ⟨hm,rfl,rfl,rfl,fun _ _ => rfl⟩

theorem WritesSpace.trans (h : WritesSpace B m r m₁) (h' : WritesSpace B m₁ r m') :
    WritesSpace B m r m' := by
  refine ⟨h'.sound,h'.leaf.trans h.leaf,h'.spaces.trans h.spaces,h'.next.trans h.next,?_⟩
  intro g hg
  rw [h'.bytes g (by rwa [h.leaf]),h.bytes g hg]

theorem WritesSpace.page_of_ne (h : WritesSpace B m r m') (hm : m.Sound B) {r' : Frame}
    (hne : r' ≠ r) : m'.page r' = m.page r' := by
  obtain ⟨own,hm⟩ := hm
  funext n
  rw [Memory.page,Memory.page,h.leaf]
  cases hl : m.leaf r' n with
  | none => rfl
  | some x =>
    have hb : m'.bytes x.1 = m.bytes x.1 := by
      refine h.bytes x.1 ?_
      intro n' e' hl'
      exact hne (hm.leaf_injective hl hl').1
    simp only [Option.map_some,hb]

theorem WritesSpace.absent (h : WritesSpace B m r m') (r' : Frame) (n : ℕ) :
    m'.page r' n = none ↔ m.page r' n = none := by
  rw [Memory.page_eq_none,Memory.page_eq_none,h.leaf]

theorem Memory.Sound.writes_leaf (hm : m.Sound B) (hl : m.leaf r n = some (f,e)) (o : ℕ)
    (bs : List UInt8) : WritesSpace B m r (m.writeBytes f o bs) ∧
      (m.writeBytes f o bs).page r = (m.page r).put n (Page.store ⟨entryFlags e,m.bytes f⟩ o bs) := by
  have hmem : ∀ g, g ≠ f → m.bytes.writeBytes f o bs g = m.bytes g :=
    fun _ => PhysMem.writeBytes_of_ne
  obtain ⟨hs,hleaf,hpage⟩ := hm.write_page hl hmem
  refine ⟨⟨hs,hleaf,rfl,rfl,?_⟩,?_⟩
  · intro g hg
    refine hmem g ?_
    rintro rfl
    exact hg _ _ hl
  · rw [View.put,Page.store,← PageMap.set_self,← PhysMem.writeBytes_self]
    exact congrFun hpage r

theorem VirtAddr.pageNumber_eq (v : VirtAddr) : v.pageNumber = v.addr / 4096 := rfl

theorem translateUser_cases (hm : m.Sound B) (hr : r ∈ m.addressSpaces) (v : VirtAddr) :
    (m.page r (v.addr / 4096) = none ∧ AddressSpace.translateUser ⟨r⟩ m v = none) ∨
    ∃ f e, m.leaf r (v.addr / 4096) = some (f,e) ∧
      m.page r (v.addr / 4096) = some ⟨entryFlags e,m.bytes f⟩ ∧
      AddressSpace.translateUser ⟨r⟩ m v =
        some ⟨f * PAGE_SIZE + v.addr % PAGE_SIZE,entryFlags e⟩ := by
  rw [AddressSpace.translateUser_eq hm hr,v.pageNumber_eq]
  cases hl : m.leaf r (v.addr / 4096) with
  | none => exact Or.inl ⟨Memory.page_eq_none.mpr hl,rfl⟩
  | some x =>
    have hp : m.page r (v.addr / 4096) = some ⟨entryFlags x.2,m.bytes x.1⟩ := by
      rw [Memory.page,hl,Option.map_some]
    exact Or.inr ⟨x.1,x.2,rfl,hp,rfl⟩

structure Checks (c : Checker ε) (r : Frame)
    (check : VirtAddr → Memory → Except ε UserTranslation) : Prop where
  error : ∀ {B m v e}, m.Sound B → r ∈ m.addressSpaces → c.check (m.page r) v.addr = .error e →
    check v m = .error e
  ok : ∀ {B m v p}, m.Sound B → r ∈ m.addressSpaces → c.check (m.page r) v.addr = .ok p →
    ∃ f e, m.leaf r (v.addr / 4096) = some (f,e) ∧ p = ⟨entryFlags e,m.bytes f⟩ ∧
      check v m = .ok ⟨f * PAGE_SIZE + v.addr % PAGE_SIZE,entryFlags e⟩

def mappedChecker : Checker UserCopyError := ⟨fun _ => .notMapped,fun _ _ => none⟩

theorem mappedOr_eq (space : AddressSpace) (v : VirtAddr) (m : Memory) :
    space.mappedOr v m = okOr (space.translateUser m v) .notMapped := rfl

theorem mappedOr_checks (r : Frame) : Checks mappedChecker r (AddressSpace.mappedOr ⟨r⟩) := by
  refine ⟨?_,?_⟩
  · intro B m v e hm hr h
    rcases translateUser_cases hm hr v with ⟨hp,ht⟩ | ⟨f,e',-,hp,-⟩
    · rw [mappedOr_eq,ht,okOr_none]
      simpa [Checker.check,mappedChecker,hp] using h
    · simp [Checker.check,mappedChecker,hp] at h
  · intro B m v p hm hr h
    rcases translateUser_cases hm hr v with ⟨hp,-⟩ | ⟨f,e,hl,hp,ht⟩
    · simp [Checker.check,hp] at h
    · refine ⟨f,e,hl,?_,by rw [mappedOr_eq,ht,okOr_some]⟩
      have hv := (Checker.check_eq_ok.mp h).1
      exact Option.some.inj (hv.symm.trans hp)

def InUserRange (n : ℕ) : Prop := USER_BASE / 4096 ≤ n ∧ n < USER_STACK_TOP / 4096

instance (n : ℕ) : Decidable (InUserRange n) := inferInstanceAs (Decidable (_ ∧ _))

def userChecker (access : Access) : Checker UserMemoryError where
  absent n := if InUserRange n then .unmapped else .outsideUserRange
  refuse n flags :=
    if ¬ InUserRange n then some .outsideUserRange
    else if access = .write ∧ contains flags WRITABLE = false then some .notWritable
    else none

theorem inUserRange_iff {a : ℕ} :
    InUserRange (a / 4096) ↔ USER_BASE ≤ a ∧ a < USER_STACK_TOP := by
  unfold InUserRange USER_BASE USER_STACK_TOP
  omega

theorem userChecker_ok {access : Access} {view : View} {a : ℕ} {p : Page} :
    (userChecker access).check view a = .ok p ↔ view (a / 4096) = some p ∧
      (USER_BASE ≤ a ∧ a < USER_STACK_TOP) ∧
      (access = .write → contains p.flags WRITABLE = true) := by
  rw [Checker.check_eq_ok,← inUserRange_iff]
  refine and_congr_right fun _ => ?_
  simp only [userChecker]
  by_cases hin : InUserRange (a / 4096)
  · simp [hin]
  · simp [hin]

theorem validateUserByte_outside {space : AddressSpace} {access : Access} {v : VirtAddr}
    (h : ¬ InUserRange (v.addr / 4096)) :
    UserMemory.validateUserByte space access v m = .error .outsideUserRange := by
  rw [inUserRange_iff] at h
  exact if_pos h

theorem validateUserByte_inside {space : AddressSpace} {access : Access} {v : VirtAddr}
    (h : InUserRange (v.addr / 4096)) :
    UserMemory.validateUserByte space access v m =
      (okOr (space.translateUser m v) .unmapped).bind fun translation =>
        if access = .write ∧ contains translation.flags WRITABLE = false then .error .notWritable
        else .ok translation := by
  rw [inUserRange_iff] at h
  exact if_neg (not_not.mpr h)

theorem validateUserByte_checks (r : Frame) (access : Access) :
    Checks (userChecker access) r (UserMemory.validateUserByte ⟨r⟩ access) := by
  refine ⟨?_,?_⟩
  · intro B m v e hm hr h
    by_cases hin : InUserRange (v.addr / 4096)
    · rw [validateUserByte_inside hin]
      rcases translateUser_cases hm hr v with ⟨hp,ht⟩ | ⟨f,e',-,hp,ht⟩
      · rw [ht]
        simpa [Checker.check,userChecker,hp,hin,Except.bind] using h
      · rw [ht]
        by_cases hw : access = .write ∧ contains (entryFlags e') WRITABLE = false
        · simpa [Checker.check,userChecker,hp,hin,hw,Except.bind] using h
        · simp [Checker.check,userChecker,hp,hin,hw] at h
    · rw [validateUserByte_outside hin]
      unfold Checker.check at h
      cases hp : m.page r (v.addr / 4096) <;> simpa [userChecker,hp,hin] using h
  · intro B m v p hm hr h
    obtain ⟨hv,hin,hw⟩ := userChecker_ok.mp h
    rcases translateUser_cases hm hr v with ⟨hp,-⟩ | ⟨f,e,hl,hp,ht⟩
    · simp [hp] at hv
    · obtain rfl := Option.some.inj (hv.symm.trans hp)
      refine ⟨f,e,hl,rfl,?_⟩
      rw [validateUserByte_inside (inUserRange_iff.mpr hin),ht]
      refine if_neg ?_
      rintro ⟨hc,hn⟩
      simp [hw hc] at hn

theorem userPage_lt (h : UserPage (n / 4096)) : n / 4096 * 4096 + 4096 ≤ 2 ^ 40 := by
  unfold UserPage USER_P4_INDEX at h
  omega

theorem virtAddr_offset {v : VirtAddr} {copied : ℕ} (h : copied = 0 ∨ v.addr + copied ≤ 2 ^ 40) :
    checkedAdd v.addr copied = some (v.addr + copied) ∧
      ∃ w, VirtAddr.new (v.addr + copied) = some w ∧ w.addr = v.addr + copied := by
  have hlt := v.lt
  refine ⟨checkedAdd_of_lt (by omega),?_⟩
  rcases h with rfl | h
  · exact ⟨v,v.new_addr,rfl⟩
  · exact ⟨_,VirtAddr.new_of_lt (by omega),rfl⟩

theorem chunk_phys (f a remaining : ℕ) :
    chunk (f * PAGE_SIZE + a % PAGE_SIZE) remaining = min remaining (4096 - a % 4096) := by
  rw [chunk,phys_mod]

section

variable {c : Checker ε} {check : VirtAddr → Memory → Except ε UserTranslation} {overflow : ε}

theorem readChunks_spec (hc : Checks c r check) (hm : m.Sound B) (hr : r ∈ m.addressSpaces)
    (src : VirtAddr) (len copied : ℕ) (hpos : copied = 0 ∨ src.addr + copied ≤ 2 ^ 40) :
    Spec (readChunks check overflow src len copied) m
      (fun bs m' => m' = m ∧ readBytes c (m.page r) (src.addr + copied) (len - copied) = .ok bs)
      (fun e m' => m' = m ∧ readBytes c (m.page r) (src.addr + copied) (len - copied) = .error e) := by
  generalize hk : len - copied = k
  induction k using Nat.strong_induction_on generalizing copied with
  | _ k ih =>
    rw [readChunks]
    by_cases hlt : copied < len
    · obtain ⟨hadd,v,hnew,hv⟩ := virtAddr_offset hpos
      rw [dif_pos hlt]
      simp only [spec_bind,hadd,hnew,spec_orFail_some,spec_orAbort_some,spec_read]
      obtain ⟨j,rfl⟩ : ∃ j, k = j + 1 := ⟨k - 1,by omega⟩
      cases hcheck : c.check (m.page r) (src.addr + copied) with
      | error e =>
        rw [← hv] at hcheck
        rw [hc.error hm hr hcheck]
        simp only [spec_fail]
        rw [hv] at hcheck
        exact ⟨trivial,by simp [readBytes,hcheck]⟩
      | ok p =>
        obtain ⟨f,e,hl,rfl,hok⟩ := hc.ok hm hr (hv ▸ hcheck)
        have huser := userPage_lt (Memory.leaf_space hl).2
        rw [hok]
        simp only [spec_bind,spec_pure,phys_div,phys_mod,chunk_phys,hv] at huser ⊢
        generalize hcount : min (len - copied) (4096 - (src.addr + copied) % 4096) = count
        have hmod : (src.addr + copied) % 4096 < 4096 := Nat.mod_lt _ (by norm_num)
        have hfit : (src.addr + copied) % 4096 + count ≤ 4096 := by omega
        have hle : count ≤ j + 1 := by omega
        have hpos' : 0 < count := by omega
        have hchunk : readBytes c (m.page r) (src.addr + copied) (count + (j + 1 - count)) = _ :=
          readBytes_chunk (Or.inr hcheck) hfit
        rw [Nat.add_sub_cancel' hle,Nat.add_assoc] at hchunk
        refine (ih (j + 1 - count) (by omega) (copied + count) (Or.inr (by omega)) (by omega)).mono ?_ ?_
        · rintro bs m' ⟨rfl,hbs⟩
          rw [hbs] at hchunk
          exact ⟨rfl,hchunk⟩
        · rintro e' m' ⟨rfl,hbs⟩
          rw [hbs] at hchunk
          exact ⟨rfl,hchunk⟩
    · rw [dif_neg hlt,spec_pure]
      obtain rfl : k = 0 := by omega
      exact ⟨rfl,rfl⟩

theorem writeChunks_spec (hc : Checks c r check) (hm : m.Sound B) (hr : r ∈ m.addressSpaces)
    (dst : VirtAddr) (src : List UInt8) (copied : ℕ)
    (hpos : copied = 0 ∨ dst.addr + copied ≤ 2 ^ 40) :
    Spec (writeChunks check overflow dst src copied) m
      (fun _ m' => WritesSpace B m r m' ∧
        writeBytes c (m.page r) (dst.addr + copied) (src.drop copied) = (.ok (),m'.page r))
      (fun e m' => WritesSpace B m r m' ∧
        writeBytes c (m.page r) (dst.addr + copied) (src.drop copied) = (.error e,m'.page r)) := by
  generalize hk : src.length - copied = k
  induction k using Nat.strong_induction_on generalizing copied m with
  | _ k ih =>
    rw [writeChunks]
    by_cases hlt : copied < src.length
    · obtain ⟨hadd,v,hnew,hv⟩ := virtAddr_offset hpos
      rw [dif_pos hlt]
      simp only [spec_bind,hadd,hnew,spec_orFail_some,spec_orAbort_some,spec_read]
      cases hcheck : c.check (m.page r) (dst.addr + copied) with
      | error e =>
        rw [← hv] at hcheck
        rw [hc.error hm hr hcheck]
        simp only [spec_fail]
        rw [hv] at hcheck
        rw [List.drop_eq_getElem_cons hlt]
        exact ⟨.refl hm,by simp [writeBytes,hcheck]⟩
      | ok p =>
        obtain ⟨f,e,hl,rfl,hok⟩ := hc.ok hm hr (hv ▸ hcheck)
        have huser := userPage_lt (Memory.leaf_space hl).2
        rw [hok]
        simp only [spec_bind,spec_modify,phys_div,phys_mod,chunk_phys,hv] at huser hl ⊢
        generalize hcount : min (src.length - copied) (4096 - (dst.addr + copied) % 4096) = count
        have hmod : (dst.addr + copied) % 4096 < 4096 := Nat.mod_lt _ (by norm_num)
        have hlen : ((src.drop copied).take count).length = count := by
          rw [List.length_take,List.length_drop]
          omega
        have hfit : (dst.addr + copied) % 4096 + ((src.drop copied).take count).length ≤ 4096 := by
          omega
        have hne : (src.drop copied).take count ≠ [] := by
          rw [← List.length_pos_iff]
          omega
        have hchunk : writeBytes c (m.page r) (dst.addr + copied)
            ((src.drop copied).take count ++ src.drop (copied + count)) = _ :=
          writeBytes_chunk hcheck hne hfit
        have hsplit : (src.drop copied).take count ++ src.drop (copied + count) = src.drop copied := by
          rw [← List.drop_drop,List.take_append_drop]
        rw [hsplit,hlen,Nat.add_assoc] at hchunk
        obtain ⟨hw,hview⟩ := hm.writes_leaf hl ((dst.addr + copied) % 4096) ((src.drop copied).take count)
        rw [← hview] at hchunk
        have hr₁ := hw.spaces ▸ hr
        refine (ih (k - count) (by omega) hw.sound hr₁ (copied + count) (Or.inr (by omega))
          (by omega)).mono ?_ ?_
        · rintro - m' ⟨hw',hbs⟩
          exact ⟨hw.trans hw',hchunk.trans hbs⟩
        · rintro e' m' ⟨hw',hbs⟩
          exact ⟨hw.trans hw',hchunk.trans hbs⟩
    · rw [dif_neg hlt,spec_pure,List.drop_eq_nil_of_le (by omega)]
      exact ⟨.refl hm,rfl⟩

end

end VladOs
