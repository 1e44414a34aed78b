import VladOs.Library.Amd64Step
import VladOs.Machine.Private

namespace VladOs

open Amd64 Paging

structure Locked (v : ProcessView) (n : ℕ) (p : Page) : Prop where
  page : v.pages n = some p
  readOnly : contains p.flags WRITABLE = false
  below : n < v.heap.start.addr / 4096
  heap : v.heap.start.addr / 4096 ≤ v.heap.mappedEnd.addr / 4096

structure Installed (base : ℕ) (code : List UInt8) (v : ProcessView) : Prop where
  present : CodeAt v.pages base code
  locked : ∀ k < code.length, ∃ p, Locked v ((base + k) / 4096) p

inductive PagesAfter (v : ProcessView) : ProcessView → Prop where
  | same (files : List (Option FileView)) : PagesAfter v { v with files := files }
  | written {address : ℕ} {bytes : List UInt8} {res : Except UserMemoryError Unit} {pages : View}
      (files : List (Option FileView)) :
      writeBytes (userChecker .write) v.pages address bytes = (res,pages) →
      PagesAfter v { v with
        pages := pages
        files := files }
  | moved {brk mappedEnd : VirtAddr} : v.heap.start.addr ≤ mappedEnd.addr →
      PagesAfter v (v.setBreak brk mappedEnd)

section

variable {v v' : ProcessView} {view view' : View} {n base : ℕ} {p : Page} {code : List UInt8}
  {stores : List Store} {st : Store} {isa : Isa} {pid : ProcessId} {l l' : PrivateMachine} {a : Activity}

theorem storeByteAt_flags (m : ℕ) : (storeByteAt view st m).map Page.flags = (view m).map Page.flags := by
  unfold storeByteAt
  cases hq : view (st.address.addr / 4096) with
  | none => rfl
  | some q => exact View.put_flags hq Page.store_flags m

theorem storeByteAt_locked (hcan : CanStore view st.address) (hp : view n = some p)
    (hlocked : contains p.flags WRITABLE = false) : storeByteAt view st n = some p := by
  obtain ⟨q,hq,hwritable⟩ := hcan
  have hne : n ≠ st.address.addr / 4096 := by
    rintro rfl
    cases hp.symm.trans hq
    rw [hlocked] at hwritable
    cases hwritable
  rw [storeByteAt,hq]
  exact (Function.update_of_ne hne ..).trans hp

theorem storeAll_locked (hcan : ∀ st ∈ stores, CanStore view st.address) (hp : view n = some p)
    (hlocked : contains p.flags WRITABLE = false) : storeAll view stores n = some p := by
  induction stores generalizing view with
  | nil => exact hp
  | cons st stores ih =>
    refine ih (fun st' hmem => ?_) (storeByteAt_locked (hcan st List.mem_cons_self) hp hlocked)
    obtain ⟨q,hq,hwritable⟩ := hcan st' (List.mem_cons_of_mem _ hmem)
    have hflags : (storeByteAt view st (st'.address.addr / 4096)).map Page.flags =
      (view (st'.address.addr / 4096)).map Page.flags := storeByteAt_flags _
    rw [hq,Option.map_some] at hflags
    obtain ⟨q',hq',hsame⟩ := Option.map_eq_some_iff.mp hflags
    exact ⟨q',hq',hsame ▸ hwritable⟩

theorem Locked.written (h : Locked v n p) {address : ℕ} {bytes : List UInt8}
    {res : Except UserMemoryError Unit} {pages : View}
    (hwrite : writeBytes (userChecker .write) v.pages address bytes = (res,pages)) :
    Locked { v with pages := pages } n p := by
  refine ⟨writeBytes_refused hwrite h.page ?_,h.readOnly,h.below,h.heap⟩
  simp only [userChecker,h.readOnly]
  split_ifs <;> simp_all

theorem Locked.moved (h : Locked v n p) {brk mappedEnd : VirtAddr}
    (hend : v.heap.start.addr ≤ mappedEnd.addr) : Locked (v.setBreak brk mappedEnd) n p := by
  have hbelow := h.below
  have hheap := h.heap
  refine ⟨?_,h.readOnly,h.below,Nat.div_le_div_right hend⟩
  change heapPages v.pages _ _ n = some p
  rw [heapPages,if_neg (by omega),if_neg (by omega)]
  exact h.page

theorem Locked.pagesAfter (h : Locked v n p) (hafter : PagesAfter v v') : Locked v' n p := by
  cases hafter with
  | same files => exact ⟨h.page,h.readOnly,h.below,h.heap⟩
  | written files hwrite =>
    obtain ⟨hpage,hro,hbelow,hheap⟩ := h.written hwrite
    exact ⟨hpage,hro,hbelow,hheap⟩
  | moved hend => exact h.moved hend

theorem openPath_pages {path : VirtAddr} {pathLen flags : ℕ} {outcome : CallOutcome}
    (h : v.openPath path pathLen flags = (outcome,v')) : PagesAfter v v' := by
  unfold ProcessView.openPath at h
  split_ifs at h
  · cases h
    exact .same v.files
  · cases h
    exact .same v.files
  · cases h
    exact .same v.files
  · split at h
    · cases h
      exact .same v.files
    · unfold ProcessView.openFile at h
      split at h
      · cases h
        exact .same v.files
      · split at h
        · cases h
          exact .same v.files
        · cases h
          exact .same _

theorem readFile_pages {fd len : ℕ} {buf : VirtAddr} {outcome : CallOutcome}
    (h : v.readFile fd buf len = (outcome,v')) : PagesAfter v v' := by
  unfold ProcessView.readFile at h
  split at h
  · cases h
    exact .same v.files
  · split at h
    · cases h
      exact .same v.files
    · split at h
      · cases h
        exact .same v.files
      · split at h
        · cases h
          exact .same v.files
        · cases h
          exact .same v.files
        · cases h
          exact .same v.files
        · split at h
          · cases h
            exact .same v.files
          · unfold ProcessView.readEmbedded at h
            split_ifs at h
            · cases h
              exact .same v.files
            · simp only at h
              split at h
              · next hw =>
                cases h
                exact .written v.files hw
              · next hw =>
                cases h
                exact .written _ hw

theorem writeFile_pages {fd len : ℕ} {buf : VirtAddr} {outcome : CallOutcome}
    (h : v.writeFile fd buf len = (outcome,v')) : v' = v := by
  unfold ProcessView.writeFile at h
  have hout : v.writeOut buf len = (outcome,v') → v' = v := by
    intro hw
    unfold ProcessView.writeOut at hw
    split at hw <;> cases hw <;> rfl
  split at h
  · cases h
    rfl
  · split at h
    · cases h
      rfl
    · split at h
      · cases h
        rfl
      · split at h
        · exact hout h
        · exact hout h
        · cases h
          rfl
        · cases h
          rfl

theorem le_new {x : ℕ} {address : VirtAddr} (h : VirtAddr.new x = some address) : x ≤ address.addr := by
  unfold VirtAddr.new at h
  split_ifs at h
  · cases h
    exact le_rfl
  · cases h
    exact le_rfl
  · cases h
    exact Nat.le_add_right _ _

theorem moveBreak_pages {requested : ℕ} {outcome : CallOutcome}
    (h : v.moveBreak requested = (outcome,v')) : PagesAfter v v' := by
  unfold ProcessView.moveBreak at h
  split_ifs at h with hzero hlow hhigh hsame
  · cases h
    exact .same v.files
  · cases h
    exact .same v.files
  · cases h
    exact .same v.files
  · cases h
    exact .same v.files
  · split at h
    · next brk mappedEnd hbrk hend =>
      cases h
      have hle := le_new hend
      exact .moved (by omega)
    · cases h
      exact .same v.files

theorem call_pages {c : Call} {outcome : CallOutcome} (h : v.call pid c = (outcome,v')) :
    PagesAfter v v' := by
  cases c with
  | «open» path pathLen flags => exact openPath_pages h
  | read fd buf len => exact readFile_pages h
  | write fd buf len =>
    obtain rfl := writeFile_pages h
    exact .same _
  | close fd =>
    change v.closeFile fd = _ at h
    unfold ProcessView.closeFile at h
    split at h
    · cases h
      exact .same v.files
    · cases h
      exact .same _
  | brk requested => exact moveBreak_pages h
  | getPid =>
    cases h
    exact .same v.files

theorem StatusPut.pagesAfter {statusPtr : Option VirtAddr} {exit : ProcessExit} {pages' : View}
    (h : StatusPut v.pages statusPtr exit pages') : PagesAfter v { v with pages := pages' } := by
  cases statusPtr with
  | none =>
    obtain rfl : pages' = v.pages := h
    exact .same v.files
  | some address => exact .written v.files h

theorem Locked.step (h : Locked l.view n p) (hstep : PrivateMachine.Step isa pid l a l') :
    Locked l'.view n p := by
  cases hstep with
  | compute _ heffect =>
    exact ⟨storeAll_locked (isa.permitted heffect) h.page h.readOnly,h.readOnly,h.below,h.heap⟩
  | call _ _ _ hcall => exact h.pagesAfter (call_pages hcall)
  | collected _ _ _ _ hput => exact h.pagesAfter hput.pagesAfter
  | woken _ hput => exact h.pagesAfter hput.pagesAfter
  | _ => exact h

theorem Installed.mono (h : Installed base code v) (hkept : ∀ {n p}, Locked v n p → Locked v' n p) :
    Installed base code v' := by
  refine ⟨⟨h.present.low,fun k hk => ?_⟩,fun k hk => ?_⟩
  · obtain ⟨p,hp⟩ := h.locked k hk
    rw [← h.present.byte k hk,View.byte,View.byte,hp.page,(hkept hp).page]
  · obtain ⟨p,hp⟩ := h.locked k hk
    exact ⟨p,hkept hp⟩

theorem Installed.step (h : Installed base code l.view) (hstep : PrivateMachine.Step isa pid l a l') :
    Installed base code l'.view :=
  h.mono fun hlocked => hlocked.step hstep

end

end VladOs
