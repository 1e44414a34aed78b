import VladOs.Memory.UserCopy

namespace VladOs

open Paging Code

section

variable {σ ε : Type} {body : VirtAddr → Code σ ε Unit} {overflow : ε} {I : ℕ → σ → Prop}
  {E : ε → σ → Prop} {base stop : ℕ}

theorem forEachPage_next {a : ℕ} (hstop : stop ≤ 2 ^ 40) (hlt : a < stop) :
    forEachPage body overflow a stop = (do
      body ⟨a,Or.inl (by omega)⟩
      forEachPage body overflow (a + 4096) stop) := by
  have hnew : VirtAddr.new a = some ⟨a,Or.inl (by omega)⟩ := VirtAddr.new_of_lt (by omega)
  have hnext : a + PAGE_SIZE < 2 ^ 64 := by
    unfold PAGE_SIZE
    omega
  rw [forEachPage,if_pos hlt,hnew,if_pos hnext]
  rfl

theorem forEachPage_from (hstop : stop ≤ 2 ^ 40)
    (hstep : ∀ v s, base ≤ v.addr → v.addr < stop → (v.addr - base) % 4096 = 0 → I v.addr s →
      Spec (body v) s (fun _ => I (v.addr + 4096)) E)
    {a : ℕ} {s : σ} (hle : base ≤ a) (hmod : (a - base) % 4096 = 0) (h : I a s) :
    Spec (forEachPage body overflow a stop) s
      (fun _ s' => ∃ b, stop ≤ b ∧ (b = a ∨ b < stop + 4096) ∧ base ≤ b ∧ (b - base) % 4096 = 0 ∧
        I b s') E := by
  generalize hk : stop - a = k
  induction k using Nat.strong_induction_on generalizing a s with
  | _ k ih =>
    by_cases hlt : a < stop
    · rw [forEachPage_next hstop hlt,spec_bind]
      refine (hstep ⟨a,_⟩ s hle hlt hmod h).imp ?_
      intro _ s' hI
      refine (ih (stop - (a + 4096)) (by omega) (a := a + 4096) (by omega) (by omega) hI rfl).imp ?_
      rintro - s'' ⟨b,hb,hor,hrest⟩
      exact ⟨b,hb,Or.inr (by omega),hrest⟩
    · rw [forEachPage,if_neg hlt,spec_pure]
      exact ⟨a,by omega,Or.inl rfl,hle,hmod,h⟩

theorem forEachPage_spec (hstop : stop ≤ 2 ^ 40)
    (hstep : ∀ v s, base ≤ v.addr → v.addr < stop → (v.addr - base) % 4096 = 0 → I v.addr s →
      Spec (body v) s (fun _ => I (v.addr + 4096)) E) {s : σ} (h : I base s) :
    Spec (forEachPage body overflow base stop) s
      (fun _ s' => ∃ b, stop ≤ b ∧ (b = base ∨ b < stop + 4096) ∧ (b - base) % 4096 = 0 ∧ I b s') E := by
  refine (forEachPage_from hstop hstep (le_refl _) (by simp) h).imp ?_
  rintro - s' ⟨b,hb,hor,-,hmod,hI⟩
  exact ⟨b,hb,hor,hmod,hI⟩

theorem forEachPage_aligned (hstop : stop ≤ 2 ^ 40) (hle : base ≤ stop)
    (hmod : (stop - base) % 4096 = 0)
    (hstep : ∀ v s, base ≤ v.addr → v.addr + 4096 ≤ stop → (v.addr - base) % 4096 = 0 →
      I v.addr s → Spec (body v) s (fun _ => I (v.addr + 4096)) E) {s : σ} (h : I base s) :
    Spec (forEachPage body overflow base stop) s (fun _ => I stop) E := by
  refine (forEachPage_spec hstop ?_ h).imp ?_
  · intro v s hv hlt hm hI
    exact hstep v s hv (by omega) hm hI
  · rintro - s' ⟨b,hb,hor,hm,hI⟩
    obtain rfl : b = stop := by omega
    exact hI

end

variable {B : BootMemory} {m m' : Memory} {r : Frame} {n : ℕ}

theorem Allowed.range {access : Access} {view : View} {a len : ℕ} (hlen : 0 < len)
    (h : Allowed (userChecker access) view a len) : USER_BASE ≤ a ∧ a + len ≤ USER_STACK_TOP := by
  obtain ⟨p,hp⟩ := h 0 hlen
  obtain ⟨q,hq⟩ := h (len - 1) (by omega)
  have h₀ := (userChecker_ok.mp hp).2.1
  have h₁ := (userChecker_ok.mp hq).2.1
  omega

theorem validateUserRange_spec (hm : m.Sound B) (hr : r ∈ m.addressSpaces) (start : VirtAddr)
    (len : ℕ) (access : Access) :
    Spec (UserMemory.validateUserRange ⟨r⟩ start len access) m
      (fun _ m' => m' = m ∧ Allowed (userChecker access) (m.page r) start.addr len)
      (fun _ m' => m' = m ∧ ¬ Allowed (userChecker access) (m.page r) start.addr len) := by
  unfold UserMemory.validateUserRange
  by_cases hz : len = 0
  · rw [if_pos hz,spec_pure]
    exact ⟨rfl,fun k hk => by omega⟩
  · have hlen : 0 < len := by omega
    rw [if_neg hz,spec_bind,spec_orFail]
    constructor
    · intro stop hstop
      obtain ⟨-,rfl⟩ := checkedAdd_eq_some.mp hstop
      rw [spec_ite]
      constructor
      · intro hout
        rw [spec_fail]
        refine ⟨rfl,fun hal => ?_⟩
        have := Allowed.range hlen hal
        omega
      · intro hin
        have hbase : USER_BASE ≤ start.addr ∧ start.addr + len ≤ USER_STACK_TOP := by omega
        unfold USER_BASE USER_STACK_TOP at hbase
        have hdown : alignDown start.addr PAGE_SIZE = start.addr / 4096 * 4096 := rfl
        have hcheck := validateUserByte_checks r access
        refine (forEachPage_spec (I := fun a m' => m' = m ∧ ∀ b, start.addr / 4096 * 4096 ≤ b → b < a →
          ∃ p, (userChecker access).check (m.page r) b = .ok p) (by omega) ?_ ?_).imp ?_
        · rintro v m₀ hv hlt hmod ⟨heq,hdone⟩
          rw [hdown] at hv hmod
          rw [heq]
          simp only [spec_bind,spec_read]
          cases hc : (userChecker access).check (m.page r) v.addr with
          | error e =>
            rw [hcheck.error hm hr hc]
            simp only [spec_fail]
            refine ⟨trivial,fun hal => ?_⟩
            obtain ⟨p,hp⟩ := hal (max v.addr start.addr - start.addr) (by omega)
            have hsame : (start.addr + (max v.addr start.addr - start.addr)) / 4096 = v.addr / 4096 := by
              omega
            rw [Checker.check_congr hsame,hc] at hp
            cases hp
          | ok p =>
            obtain ⟨f,e,-,-,hok⟩ := hcheck.ok hm hr hc
            rw [hok]
            simp only [spec_pure]
            refine ⟨trivial,?_⟩
            intro b hb hb'
            by_cases hlt' : b < v.addr
            · exact hdone b hb hlt'
            · have hsame : b / 4096 = v.addr / 4096 := by omega
              exact ⟨p,(Checker.check_congr hsame).trans hc⟩
        · rw [hdown]
          exact ⟨rfl,fun b hb hb' => by omega⟩
        · rintro - m' ⟨a,ha,-,-,rfl,hdone⟩
          exact ⟨rfl,fun k hk => hdone _ (by omega) (by omega)⟩
    · intro hnone
      refine ⟨rfl,fun hal => ?_⟩
      have hr := Allowed.range hlen hal
      unfold USER_STACK_TOP at hr
      rw [checkedAdd_of_lt (by omega)] at hnone
      cases hnone

theorem copyFromUser_spec (hm : m.Sound B) (hr : r ∈ m.addressSpaces) (len : ℕ) (src : VirtAddr) :
    Spec (UserMemory.copyFromUser ⟨r⟩ len src) m
      (fun bs m' => m' = m ∧ readBytes (userChecker .read) (m.page r) src.addr len = .ok bs)
      (fun e m' => m' = m ∧ readBytes (userChecker .read) (m.page r) src.addr len = .error e) :=
  readChunks_spec (validateUserByte_checks r .read) hm hr src len 0 (Or.inl rfl)

theorem copyToUser_spec (hm : m.Sound B) (hr : r ∈ m.addressSpaces) (dst : VirtAddr)
    (src : List UInt8) :
    Spec (UserMemory.copyToUser ⟨r⟩ dst src) m
      (fun _ m' => WritesSpace B m r m' ∧
        writeBytes (userChecker .write) (m.page r) dst.addr src = (.ok (),m'.page r))
      (fun e m' => WritesSpace B m r m' ∧
        writeBytes (userChecker .write) (m.page r) dst.addr src = (.error e,m'.page r)) :=
  writeChunks_spec (validateUserByte_checks r .write) hm hr dst src 0 (Or.inl rfl)

end VladOs
