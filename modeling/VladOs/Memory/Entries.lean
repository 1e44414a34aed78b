import VladOs.Library.Trie
import VladOs.Memory.AddressSpace

namespace VladOs

variable {e p w f flags : ℕ}

theorem contains_iff : contains e w = true ↔ ∀ i, w.testBit i = true → e.testBit i = true := by
  simp only [contains,decide_eq_true_eq]
  constructor
  · intro h i hi
    have hb := congrArg (Nat.testBit · i) h
    simpa [Nat.testBit_and,hi] using hb
  · intro h
    apply Nat.eq_of_testBit_eq
    intro i
    have hi := h i
    cases hw : w.testBit i <;> simp_all [Nat.testBit_and]

theorem contains_or_left (h : contains e w = true) : contains (e ||| p) w = true := by
  rw [contains_iff] at h ⊢
  intro i hi
  simp [Nat.testBit_or,h i hi]

theorem contains_or_wanted {a b : ℕ} :
    contains e (a ||| b) = true ↔ contains e a = true ∧ contains e b = true := by
  simp only [contains_iff,Nat.testBit_or,Bool.or_eq_true]
  constructor
  · intro h
    exact ⟨fun i hi => h i (Or.inl hi),fun i hi => h i (Or.inr hi)⟩
  · rintro ⟨ha,hb⟩ i (hi | hi)
    · exact ha i hi
    · exact hb i hi

theorem contains_congr {e' : ℕ} (h : ∀ i < 12, e.testBit i = e'.testBit i) (hw : w < 2 ^ 12) :
    contains e w = contains e' w := by
  rw [Bool.eq_iff_iff,contains_iff,contains_iff]
  have hlow : ∀ i, w.testBit i = true → i < 12 := by
    intro i hi
    by_contra hc
    have hle : 2 ^ 12 ≤ 2 ^ i := Nat.pow_le_pow_right (by norm_num) (by omega)
    have hz := Nat.testBit_eq_false_of_lt (show w < 2 ^ i by omega)
    simp [hz] at hi
  exact forall_congr' fun i => imp_congr_right fun hi => by rw [h i (hlow i hi)]

theorem contains_huge_or : contains (e ||| p) HUGE_PAGE =
    (contains e HUGE_PAGE || contains p HUGE_PAGE) := by
  have hbit : ∀ x, contains x HUGE_PAGE = x.testBit 7 := by
    intro x
    rw [Bool.eq_iff_iff,contains_iff]
    have h7 : ∀ i, Nat.testBit HUGE_PAGE i = true ↔ i = 7 := fun i => by
      rw [show HUGE_PAGE = 2 ^ 7 from rfl,Nat.testBit_two_pow]
      simp [eq_comm]
    simp [h7]
  simp only [hbit,Nat.testBit_or]

theorem makeEntry_testBit (hflags : flags < 2 ^ 12) {i : ℕ} (hi : i < 12) :
    (makeEntry f flags).testBit i = flags.testBit i := by
  rw [makeEntry,Nat.mul_comm,Nat.testBit_two_pow_mul_add _ hflags,if_pos hi]

theorem contains_makeEntry (hflags : flags < 2 ^ 12) (hw : w < 2 ^ 12) :
    contains (makeEntry f flags) w = contains flags w :=
  contains_congr (fun _ hi => makeEntry_testBit hflags hi) hw

theorem entryAddress_makeEntry (hf : f < 2 ^ 40) (hflags : flags < 2 ^ 12) :
    entryAddress (makeEntry f flags) = f := by
  unfold entryAddress makeEntry
  omega

theorem entryFlags_makeEntry (hf : f < 2 ^ 40) (hflags : flags < 2 ^ 12) :
    entryFlags (makeEntry f flags) = flags := by
  unfold entryFlags makeEntry
  omega

theorem makeEntry_lt (hf : f < 2 ^ 40) (hflags : flags < 2 ^ 12) : makeEntry f flags < 2 ^ 64 := by
  unfold makeEntry
  omega

theorem contains_entryFlags (hw : w < 2 ^ 12) : contains (entryFlags e) w = contains e w := by
  refine contains_congr (fun i hi => ?_) hw
  have hlow : entryFlags e = 2 ^ 12 * (e / 2 ^ 52 * 2 ^ 40) + e % 2 ^ 12 := by
    unfold entryFlags
    omega
  rw [hlow,Nat.testBit_two_pow_mul_add _ (Nat.mod_lt _ (by norm_num)),if_pos hi,Nat.testBit_mod_two_pow]
  simp [hi]

theorem entryAddress_or (hp : p < 2 ^ 12) : entryAddress (e ||| p) = entryAddress e := by
  have hz : p / 2 ^ 12 = 0 := Nat.div_eq_of_lt hp
  rw [entryAddress,Nat.or_div_two_pow,hz,Nat.or_zero,entryAddress]

theorem removeFlags_testBit {i : ℕ} (he : e < 2 ^ 64) :
    (removeFlags e USER_ACCESSIBLE).testBit i = (e.testBit i && decide (i ≠ 2)) := by
  rw [removeFlags,Nat.testBit_and]
  by_cases hi : i < 64
  · have hmask : ∀ j < 64, Nat.testBit (2 ^ 64 - 1 - USER_ACCESSIBLE) j = decide (j ≠ 2) := by decide
    rw [hmask i hi]
  · have hle : 2 ^ 64 ≤ 2 ^ i := Nat.pow_le_pow_right (by norm_num) (by omega)
    simp [Nat.testBit_eq_false_of_lt (show e < 2 ^ i by omega)]

theorem removeFlags_not_user (he : e < 2 ^ 64) :
    contains (removeFlags e USER_ACCESSIBLE) (PRESENT ||| USER_ACCESSIBLE) = false := by
  rw [Bool.eq_false_iff,ne_eq,contains_iff]
  intro h
  have h2 := h 2 (by decide)
  simp [removeFlags_testBit he] at h2

theorem removeFlags_contains (he : e < 2 ^ 64) (hw : w.testBit 2 = false) :
    contains (removeFlags e USER_ACCESSIBLE) w = contains e w := by
  rw [Bool.eq_iff_iff,contains_iff,contains_iff]
  refine forall_congr' fun i => imp_congr_right fun hi => ?_
  have hne : i ≠ 2 := by
    rintro rfl
    simp [hw] at hi
  simp [removeFlags_testBit he,hne]

theorem entryAddress_removeFlags (he : e < 2 ^ 64) :
    entryAddress (removeFlags e USER_ACCESSIBLE) = entryAddress e := by
  have hmask : (2 ^ 64 - 1 - USER_ACCESSIBLE) / 2 ^ 12 = 2 ^ 52 - 1 := by decide
  have hlt : e / 2 ^ 12 < 2 ^ 52 := by omega
  rw [entryAddress,removeFlags,Nat.and_div_two_pow,hmask,Nat.and_two_pow_sub_one_eq_mod,
    Nat.mod_eq_of_lt hlt,entryAddress]

theorem entryFrame_removeFlags (he : e < 2 ^ 64) :
    entryFrame (removeFlags e USER_ACCESSIBLE) = entryFrame e := by
  simp only [entryFrame,removeFlags_contains he (show Nat.testBit PRESENT 2 = false by decide),
    removeFlags_contains he (show Nat.testBit HUGE_PAGE 2 = false by decide),
    entryAddress_removeFlags he]

def UserEntry (e : ℕ) : Prop :=
  contains e (PRESENT ||| USER_ACCESSIBLE) = true ∧ contains e HUGE_PAGE = false

theorem UserEntry.entryFrame (h : UserEntry e) : entryFrame e = some (entryAddress e) := by
  have hp := (contains_or_wanted.mp h.1).1
  simp [VladOs.entryFrame,hp,h.2]

theorem UserEntry.allowsUser (h : UserEntry e) : entryAllowsUser (entryFlags e) = true := by
  rw [entryAllowsUser,contains_entryFlags (by decide)]
  exact h.1

theorem UserEntry.ne_zero (h : UserEntry e) : e ≠ 0 := by
  rintro rfl
  exact absurd h.1 (by decide)

theorem UserEntry.or (h : UserEntry e) (hp : contains p HUGE_PAGE = false) : UserEntry (e ||| p) :=
  ⟨contains_or_left h.1,by rw [contains_huge_or,h.2,hp]; rfl⟩

def UserFlags (flags : ℕ) : Prop :=
  flags < 2 ^ 12 ∧ contains flags (PRESENT ||| USER_ACCESSIBLE) = true ∧
    contains flags HUGE_PAGE = false

theorem UserFlags.makeEntry (h : UserFlags flags) : UserEntry (makeEntry f flags) :=
  ⟨by rw [contains_makeEntry h.1 (by decide)]; exact h.2.1,
    by rw [contains_makeEntry h.1 (by decide)]; exact h.2.2⟩

theorem parentFlags_lt : parentFlags flags < 2 ^ 12 := by
  have h : parentFlags flags ≤ PRESENT ||| WRITABLE ||| USER_ACCESSIBLE := Nat.and_le_right
  have h7 : PRESENT ||| WRITABLE ||| USER_ACCESSIBLE = 7 := by decide
  omega

theorem UserFlags.parent (h : UserFlags flags) : UserFlags (parentFlags flags) := by
  refine ⟨parentFlags_lt,?_,?_⟩
  · have hb := contains_iff.mp h.2.1
    rw [contains_iff]
    intro i hi
    rw [parentFlags,Nat.testBit_and,hb i hi,Bool.true_and]
    simp only [Nat.testBit_or,Bool.or_eq_true] at hi ⊢
    tauto
  · rw [Bool.eq_false_iff,ne_eq,contains_iff]
    intro hc
    have h7 := hc 7 (by decide)
    have hz : Nat.testBit (PRESENT ||| WRITABLE ||| USER_ACCESSIBLE) 7 = false := by decide
    rw [parentFlags,Nat.testBit_and,hz] at h7
    simp at h7

def tableStore (mem : PhysMem) : Store Frame ℕ ℕ := fun t i =>
  if mem.entry t i = 0 then none else some (entryAddress (mem.entry t i),mem.entry t i)

theorem tableStore_congr {mem mem' : PhysMem} {t i : ℕ} (h : mem'.entry t i = mem.entry t i) :
    tableStore mem' t i = tableStore mem t i := by
  simp only [tableStore,h]

theorem tableStore_eq_none {mem : PhysMem} {t i : ℕ} :
    tableStore mem t i = none ↔ mem.entry t i = 0 := by
  unfold tableStore
  split <;> simp_all

theorem tableStore_eq_some {mem : PhysMem} {t i n l : ℕ} :
    tableStore mem t i = some (n,l) ↔
      mem.entry t i ≠ 0 ∧ n = entryAddress (mem.entry t i) ∧ l = mem.entry t i := by
  unfold tableStore
  split <;> simp_all [eq_comm]

end VladOs
