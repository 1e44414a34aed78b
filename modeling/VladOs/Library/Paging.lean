import Mathlib.Logic.Function.Basic
import Mathlib.Tactic.Common

namespace Paging

structure Page where
  flags : ℕ
  bytes : ℕ → UInt8

abbrev View := ℕ → Option Page

structure Checker (ε : Type) where
  absent : ℕ → ε
  refuse : ℕ → ℕ → Option ε

variable {ε : Type}

def Checker.check (c : Checker ε) (view : View) (a : ℕ) : Except ε Page :=
  match view (a / 4096) with
  | none => .error (c.absent (a / 4096))
  | some p =>
    match c.refuse (a / 4096) p.flags with
    | some e => .error e
    | none => .ok p

def Page.store (p : Page) (o : ℕ) (bs : List UInt8) : Page :=
  { p with bytes := fun i => if o ≤ i ∧ i < o + bs.length then bs.getD (i - o) 0 else p.bytes i }

def View.put (view : View) (n : ℕ) (p : Page) : View := Function.update view n (some p)

def readBytes (c : Checker ε) (view : View) : ℕ → ℕ → Except ε (List UInt8)
  | _, 0 => .ok []
  | a, n + 1 =>
    match c.check view a with
    | .error e => .error e
    | .ok p => (readBytes c view (a + 1) n).map (p.bytes (a % 4096) :: ·)

def writeBytes (c : Checker ε) : View → ℕ → List UInt8 → Except ε Unit × View
  | view, _, [] => (.ok (),view)
  | view, a, b :: bs =>
    match c.check view a with
    | .error e => (.error e,view)
    | .ok p => writeBytes c (view.put (a / 4096) (p.store (a % 4096) [b])) (a + 1) bs

variable {c : Checker ε} {view : View} {a a' n o : ℕ} {p q : Page} {bs rest : List UInt8}

theorem Checker.check_eq_ok :
    c.check view a = .ok p ↔ view (a / 4096) = some p ∧ c.refuse (a / 4096) p.flags = none := by
  unfold check
  cases hv : view (a / 4096) with
  | none => simp
  | some q =>
    simp only [Option.some.injEq]
    constructor
    · intro h
      cases hr : c.refuse (a / 4096) q.flags with
      | none =>
        simp only [hr,Except.ok.injEq] at h
        exact ⟨h,h ▸ hr⟩
      | some e => simp [hr] at h
    · rintro ⟨rfl,hr⟩
      simp [hr]

theorem Checker.check_congr (h : a' / 4096 = a / 4096) : c.check view a' = c.check view a := by
  simp only [check,h]

theorem Checker.check_put_self (h : c.check view a = .ok p) (hq : q.flags = p.flags) :
    c.check (view.put (a / 4096) q) a = .ok q := by
  rw [check_eq_ok] at h ⊢
  exact ⟨Function.update_self ..,hq ▸ h.2⟩

theorem Checker.check_put_of_ne (h : a / 4096 ≠ n) : c.check (view.put n q) a = c.check view a := by
  simp only [check,View.put,Function.update_of_ne h]

@[simp] theorem Page.store_flags : (p.store o bs).flags = p.flags := rfl

theorem Page.store_store (b : UInt8) : (p.store o [b]).store (o + 1) bs = p.store o (b :: bs) := by
  simp only [store,Page.mk.injEq,true_and]
  funext i
  simp only [List.length_cons,List.length_nil]
  by_cases h₀ : i = o
  · subst h₀
    rw [if_neg (by omega),if_pos (by omega),if_pos (by omega)]
    simp
  · by_cases h₁ : o + 1 ≤ i ∧ i < o + 1 + bs.length
    · obtain ⟨k,rfl⟩ : ∃ k, i = o + 1 + k := ⟨i - (o + 1),by omega⟩
      rw [if_pos h₁,if_pos (by omega)]
      have hk : o + 1 + k - o = k + 1 := by omega
      simp [hk]
    · rw [if_neg h₁,if_neg (by omega),if_neg (by omega)]

theorem View.put_put : (view.put n p).put n q = view.put n q := Function.update_idem ..

theorem readBytes_chunk {count rest : ℕ} (h : count = 0 ∨ c.check view a = .ok p)
    (hc : a % 4096 + count ≤ 4096) :
    readBytes c view a (count + rest) = (readBytes c view (a + count) rest).map
      ((List.range count).map (fun k => p.bytes (a % 4096 + k)) ++ ·) := by
  induction count generalizing a with
  | zero =>
    cases hr : readBytes c view a rest <;> simp [hr,Except.map]
  | succ count ih =>
    have hp := h.resolve_left (by omega)
    have hnext : count = 0 ∨ c.check view (a + 1) = .ok p := by
      by_cases hz : count = 0
      · exact Or.inl hz
      · exact Or.inr ((Checker.check_congr (by omega)).trans hp)
    have hstep : readBytes c view a (count + 1 + rest) =
        (readBytes c view (a + 1) (count + rest)).map (p.bytes (a % 4096) :: ·) := by
      rw [show count + 1 + rest = (count + rest) + 1 by omega,readBytes,hp]
    by_cases hz : count = 0
    · subst hz
      rw [hstep]
      cases hr : readBytes c view (a + 1) rest <;> simp [hr,Except.map]
    · rw [hstep,ih hnext (by omega),show a + 1 + count = a + (count + 1) by omega,
        show (a + 1) % 4096 = a % 4096 + 1 by omega,List.range_succ_eq_map]
      cases hr : readBytes c view (a + (count + 1)) rest with
      | error e => rfl
      | ok l =>
        simp only [Except.map,List.map_cons,List.map_map,List.cons_append,Nat.add_zero]
        congr 3
        apply List.map_congr_left
        intro k _
        simp only [Function.comp_apply]
        congr 1
        omega

theorem writeBytes_chunk (h : c.check view a = .ok p) (hne : bs ≠ [])
    (hc : a % 4096 + bs.length ≤ 4096) :
    writeBytes c view a (bs ++ rest) =
      writeBytes c (view.put (a / 4096) (p.store (a % 4096) bs)) (a + bs.length) rest := by
  induction bs generalizing a view p with
  | nil => exact absurd rfl hne
  | cons b bs ih =>
    simp only [List.cons_append,writeBytes,h,List.length_cons]
    by_cases hz : bs = []
    · subst hz
      rfl
    · have hlen : 0 < bs.length := List.length_pos_iff.mpr hz
      simp only [List.length_cons] at hc
      have hpage : (a + 1) / 4096 = a / 4096 := by omega
      have hmod : (a + 1) % 4096 = a % 4096 + 1 := by omega
      have hnext : c.check (view.put (a / 4096) (p.store (a % 4096) [b])) (a + 1) =
          .ok (p.store (a % 4096) [b]) :=
        (Checker.check_congr hpage).trans (Checker.check_put_self h rfl)
      rw [ih hnext hz (by omega),hpage,hmod,View.put_put,Page.store_store,
        show a + 1 + bs.length = a + (bs.length + 1) by omega]

def Allowed (c : Checker ε) (view : View) (a len : ℕ) : Prop :=
  ∀ k < len, ∃ p, c.check view (a + k) = .ok p

theorem Allowed.put (h : Allowed c view a n) {b : ℕ} (hp : c.check view b = .ok p)
    (hq : q.flags = p.flags) : Allowed c (view.put (b / 4096) q) a n := by
  intro k hk
  obtain ⟨p',hp'⟩ := h k hk
  by_cases hb : (a + k) / 4096 = b / 4096
  · rw [Checker.check_congr hb] at hp' ⊢
    exact ⟨q,Checker.check_put_self hp hq⟩
  · exact ⟨p',(Checker.check_put_of_ne hb).trans hp'⟩

theorem Allowed.of_put {b : ℕ} (h : Allowed c (view.put (b / 4096) q) a n) (hp : c.check view b = .ok p) :
    Allowed c view a n := by
  intro k hk
  obtain ⟨p',hp'⟩ := h k hk
  by_cases hb : (a + k) / 4096 = b / 4096
  · exact ⟨p,(Checker.check_congr hb).trans hp⟩
  · exact ⟨p',(Checker.check_put_of_ne hb).symm.trans hp'⟩

theorem Allowed.cons (hp : c.check view a = .ok p) (h : Allowed c view (a + 1) n) :
    Allowed c view a (n + 1) := by
  intro k hk
  cases k with
  | zero => exact ⟨p,hp⟩
  | succ k =>
    rw [show a + (k + 1) = a + 1 + k by omega]
    exact h k (by omega)

theorem Allowed.tail (h : Allowed c view a (n + 1)) : Allowed c view (a + 1) n := by
  intro k hk
  have hk' := h (k + 1) (by omega)
  rwa [show a + (k + 1) = a + 1 + k by omega] at hk'

theorem writeBytes_allowed (h : Allowed c view a bs.length) : (writeBytes c view a bs).1 = .ok () := by
  induction bs generalizing a view with
  | nil => rfl
  | cons b bs ih =>
    obtain ⟨p,hp⟩ := h 0 (by simp)
    rw [Nat.add_zero] at hp
    simp only [writeBytes,hp]
    exact ih (h.tail.put hp rfl)

theorem writeBytes_ok_allowed (h : (writeBytes c view a bs).1 = .ok ()) : Allowed c view a bs.length := by
  induction bs generalizing a view with
  | nil => exact fun k hk => absurd hk (Nat.not_lt_zero k)
  | cons b bs ih =>
    cases hp : c.check view a with
    | error e => simp [writeBytes,hp] at h
    | ok p =>
      simp only [writeBytes,hp] at h
      exact .cons hp ((ih h).of_put hp)

def View.byte (view : View) (a : ℕ) : Option UInt8 := (view (a / 4096)).map fun p => p.bytes (a % 4096)

theorem View.byte_put (h : view (a / 4096) = some p) (b : UInt8) (x : ℕ) :
    (view.put (a / 4096) (p.store (a % 4096) [b])).byte x = if x = a then some b else view.byte x := by
  unfold byte put
  by_cases hpage : x / 4096 = a / 4096
  · rw [hpage,Function.update_self,h]
    simp only [Option.map_some,Page.store,List.length_cons,List.length_nil]
    by_cases hx : x = a
    · subst hx
      simp
    · rw [if_neg (by omega),if_neg hx]
  · rw [Function.update_of_ne hpage,if_neg fun hx => hpage (by rw [hx])]

theorem writeBytes_byte {view' : View} (h : writeBytes c view a bs = (.ok (),view')) (x : ℕ) :
    view'.byte x = if a ≤ x ∧ x < a + bs.length then bs[x - a]? else view.byte x := by
  induction bs generalizing a view with
  | nil =>
    cases h
    rw [if_neg (by simp only [List.length_nil]; omega)]
  | cons b bs ih =>
    cases hp : c.check view a with
    | error e => simp [writeBytes,hp] at h
    | ok p =>
      simp only [writeBytes,hp] at h
      rw [ih h,View.byte_put (Checker.check_eq_ok.mp hp).1,List.length_cons]
      by_cases hx : x = a
      · subst hx
        rw [if_neg (by omega),if_pos rfl,if_pos (by omega),Nat.sub_self,List.getElem?_cons_zero]
      · by_cases hin : a + 1 ≤ x ∧ x < a + 1 + bs.length
        · rw [if_pos hin,if_pos (by omega),show x - a = x - (a + 1) + 1 by omega,
            List.getElem?_cons_succ]
        · rw [if_neg hin,if_neg hx,if_neg (by omega)]

theorem View.put_flags (h : view (a / 4096) = some p) (hq : q.flags = p.flags) (n : ℕ) :
    (view.put (a / 4096) q n).map Page.flags = (view n).map Page.flags := by
  unfold put
  by_cases hn : n = a / 4096
  · rw [hn,Function.update_self,h,Option.map_some,Option.map_some,hq]
  · rw [Function.update_of_ne hn]

theorem writeBytes_invariant {I : View → Prop} {view' : View} {res : Except ε Unit}
    (h : writeBytes c view a bs = (res,view')) (h₀ : I view)
    (h₁ : ∀ w k p b, k < bs.length → I w → w ((a + k) / 4096) = some p →
      I (w.put ((a + k) / 4096) (p.store ((a + k) % 4096) [b]))) : I view' := by
  induction bs generalizing a view with
  | nil =>
    cases h
    exact h₀
  | cons b bs ih =>
    cases hp : c.check view a with
    | error e =>
      simp only [writeBytes,hp,Prod.mk.injEq] at h
      rw [← h.2]
      exact h₀
    | ok p =>
      simp only [writeBytes,hp] at h
      refine ih h (h₁ view 0 p b (Nat.succ_pos _) h₀ (Checker.check_eq_ok.mp hp).1) ?_
      intro w k q b' hk hw hq
      rw [Nat.add_right_comm,Nat.add_assoc] at hq ⊢
      exact h₁ w (k + 1) q b' (Nat.succ_lt_succ hk) hw hq

theorem writeBytes_flags {view' : View} {res : Except ε Unit} (h : writeBytes c view a bs = (res,view'))
    (n : ℕ) : (view' n).map Page.flags = (view n).map Page.flags := by
  refine writeBytes_invariant (I := fun w => (w n).map Page.flags = (view n).map Page.flags) h rfl ?_
  intro w k p b _ hw hp
  exact (View.put_flags hp Page.store_flags n).trans hw

theorem writeBytes_outside {view' : View} {res : Except ε Unit}
    (h : writeBytes c view a bs = (res,view')) (hn : ∀ k < bs.length, (a + k) / 4096 ≠ n) :
    view' n = view n := by
  refine writeBytes_invariant (I := fun w => w n = view n) h rfl ?_
  intro w k p b hk hw _
  rw [View.put,Function.update_of_ne (hn k hk).symm,hw]

def View.Shows (view : View) (n flags : ℕ) (content : ℕ → UInt8) : Prop :=
  (view n).map Page.flags = some flags ∧ ∀ a, a / 4096 = n → view.byte a = some (content a)

theorem View.Shows.congr {view' : View} {flags : ℕ} {content : ℕ → UInt8}
    (h : view.Shows n flags content) (hv : view' n = view n) : view'.Shows n flags content := by
  refine ⟨hv ▸ h.1,fun a ha => ?_⟩
  rw [← h.2 a ha,byte,byte,ha,hv]

theorem readBytes_allowed (h : Allowed c view a n) : ∃ bs, readBytes c view a n = .ok bs := by
  induction n generalizing a with
  | zero => exact ⟨[],rfl⟩
  | succ n ih =>
    obtain ⟨p,hp⟩ := h 0 (by omega)
    obtain ⟨bs,hbs⟩ := ih h.tail
    rw [Nat.add_zero] at hp
    exact ⟨p.bytes (a % 4096) :: bs,by simp [readBytes,hp,hbs,Except.map]⟩

theorem Checker.check_flags {view' : View}
    (h : (view' (a / 4096)).map Page.flags = (view (a / 4096)).map Page.flags)
    (hp : c.check view a = .ok p) : ∃ q, c.check view' a = .ok q := by
  obtain ⟨hv,hr⟩ := check_eq_ok.mp hp
  rw [hv,Option.map_some] at h
  obtain ⟨q,hq,hf⟩ := Option.map_eq_some_iff.mp h
  exact ⟨q,check_eq_ok.mpr ⟨hq,hf ▸ hr⟩⟩

theorem writeBytes_error {view' : View} {e : ε} (h : writeBytes c view a bs = (.error e,view')) :
    ∃ k < bs.length, writeBytes c view a (bs.take k) = (.ok (),view') ∧
      c.check view' (a + k) = .error e := by
  induction bs generalizing a view with
  | nil => cases h
  | cons b bs ih =>
    cases hp : c.check view a with
    | error e' =>
      simp only [writeBytes,hp,Prod.mk.injEq,Except.error.injEq] at h
      obtain ⟨rfl,rfl⟩ := h
      exact ⟨0,Nat.succ_pos _,rfl,hp⟩
    | ok p =>
      simp only [writeBytes,hp] at h
      obtain ⟨k,hk,hw,hc⟩ := ih h
      refine ⟨k + 1,Nat.succ_lt_succ hk,?_,?_⟩
      · simpa only [List.take_succ_cons,writeBytes,hp] using hw
      · rwa [Nat.add_right_comm,Nat.add_assoc] at hc

theorem writeBytes_stops {view' : View} {e : ε} (h : writeBytes c view a bs = (.ok (),view'))
    (he : c.check view' (a + bs.length) = .error e) :
    bs.length = 0 ∨ (a + bs.length) % 4096 = 0 := by
  by_contra hc
  obtain ⟨p,hp⟩ := writeBytes_ok_allowed (congrArg Prod.fst h) (bs.length - 1) (by omega)
  have hpage : (a + bs.length) / 4096 = (a + (bs.length - 1)) / 4096 := by omega
  obtain ⟨q,hq⟩ := Checker.check_flags (writeBytes_flags h _) hp
  rw [Checker.check_congr hpage,hq] at he
  cases he

theorem readBytes_of_bytes (h : Allowed c view a bs.length)
    (hb : ∀ k < bs.length, view.byte (a + k) = bs[k]?) : readBytes c view a bs.length = .ok bs := by
  induction bs generalizing a with
  | nil => rfl
  | cons b bs ih =>
    obtain ⟨p,hp⟩ := h 0 (Nat.succ_pos _)
    have hbyte := hb 0 (Nat.succ_pos _)
    rw [Nat.add_zero] at hp hbyte
    rw [View.byte,(Checker.check_eq_ok.mp hp).1,Option.map_some,List.getElem?_cons_zero] at hbyte
    have htail := ih h.tail fun k hk => by
      have := hb (k + 1) (Nat.succ_lt_succ hk)
      rwa [List.getElem?_cons_succ,← Nat.add_assoc,Nat.add_right_comm] at this
    rw [List.length_cons,readBytes,hp]
    simp only [htail,Except.map,Option.some.inj hbyte]

theorem readBytes_succ (h : readBytes c view a (n + 1) = .ok bs) :
    ∃ p tail, c.check view a = .ok p ∧ readBytes c view (a + 1) n = .ok tail ∧
      bs = p.bytes (a % 4096) :: tail := by
  unfold readBytes at h
  cases hp : c.check view a with
  | error e => simp [hp] at h
  | ok p =>
    rw [hp] at h
    cases hr : readBytes c view (a + 1) n with
    | error e => simp [hr,Except.map] at h
    | ok tail =>
      rw [hr] at h
      cases h
      exact ⟨p,tail,rfl,rfl,rfl⟩

theorem readBytes_ok_allowed (h : readBytes c view a n = .ok bs) :
    Allowed c view a n ∧ bs.length = n := by
  induction n generalizing a bs with
  | zero =>
    cases h
    exact ⟨fun k hk => absurd hk (Nat.not_lt_zero k),rfl⟩
  | succ n ih =>
    obtain ⟨p,tail,hp,hr,rfl⟩ := readBytes_succ h
    obtain ⟨hal,hlen⟩ := ih hr
    exact ⟨.cons hp hal,by rw [List.length_cons,hlen]⟩

theorem readBytes_byte (h : readBytes c view a n = .ok bs) {k : ℕ} (hk : k < n) :
    view.byte (a + k) = bs[k]? := by
  induction n generalizing a bs k with
  | zero => exact absurd hk (Nat.not_lt_zero k)
  | succ n ih =>
    obtain ⟨p,tail,hp,hr,rfl⟩ := readBytes_succ h
    cases k with
    | zero => simp [View.byte,(Checker.check_eq_ok.mp hp).1]
    | succ k =>
      rw [List.getElem?_cons_succ,← ih hr (Nat.lt_of_succ_lt_succ hk),Nat.add_right_comm,Nat.add_assoc]

theorem readBytes_slice (h : readBytes c view a n = .ok bs) {j m : ℕ} (hjm : j + m ≤ n) :
    readBytes c view (a + j) m = .ok ((bs.drop j).take m) := by
  induction n generalizing a bs j m with
  | zero =>
    obtain ⟨rfl,rfl⟩ : j = 0 ∧ m = 0 := by omega
    cases h
    rfl
  | succ n ih =>
    obtain ⟨p,tail,hp,hr,rfl⟩ := readBytes_succ h
    cases j with
    | succ j =>
      rw [show a + (j + 1) = a + 1 + j by omega,ih hr (by omega),List.drop_succ_cons]
    | zero =>
      cases m with
      | zero => rfl
      | succ m =>
        have htail := ih hr (j := 0) (m := m) (by omega)
        rw [Nat.add_zero] at htail
        simp [readBytes,hp,htail,Except.map]

theorem writeBytes_refused {view' : View} {res : Except ε Unit} (h : writeBytes c view a bs = (res,view'))
    (hp : view n = some p) (hrefuse : c.refuse n p.flags ≠ none) : view' n = some p := by
  induction bs generalizing a view with
  | nil =>
    cases h
    exact hp
  | cons b bs ih =>
    cases hq : c.check view a with
    | error e =>
      simp only [writeBytes,hq,Prod.mk.injEq] at h
      exact h.2 ▸ hp
    | ok q =>
      simp only [writeBytes,hq] at h
      obtain ⟨hv,hr⟩ := Checker.check_eq_ok.mp hq
      have hne : n ≠ a / 4096 := by
        rintro rfl
        cases hp.symm.trans hv
        exact hrefuse hr
      exact ih h ((Function.update_of_ne hne ..).trans hp)

end Paging
