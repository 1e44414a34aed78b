import VladOs.Library.Buffer
import VladOs.Loader.Format

namespace VladOs.Build

open Buffer Code LittleEndian

structure Segment where
  vaddr : ℕ
  flags : ℕ
  memsz : ℕ
  data : List UInt8
  deriving DecidableEq, Repr

section

variable {σ ε : Type}

def copyFromSlice (bytes : List UInt8) (start : ℕ) (data : List UInt8) : Code σ ε (List UInt8) :=
  if start + data.length ≤ bytes.length then pure ((⟨start,data⟩ : Patch UInt8).apply bytes)
  else Code.abort

def putU16 (bytes : List UInt8) (offset value : ℕ) : Code σ ε (List UInt8) :=
  copyFromSlice bytes offset (encode 2 value)

def putU32 (bytes : List UInt8) (offset value : ℕ) : Code σ ε (List UInt8) :=
  copyFromSlice bytes offset (encode 4 value)

def putU64 (bytes : List UInt8) (offset value : ℕ) : Code σ ε (List UInt8) :=
  copyFromSlice bytes offset (encode 8 value)

def alignUp (value align : ℕ) : Code σ ε ℕ := do
  let raised ← sub (← add value align) 1
  pure (alignDown raised align)

def layout : List Segment → ℕ → Code σ ε (List ℕ × ℕ)
  | [], fileLen => pure ([],fileLen)
  | segment :: rest, fileLen =>
    if segment.data ≠ [] then do
      let offset ← alignUp fileLen PAGE_SIZE
      let (offsets,stop) ← layout rest (← add offset segment.data.length)
      pure (offset :: offsets,stop)
    else do
      let (offsets,stop) ← layout rest fileLen
      pure (0 :: offsets,stop)

def putHeader (entry count : ℕ) (bytes : List UInt8) : Code σ ε (List UInt8) := do
  let bytes ← copyFromSlice bytes 0 ELF_MAGIC
  let bytes ← copyFromSlice bytes 4 [2]
  let bytes ← copyFromSlice bytes 5 [1]
  let bytes ← copyFromSlice bytes 6 [1]
  let bytes ← putU16 bytes 16 ET_EXEC
  let bytes ← putU16 bytes 18 EM_X86_64
  let bytes ← putU32 bytes 20 1
  let bytes ← putU64 bytes 24 entry
  let bytes ← putU64 bytes 32 ELF_HEADER_SIZE
  let bytes ← putU16 bytes 52 ELF_HEADER_SIZE
  let bytes ← putU16 bytes 54 PROGRAM_HEADER_SIZE
  putU16 bytes 56 count

def putSegment (ph : ℕ) (segment : Segment) (offset : ℕ) (bytes : List UInt8) :
    Code σ ε (List UInt8) := do
  let bytes ← putU32 bytes ph PT_LOAD
  let bytes ← putU32 bytes (ph + 4) segment.flags
  let bytes ← putU64 bytes (ph + 8) offset
  let bytes ← putU64 bytes (ph + 16) segment.vaddr
  let bytes ← putU64 bytes (ph + 24) segment.vaddr
  let bytes ← putU64 bytes (ph + 32) segment.data.length
  let bytes ← putU64 bytes (ph + 40) segment.memsz
  let bytes ← putU64 bytes (ph + 48) PAGE_SIZE
  if segment.data ≠ [] then copyFromSlice bytes offset segment.data else pure bytes

def putSegments : ℕ → List (Segment × ℕ) → List UInt8 → Code σ ε (List UInt8)
  | _, [], bytes => pure bytes
  | index, (segment,offset) :: rest, bytes => do
    let ph ← add ELF_HEADER_SIZE (← mul index PROGRAM_HEADER_SIZE)
    putSegments (index + 1) rest (← putSegment ph segment offset bytes)

def elf (entry : ℕ) (segments : List Segment) : Code σ ε (List UInt8) := do
  let headers ← add ELF_HEADER_SIZE (← mul PROGRAM_HEADER_SIZE segments.length)
  let (offsets,fileLen) ← layout segments (← alignUp headers PAGE_SIZE)
  let bytes ← putHeader entry segments.length (List.replicate fileLen 0)
  putSegments 0 (segments.zip offsets) bytes

end

def headerPatches (entry count : ℕ) : List (Patch UInt8) :=
  [⟨0,ELF_MAGIC⟩,⟨4,[2]⟩,⟨5,[1]⟩,⟨6,[1]⟩,⟨16,encode 2 ET_EXEC⟩,⟨18,encode 2 EM_X86_64⟩,
    ⟨20,encode 4 1⟩,⟨24,encode 8 entry⟩,⟨32,encode 8 ELF_HEADER_SIZE⟩,⟨52,encode 2 ELF_HEADER_SIZE⟩,
    ⟨54,encode 2 PROGRAM_HEADER_SIZE⟩,⟨56,encode 2 count⟩]

def segmentPatches (ph : ℕ) (segment : Segment) (offset : ℕ) : List (Patch UInt8) :=
  [⟨ph,encode 4 PT_LOAD⟩,⟨ph + 4,encode 4 segment.flags⟩,⟨ph + 8,encode 8 offset⟩,
    ⟨ph + 16,encode 8 segment.vaddr⟩,⟨ph + 24,encode 8 segment.vaddr⟩,
    ⟨ph + 32,encode 8 segment.data.length⟩,⟨ph + 40,encode 8 segment.memsz⟩,
    ⟨ph + 48,encode 8 PAGE_SIZE⟩,⟨offset,segment.data⟩]

def tablePatches : ℕ → List (Segment × ℕ) → List (Patch UInt8)
  | _, [] => []
  | index, (segment,offset) :: rest =>
    segmentPatches (64 + 56 * index) segment offset ++ tablePatches (index + 1) rest

def Laid : ℕ → List (Segment × ℕ) → ℕ → Prop
  | len, [], stop => len = stop
  | len, (segment,offset) :: rest, stop =>
    if segment.data = [] then offset = 0 ∧ Laid len rest stop
    else len ≤ offset ∧ 4096 ∣ offset ∧ Laid (offset + segment.data.length) rest stop

section

variable {σ ε : Type} {s : σ} {bytes data : List UInt8} {Q : List UInt8 → σ → Prop}
  {E : ε → σ → Prop} {ps : List (Patch UInt8)} {start ph offset len stop index : ℕ}
  {segment : Segment} {placed : List (Segment × ℕ)}

theorem spec_copyFromSlice (h : Fit (⟨start,data⟩ :: ps) bytes) :
    Spec (copyFromSlice bytes start data : Code σ ε (List UInt8)) s Q E ↔
      Q ((⟨start,data⟩ : Patch UInt8).apply bytes) s := by
  have hfit : start + data.length ≤ bytes.length := h _ List.mem_cons_self
  rw [copyFromSlice,if_pos hfit,spec_pure]

theorem put_spec {k : List UInt8 → Code σ ε (List UInt8)} (h : Fit (⟨start,data⟩ :: ps) bytes)
    (hk : Fit ps ((⟨start,data⟩ : Patch UInt8).apply bytes) →
      Spec (k ((⟨start,data⟩ : Patch UInt8).apply bytes)) s Q E) :
    Spec (copyFromSlice bytes start data >>= k) s Q E := by
  rw [spec_bind,spec_copyFromSlice h]
  exact hk h.tail

theorem putHeader_spec {entry count : ℕ} (h : Fit (headerPatches entry count) bytes) :
    Spec (putHeader entry count bytes : Code σ ε (List UInt8)) s
      (fun bytes' s' => bytes' = applyAll (headerPatches entry count) bytes ∧ s' = s)
      (fun _ _ => False) := by
  rw [putHeader]
  refine put_spec h fun h => put_spec h fun h => put_spec h fun h => put_spec h fun h => ?_
  refine put_spec h fun h => put_spec h fun h => put_spec h fun h => put_spec h fun h => ?_
  refine put_spec h fun h => put_spec h fun h => put_spec h fun h => ?_
  rw [putU16,spec_copyFromSlice h]
  exact ⟨rfl,rfl⟩

theorem putSegment_spec (h : Fit (segmentPatches ph segment offset) bytes) :
    Spec (putSegment ph segment offset bytes : Code σ ε (List UInt8)) s
      (fun bytes' s' => bytes' = applyAll (segmentPatches ph segment offset) bytes ∧ s' = s)
      (fun _ _ => False) := by
  rw [putSegment]
  refine put_spec h fun h => put_spec h fun h => put_spec h fun h => put_spec h fun h => ?_
  refine put_spec h fun h => put_spec h fun h => put_spec h fun h => put_spec h fun h => ?_
  rw [spec_ite,spec_copyFromSlice h,spec_pure]
  refine ⟨fun _ => ⟨rfl,rfl⟩,fun hnil => ⟨?_,rfl⟩⟩
  have hempty : segment.data = [] := not_not.mp hnil
  simp only [segmentPatches,applyAll_cons,applyAll_nil,hempty,Patch.apply_nil]

theorem putSegments_spec (hindex : 64 + 56 * (index + placed.length) < 2 ^ 64)
    (h : Fit (tablePatches index placed) bytes) :
    Spec (putSegments index placed bytes : Code σ ε (List UInt8)) s
      (fun bytes' s' => bytes' = applyAll (tablePatches index placed) bytes ∧ s' = s)
      (fun _ _ => False) := by
  induction placed generalizing index bytes with
  | nil =>
    rw [putSegments,spec_pure]
    exact ⟨rfl,rfl⟩
  | cons place rest ih =>
    obtain ⟨segment,offset⟩ := place
    have hmul : checkedMul index PROGRAM_HEADER_SIZE = some (56 * index) := by
      rw [checkedMul,if_pos (by unfold PROGRAM_HEADER_SIZE; omega),Nat.mul_comm]
    rw [List.length_cons] at hindex
    rw [putSegments,spec_bind,mul,hmul,spec_orAbort_some,spec_bind,
      spec_add (by unfold ELF_HEADER_SIZE; omega),spec_bind]
    rw [tablePatches] at h ⊢
    refine (putSegment_spec h.left).imp ?_
    rintro bytes' s' ⟨rfl,rfl⟩
    rw [applyAll_append]
    exact ih (by omega) h.right

theorem spec_alignUp {value : ℕ} {Q : ℕ → σ → Prop} (h : value + 4096 < 2 ^ 64) :
    Spec (alignUp value PAGE_SIZE : Code σ ε ℕ) s Q E ↔ Q ((value + 4095) / 4096 * 4096) s := by
  rw [alignUp,spec_bind,spec_add h,spec_bind,sub,if_pos (by omega),spec_pure,
    spec_pure]
  exact Iff.rfl

theorem layout_spec (segments : List Segment) (fileLen : ℕ)
    (hsmall : ∀ segment ∈ segments, segment.data.length ≤ 2 ^ 30)
    (hfile : fileLen + segments.length * 2 ^ 31 < 2 ^ 63) :
    Spec (layout segments fileLen : Code σ ε (List ℕ × ℕ)) s
      (fun r s' => r.1.length = segments.length ∧ Laid fileLen (segments.zip r.1) r.2 ∧
        r.2 ≤ fileLen + segments.length * 2 ^ 31 ∧ s' = s)
      (fun _ _ => False) := by
  induction segments generalizing fileLen with
  | nil =>
    rw [layout,spec_pure]
    exact ⟨rfl,rfl,Nat.le_add_right _ _,rfl⟩
  | cons segment rest ih =>
    have hdata := hsmall segment List.mem_cons_self
    have hrest := fun g hg => hsmall g (List.mem_cons_of_mem segment hg)
    rw [List.length_cons] at hfile ⊢
    have hskip : fileLen + rest.length * 2 ^ 31 ≤ fileLen + (rest.length + 1) * 2 ^ 31 := by omega
    rw [layout,spec_ite]
    refine ⟨fun hne => ?_,fun hnil => ?_⟩
    · rw [spec_bind,spec_alignUp (by omega),spec_bind,spec_add (by omega),spec_bind]
      refine (ih _ hrest (by omega)).imp ?_
      rintro ⟨offsets,stop⟩ s' ⟨hlen,hlaid,hle,rfl⟩
      rw [spec_pure]
      refine ⟨by rw [List.length_cons,hlen],?_,by omega,rfl⟩
      rw [List.zip_cons_cons,Laid,if_neg hne]
      exact ⟨by omega,Nat.dvd_mul_left _ _,hlaid⟩
    · rw [spec_bind]
      refine (ih fileLen hrest (hskip.trans_lt hfile)).imp ?_
      rintro ⟨offsets,stop⟩ s' ⟨hlen,hlaid,hle,rfl⟩
      rw [spec_pure]
      refine ⟨by rw [List.length_cons,hlen],?_,hle.trans hskip,rfl⟩
      rw [List.zip_cons_cons,Laid,if_pos (not_not.mp hnil)]
      exact ⟨rfl,hlaid⟩

theorem Laid.next (h : Laid len ((segment,offset) :: placed) stop) :
    ∃ next, len ≤ next ∧ Laid next placed stop ∧ 4096 ∣ offset ∧
      ((⟨offset,segment.data⟩ : Patch UInt8).stop = 0 ∨
        (⟨offset,segment.data⟩ : Patch UInt8).Within len next) := by
  rw [Laid] at h
  split at h
  · next hnil =>
    obtain ⟨rfl,h⟩ := h
    exact ⟨len,le_refl _,h,Nat.dvd_zero _,Or.inl (by simp [Patch.stop,hnil])⟩
  · obtain ⟨hle,hdvd,h⟩ := h
    exact ⟨_,by omega,h,hdvd,Or.inr ⟨hle,le_refl _⟩⟩

theorem Laid.le (h : Laid len placed stop) : len ≤ stop := by
  induction placed generalizing len with
  | nil => exact Nat.le_of_eq h
  | cons place rest ih =>
    obtain ⟨next,hle,hnext,-⟩ := h.next
    exact hle.trans (ih hnext)

theorem Laid.inside (h : Laid len placed stop) (hmem : (segment,offset) ∈ placed) :
    4096 ∣ offset ∧ offset + segment.data.length ≤ stop := by
  induction placed generalizing len with
  | nil => cases hmem
  | cons place rest ih =>
    obtain ⟨next,-,hnext,hdvd,hstop⟩ := h.next
    rcases List.mem_cons.mp hmem with rfl | hmem
    · refine ⟨hdvd,?_⟩
      rcases hstop with hz | hw
      · exact Nat.le_trans (Nat.le_of_eq hz) (Nat.zero_le _)
      · exact hw.2.trans hnext.le
    · exact ih hnext hmem

theorem headerPatches_within {entry count : ℕ} :
    ∀ p ∈ headerPatches entry count, p.Within 0 64 := by
  simp [headerPatches,Patch.Within,Patch.stop,ELF_MAGIC]

theorem headerPatches_apart {entry count : ℕ} :
    (headerPatches entry count).Pairwise Patch.Apart := by
  simp [headerPatches,Patch.Apart,Patch.stop,ELF_MAGIC]

theorem segmentPatches_within : ∀ p ∈ segmentPatches ph segment offset,
    p.Within ph (ph + 56) ∨ p = ⟨offset,segment.data⟩ := by
  simp [segmentPatches,Patch.Within,Patch.stop]

theorem segmentPatches_apart (h : (⟨offset,segment.data⟩ : Patch UInt8).stop = 0 ∨ ph + 56 ≤ offset) :
    (segmentPatches ph segment offset).Pairwise Patch.Apart := by
  simp only [Patch.stop] at h
  simp only [segmentPatches,List.pairwise_cons,List.forall_mem_cons,List.not_mem_nil,false_imp_iff,
    implies_true,List.Pairwise.nil,and_true,Patch.Apart,Patch.stop,encode_length]
  omega

theorem tablePatches_within (h : Laid len placed stop) : ∀ p ∈ tablePatches index placed,
    p.Within (64 + 56 * index) (64 + 56 * (index + placed.length)) ∨ p.Within len stop ∨ p.stop = 0 := by
  induction placed generalizing index len with
  | nil =>
    intro p hp
    cases hp
  | cons place rest ih =>
    obtain ⟨segment,offset⟩ := place
    obtain ⟨next,hle,hnext,-,hdata⟩ := h.next
    have hstop := hnext.le
    intro p hp
    rw [List.length_cons]
    rw [tablePatches] at hp
    rcases List.mem_append.mp hp with hp | hp
    · rcases segmentPatches_within p hp with hw | rfl
      · exact Or.inl ⟨hw.1,hw.2.trans (by omega)⟩
      · refine Or.inr (hdata.symm.imp_left ?_)
        exact fun hw => ⟨hw.1,hw.2.trans hstop⟩
    · rcases ih hnext p hp with hw | hw | hz
      · exact Or.inl ⟨hw.1.trans' (by omega),hw.2.trans (by omega)⟩
      · exact Or.inr (Or.inl ⟨hle.trans hw.1,hw.2⟩)
      · exact Or.inr (Or.inr hz)

theorem tablePatches_apart (h : Laid len placed stop)
    (htable : 64 + 56 * (index + placed.length) ≤ len) :
    (tablePatches index placed).Pairwise Patch.Apart := by
  induction placed generalizing index len with
  | nil => exact List.Pairwise.nil
  | cons place rest ih =>
    obtain ⟨segment,offset⟩ := place
    obtain ⟨next,hle,hnext,-,hdata⟩ := h.next
    rw [List.length_cons] at htable
    rw [tablePatches,List.pairwise_append]
    refine ⟨segmentPatches_apart (hdata.imp_right fun hw => ?_),ih hnext (by omega),?_⟩
    · exact Nat.le_trans (by omega) hw.1
    · intro p hp q hq
      rcases segmentPatches_within p hp with hw | rfl
      · rcases tablePatches_within hnext q hq with hw' | hw' | hz
        · exact hw.apart hw'
        · exact Or.inl (hw.2.trans (Nat.le_trans (by omega) hw'.1))
        · exact Patch.apart_of_stop hz
      · rcases hdata with hz | hw
        · exact (Patch.apart_of_stop hz).symm
        · rcases tablePatches_within hnext q hq with hw' | hw' | hz
          · exact Or.inr (hw'.2.trans (Nat.le_trans (by omega) hw.1))
          · exact hw.apart hw'
          · exact Patch.apart_of_stop hz

structure Written (entry : ℕ) (placed : List (Segment × ℕ)) (bytes : List UInt8) : Prop where
  header : ∀ p ∈ headerPatches entry placed.length, p.Holds bytes
  table : ∀ p ∈ tablePatches 0 placed, p.Holds bytes
  size : 64 + 56 * placed.length ≤ bytes.length
  length_lt : bytes.length < 2 ^ 63
  inside : ∀ {segment offset}, (segment,offset) ∈ placed →
    4096 ∣ offset ∧ offset + segment.data.length ≤ bytes.length

theorem written_applyAll (entry : ℕ) (bytes : List UInt8) (h : Laid len placed stop)
    (htable : 64 + 56 * placed.length ≤ len) (hlt : stop < 2 ^ 63) (hlen : bytes.length = stop) :
    Fit (headerPatches entry placed.length ++ tablePatches 0 placed) bytes ∧
      Written entry placed
        (applyAll (headerPatches entry placed.length ++ tablePatches 0 placed) bytes) := by
  have hle := h.le
  have hwithin : ∀ p ∈ tablePatches 0 placed, _ := tablePatches_within h
  rw [Nat.zero_add] at hwithin
  have hfit : Fit (headerPatches entry placed.length ++ tablePatches 0 placed) bytes := by
    intro p hp
    rw [hlen]
    rcases List.mem_append.mp hp with hp | hp
    · exact (headerPatches_within p hp).2.trans (by omega)
    · rcases hwithin p hp with hw | hw | hz
      · exact hw.2.trans (by omega)
      · exact hw.2
      · omega
  have hapart : (headerPatches entry placed.length ++ tablePatches 0 placed).Pairwise Patch.Apart := by
    refine List.pairwise_append.mpr
      ⟨headerPatches_apart,tablePatches_apart h (by omega),fun p hp q hq => ?_⟩
    have hp := headerPatches_within p hp
    rcases hwithin q hq with hw | hw | hz
    · exact hp.apart hw
    · exact Or.inl (hp.2.trans (Nat.le_trans (by omega) hw.1))
    · exact Patch.apart_of_stop hz
  have hholds := holds_of_pairwise hfit hapart
  refine ⟨hfit,fun p hp => hholds p (List.mem_append_left _ hp),
    fun p hp => hholds p (List.mem_append_right _ hp),?_,?_,?_⟩
  · rw [applyAll_length hfit]
    omega
  · rwa [applyAll_length hfit,hlen]
  · intro segment offset hmem
    rw [applyAll_length hfit,hlen]
    exact h.inside hmem

theorem elf_spec (entry : ℕ) {segments : List Segment} (hcount : segments.length ≤ 65535)
    (hsmall : ∀ segment ∈ segments, segment.data.length ≤ 2 ^ 30) :
    Spec (elf entry segments : Code σ ε (List UInt8)) s
      (fun bytes s' => ∃ placed, placed.map Prod.fst = segments ∧ Written entry placed bytes ∧ s' = s)
      (fun _ _ => False) := by
  have hmul : checkedMul PROGRAM_HEADER_SIZE segments.length = some (56 * segments.length) :=
    if_pos (by unfold PROGRAM_HEADER_SIZE; omega)
  rw [elf,spec_bind,mul,hmul,spec_orAbort_some,spec_bind,
    spec_add (by unfold ELF_HEADER_SIZE; omega),spec_bind,
    spec_alignUp (by unfold ELF_HEADER_SIZE; omega),spec_bind]
  refine (layout_spec segments _ hsmall (by unfold ELF_HEADER_SIZE; omega)).imp ?_
  rintro ⟨offsets,stop⟩ s' ⟨hlen,hlaid,hle,rfl⟩
  simp only at hlen hlaid hle ⊢
  have hzip : (segments.zip offsets).length = segments.length := by
    rw [List.length_zip,hlen,Nat.min_self]
  unfold ELF_HEADER_SIZE at hlaid hle
  obtain ⟨hfit,hwritten⟩ := written_applyAll entry (List.replicate stop 0) hlaid
    (by omega) (by omega) List.length_replicate
  rw [hzip] at hfit hwritten
  rw [spec_bind]
  refine (putHeader_spec hfit.left).imp ?_
  rintro bytes _ ⟨hbytes,rfl⟩
  rw [hbytes]
  refine (putSegments_spec (by omega) hfit.right).imp ?_
  rintro bytes _ ⟨hbytes,rfl⟩
  rw [hbytes,← applyAll_append]
  exact ⟨segments.zip offsets,List.map_fst_zip (by omega),hwritten,rfl⟩

end

end VladOs.Build
