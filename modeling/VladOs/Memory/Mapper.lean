import VladOs.Memory.MemoryState

namespace VladOs

inductive MapToError where
  | frameAllocationFailed
  | parentEntryHugePage
  | pageAlreadyMapped (frame : Frame)
  deriving DecidableEq, Repr

inductive UnmapError where
  | parentEntryHugePage
  | pageNotMapped
  deriving DecidableEq, Repr

def parentFlags (flags : ℕ) : ℕ := flags &&& (PRESENT ||| WRITABLE ||| USER_ACCESSIBLE)

def VirtAddr.indices (v : VirtAddr) : List ℕ := [v.p4Index,v.p3Index,v.p2Index,v.p1Index]

inductive MapsTo (frame : Frame) (flags : ℕ) :
    Frame → List ℕ → Memory → Except MapToError Unit → Memory → Prop where
  | leaf {t i m} : m.entry t i = 0 →
      MapsTo frame flags t [i] m (.ok ()) (m.setEntry t i (makeEntry frame flags))
  | mapped {t i m} : m.entry t i ≠ 0 →
      MapsTo frame flags t [i] m (.error (.pageAlreadyMapped frame)) m
  | existing {t i j is m f r m'} : m.entry t i ≠ 0 →
      entryFrame (m.entry t i ||| parentFlags flags) = some f →
      MapsTo frame flags f (j :: is) (m.setEntry t i (m.entry t i ||| parentFlags flags)) r m' →
      MapsTo frame flags t (i :: j :: is) m r m'
  | created {t i j is m f r m'} : m.entry t i = 0 → m.nextFrame = some f →
      MapsTo frame flags f (j :: is)
        ((m.taken.zeroFrame f).setEntry t i (makeEntry f (parentFlags flags))) r m' →
      MapsTo frame flags t (i :: j :: is) m r m'
  | exhausted {t i j is m} : m.entry t i = 0 → m.nextFrame = none →
      MapsTo frame flags t (i :: j :: is) m (.error .frameAllocationFailed) m.taken
  | huge {t i j is m} : m.entry t i ≠ 0 →
      entryFrame (m.entry t i ||| parentFlags flags) = none →
      MapsTo frame flags t (i :: j :: is) m (.error .parentEntryHugePage)
        (m.setEntry t i (m.entry t i ||| parentFlags flags))

inductive Unmaps : Frame → List ℕ → Memory → Except UnmapError Frame → Memory → Prop where
  | leaf {t i m f} : entryFrame (m.entry t i) = some f →
      Unmaps t [i] m (.ok f) (m.setEntry t i 0)
  | next {t i j is m f r m'} : entryFrame (m.entry t i) = some f →
      Unmaps f (j :: is) m r m' → Unmaps t (i :: j :: is) m r m'
  | missing {t i is m e} : entryFrame (m.entry t i) = none → Unmaps t (i :: is) m (.error e) m

structure Mapper where
  mapTo : Frame → VirtAddr → Frame → ℕ → Memory → Except MapToError Unit × Memory
  unmap : Frame → VirtAddr → Memory → Except UnmapError Frame × Memory
  mapTo_spec : ∀ root page frame flags m, contains flags PRESENT = true →
    MapsTo frame flags root page.indices m
      (mapTo root page frame flags m).1 (mapTo root page frame flags m).2
  unmap_spec : ∀ root page m,
    Unmaps root page.indices m (unmap root page m).1 (unmap root page m).2

namespace OffsetPageTable

def mapPath (frame : Frame) (flags : ℕ) :
    Frame → List ℕ → Memory → Except MapToError Unit × Memory
  | _, [], m => (.ok (),m)
  | t, [i], m =>
    if m.entry t i = 0 then (.ok (),m.setEntry t i (makeEntry frame flags))
    else (.error (.pageAlreadyMapped frame),m)
  | t, i :: j :: is, m =>
    if m.entry t i = 0 then
      match m.nextFrame with
      | some f => mapPath frame flags f (j :: is)
          ((m.taken.zeroFrame f).setEntry t i (makeEntry f (parentFlags flags)))
      | none => (.error .frameAllocationFailed,m.taken)
    else
      let m₁ := m.setEntry t i (m.entry t i ||| parentFlags flags)
      match entryFrame (m.entry t i ||| parentFlags flags) with
      | some f => mapPath frame flags f (j :: is) m₁
      | none => (.error .parentEntryHugePage,m₁)

def missing (e : ℕ) : UnmapError :=
  if contains e PRESENT then .parentEntryHugePage else .pageNotMapped

def unmapPath : Frame → List ℕ → Memory → Except UnmapError Frame × Memory
  | _, [], m => (.error .pageNotMapped,m)
  | t, [i], m =>
    match entryFrame (m.entry t i) with
    | some f => (.ok f,m.setEntry t i 0)
    | none => (.error (missing (m.entry t i)),m)
  | t, i :: j :: is, m =>
    match entryFrame (m.entry t i) with
    | some f => unmapPath f (j :: is) m
    | none => (.error (missing (m.entry t i)),m)

theorem mapPath_mapsTo (frame : Frame) (flags : ℕ) (t : Frame) (i : ℕ) (is : List ℕ) (m : Memory) :
    MapsTo frame flags t (i :: is) m (mapPath frame flags t (i :: is) m).1
      (mapPath frame flags t (i :: is) m).2 := by
  induction is generalizing t i m with
  | nil =>
    by_cases h : m.entry t i = 0
    · simpa [mapPath,h] using MapsTo.leaf h
    · simpa [mapPath,h] using MapsTo.mapped h
  | cons j is ih =>
    by_cases h : m.entry t i = 0
    · cases hf : m.nextFrame with
      | none => simpa [mapPath,h,hf] using MapsTo.exhausted h hf
      | some f =>
        simp only [mapPath,h,hf,if_true]
        exact .created h hf (ih _ _ _)
    · cases hf : entryFrame (m.entry t i ||| parentFlags flags) with
      | none => simpa [mapPath,h,hf] using MapsTo.huge h hf
      | some f =>
        simp only [mapPath,h,hf,if_false]
        exact .existing h hf (ih _ _ _)

theorem unmapPath_unmaps (t : Frame) (i : ℕ) (is : List ℕ) (m : Memory) :
    Unmaps t (i :: is) m (unmapPath t (i :: is) m).1 (unmapPath t (i :: is) m).2 := by
  induction is generalizing t i with
  | nil =>
    cases hf : entryFrame (m.entry t i) with
    | none => simpa [unmapPath,hf] using Unmaps.missing hf
    | some f => simpa [unmapPath,hf] using Unmaps.leaf hf
  | cons j is ih =>
    cases hf : entryFrame (m.entry t i) with
    | none => simpa [unmapPath,hf] using Unmaps.missing hf
    | some f =>
      simp only [unmapPath,hf]
      exact .next hf (ih f j)

def mapper : Mapper where
  mapTo root page frame flags m := mapPath frame flags root page.indices m
  unmap root page m := unmapPath root page.indices m
  mapTo_spec _ _ _ _ _ _ := mapPath_mapsTo _ _ _ _ _ _
  unmap_spec _ _ _ := unmapPath_unmaps _ _ _ _

end OffsetPageTable

end VladOs
