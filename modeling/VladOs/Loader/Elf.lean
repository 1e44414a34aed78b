import VladOs.Loader.User

namespace VladOs

abbrev EI_CLASS : ℕ := 4
abbrev EI_DATA : ℕ := 5
abbrev EI_VERSION : ℕ := 6
abbrev ELFCLASS64 : UInt8 := 2
abbrev ELFDATA2LSB : UInt8 := 1
abbrev ET_EXEC : ℕ := 2
abbrev EM_X86_64 : ℕ := 0x3e
abbrev EV_CURRENT : ℕ := 1
abbrev ELF_HEADER_SIZE : ℕ := 64
abbrev PROGRAM_HEADER_SIZE : ℕ := 56
abbrev PT_LOAD : ℕ := 1
abbrev PF_X : ℕ := 1
abbrev PF_W : ℕ := 2
abbrev PF_R : ℕ := 4

inductive ElfLoadError where
  | badMagic
  | unsupportedClass
  | unsupportedEndian
  | unsupportedType
  | unsupportedMachine
  | malformedHeader
  | malformedProgramHeader
  | segmentOutsideUserRange
  | segmentMemSizeLessThanFileSize
  | segmentOverlap
  | unalignedSegment
  | entryNotExecutable
  | noHeapRange
  | outOfFrames
  | mapFailed
  | userCopyFailed
  deriving DecidableEq, Repr

structure LoadSegment where
  vaddr : ℕ
  filesz : ℕ
  memsz : ℕ
  flags : ℕ
  data : List UInt8
  mapStart : ℕ
  mapEnd : ℕ
  deriving DecidableEq, Repr

structure ParsedElf where
  entry : ℕ
  segments : List LoadSegment
  deriving DecidableEq, Repr

def ELF_MAGIC : List UInt8 := [0x7f,0x45,0x4c,0x46]

section

variable {σ ε : Type}

def add (a b : ℕ) : Code σ ε ℕ := Code.orAbort (checkedAdd a b)

def sub (a b : ℕ) : Code σ ε ℕ := if b ≤ a then pure (a - b) else Code.abort

def slice (bytes : List UInt8) (start stop : ℕ) : Option (List UInt8) :=
  if start ≤ stop ∧ stop ≤ bytes.length then some ((bytes.drop start).take (stop - start)) else none

def readLe (width : ℕ) (bytes : List UInt8) (offset : ℕ) : Code σ ElfLoadError ℕ := do
  let stop ← add offset width
  let data ← Code.orFail (slice bytes offset stop) .malformedHeader
  pure (LittleEndian.decode data)

def readU16 (bytes : List UInt8) (offset : ℕ) : Code σ ElfLoadError ℕ := readLe 2 bytes offset

def readU32 (bytes : List UInt8) (offset : ℕ) : Code σ ElfLoadError ℕ := readLe 4 bytes offset

def readU64 (bytes : List UInt8) (offset : ℕ) : Code σ ElfLoadError ℕ := readLe 8 bytes offset

def checkedMul (a b : ℕ) : Option ℕ := if a * b < 2 ^ 64 then some (a * b) else none

def mul (a b : ℕ) : Code σ ε ℕ := Code.orAbort (checkedMul a b)

def checkedUsizeRangeEnd (start len : ℕ) : Option ℕ := checkedAdd start len

def require (p : Prop) [Decidable p] (e : ε) : Code σ ε Unit := if p then pure () else Code.fail e

def parseProgramHeader (bytes : List UInt8) (offset : ℕ) : Code σ ElfLoadError LoadSegment := do
  let pType ← readU32 bytes offset
  require (pType = PT_LOAD) .malformedProgramHeader
  let flags ← readU32 bytes (← add offset 4)
  require (flags &&& (2 ^ 32 - 1 - (PF_R ||| PF_W ||| PF_X)) = 0) .malformedProgramHeader
  let fileOffset ← readU64 bytes (← add offset 8)
  let vaddr ← readU64 bytes (← add offset 16)
  let filesz ← readU64 bytes (← add offset 32)
  let memsz ← readU64 bytes (← add offset 40)
  let align ← readU64 bytes (← add offset 48)
  require (¬ memsz < filesz) .segmentMemSizeLessThanFileSize
  require (memsz ≠ 0) .malformedProgramHeader
  require (align = PAGE_SIZE ∧ vaddr % PAGE_SIZE = 0 ∧ fileOffset % PAGE_SIZE = 0) .unalignedSegment
  require (vaddr % align = fileOffset % align) .unalignedSegment
  let dataEnd ← Code.orFail (checkedUsizeRangeEnd fileOffset filesz) .malformedProgramHeader
  require (¬ dataEnd > bytes.length) .malformedProgramHeader
  let segmentEnd ← Code.orFail (checkedAdd vaddr memsz) .malformedProgramHeader
  let mapStart := alignDown vaddr PAGE_SIZE
  let mapEnd ← Code.orFail (alignUp segmentEnd PAGE_SIZE) .malformedProgramHeader
  require (¬ (mapStart < USER_ELF_LOAD_START ∨ mapEnd > USER_ELF_LOAD_END ∨ mapStart ≥ mapEnd))
    .segmentOutsideUserRange
  let data ← Code.orAbort (slice bytes fileOffset dataEnd)
  pure ⟨vaddr,filesz,memsz,flags,data,mapStart,mapEnd⟩

def overlaps (segment existing : LoadSegment) : Bool :=
  segment.mapStart < existing.mapEnd && existing.mapStart < segment.mapEnd

def checkSegmentOverlap (existing : List LoadSegment) (segment : LoadSegment) :
    Code σ ElfLoadError Unit :=
  require (¬ existing.any (overlaps segment)) .segmentOverlap

def LoadSegment.userFlags (s : LoadSegment) : UserMapFlags :=
  ⟨s.flags &&& PF_R ≠ 0,s.flags &&& PF_W ≠ 0,s.flags &&& PF_X ≠ 0⟩

def LoadSegment.segmentEnd (s : LoadSegment) : Code σ ε ℕ := add s.vaddr s.memsz

def LoadSegment.containsEntry (s : LoadSegment) (entry : ℕ) : Code σ ε Bool :=
  if s.flags &&& PF_X ≠ 0 ∧ entry ≥ s.vaddr then do
    let stop ← add s.vaddr s.memsz
    pure (decide (entry < stop))
  else pure false

def anyContains (entry : ℕ) : List LoadSegment → Code σ ε Bool
  | [] => pure false
  | segment :: rest => do
    if ← segment.containsEntry entry then pure true else anyContains entry rest

def segmentEnds : List LoadSegment → Code σ ε (List ℕ)
  | [] => pure []
  | segment :: rest => do
    let stop ← segment.segmentEnd
    let stops ← segmentEnds rest
    pure (stop :: stops)

def ParsedElf.maxSegmentEnd (elf : ParsedElf) : Code σ ε ℕ := do
  Code.orAbort (← segmentEnds elf.segments).max?

def parseSegments (bytes : List UInt8) (base : ℕ) : List ℕ → List LoadSegment →
    Code σ ElfLoadError (List LoadSegment)
  | [], segments => pure segments
  | index :: rest, segments => do
    let offset ← add base (← mul index PROGRAM_HEADER_SIZE)
    let segment ← parseProgramHeader bytes offset
    checkSegmentOverlap segments segment
    parseSegments bytes base rest (segments ++ [segment])

def parseElf (bytes : List UInt8) : Code σ ElfLoadError ParsedElf := do
  require (¬ bytes.length < 4) .malformedHeader
  let magic ← Code.orAbort (slice bytes 0 4)
  require (magic = ELF_MAGIC) .badMagic
  require (¬ bytes.length < ELF_HEADER_SIZE) .malformedHeader
  require ((← Code.orAbort bytes[EI_CLASS]?) = ELFCLASS64) .unsupportedClass
  require ((← Code.orAbort bytes[EI_DATA]?) = ELFDATA2LSB) .unsupportedEndian
  require ((← Code.orAbort bytes[EI_VERSION]?) = 1) .malformedHeader
  require ((← readU32 bytes 20) = EV_CURRENT) .malformedHeader
  require ((← readU16 bytes 16) = ET_EXEC) .unsupportedType
  require ((← readU16 bytes 18) = EM_X86_64) .unsupportedMachine
  require ((← readU16 bytes 52) = ELF_HEADER_SIZE) .malformedHeader
  require ((← readU16 bytes 54) = PROGRAM_HEADER_SIZE) .malformedProgramHeader
  let entry ← readU64 bytes 24
  let programHeaderOffset ← readU64 bytes 32
  let programHeaderCount ← readU16 bytes 56
  require (programHeaderCount ≠ 0) .malformedHeader
  let programHeadersSize ← Code.orFail (checkedMul PROGRAM_HEADER_SIZE programHeaderCount)
    .malformedProgramHeader
  let programHeadersEnd ← Code.orFail (checkedUsizeRangeEnd programHeaderOffset programHeadersSize)
    .malformedProgramHeader
  require (¬ programHeadersEnd > bytes.length) .malformedProgramHeader
  let segments ← parseSegments bytes programHeaderOffset (List.range programHeaderCount) []
  require (segments ≠ []) .malformedProgramHeader
  require (← anyContains entry segments) .entryNotExecutable
  pure ⟨entry,segments⟩

end

def mapAddressSpaceError : AddressSpaceError → ElfLoadError
  | .frameAllocationFailed => .outOfFrames
  | .kernelUserSlotInUse | .rangeOverflow | .mapTo _ | .unmap _ => .mapFailed

def mapUserCopyError : UserCopyError → ElfLoadError
  | .rangeOverflow | .notMapped => .userCopyFailed

section

variable (X : Mapper)

def clearBss (space : AddressSpace) (segment : LoadSegment) : Code Memory ElfLoadError Unit :=
  if segment.memsz > segment.filesz then do
    let bss ← virtAddr (← add segment.vaddr segment.filesz)
    let len ← sub segment.memsz segment.filesz
    Code.mapError mapUserCopyError (space.zeroUserRange bss len)
  else pure ()

def loadSegments (space : AddressSpace) : List LoadSegment → Code Memory ElfLoadError Unit
  | [] => pure ()
  | segment :: rest => do
    let start ← virtAddr segment.mapStart
    let size ← sub segment.mapEnd segment.mapStart
    Code.mapError mapAddressSpaceError (space.mapUserRegion X start size segment.userFlags)
    let dst ← virtAddr segment.vaddr
    Code.mapError mapUserCopyError (space.copyToUser dst segment.data)
    clearBss space segment
    loadSegments space rest

def loadUserElf (bytes : List UInt8) (arg0 : UInt64) : Code Memory ElfLoadError UserTaskInit := do
  let elf ← parseElf bytes
  let heap ← Code.mapError (fun _ => .noHeapRange) (heapForLoadedImage (← elf.maxSegmentEnd))
  let space ← Code.mapError mapAddressSpaceError AddressSpace.newUser
  loadSegments X space elf.segments
  Code.mapError mapAddressSpaceError (mapUserStack X space)
  let entryPoint ← virtAddr elf.entry
  let userStackTop ← virtAddr USER_STACK_TOP
  pure ⟨space,entryPoint,userStackTop,heap,arg0⟩

end

end VladOs
