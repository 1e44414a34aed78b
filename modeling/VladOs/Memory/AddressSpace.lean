import VladOs.Memory.Loops
import VladOs.Memory.Mapper

namespace VladOs

abbrev USER_P4_INDEX : ℕ := 1

inductive AddressSpaceError where
  | frameAllocationFailed
  | kernelUserSlotInUse
  | rangeOverflow
  | mapTo (error : MapToError)
  | unmap (error : UnmapError)
  deriving DecidableEq, Repr

inductive UserCopyError where
  | rangeOverflow
  | notMapped
  deriving DecidableEq, Repr

structure UserMapFlags where
  readable : Bool
  writable : Bool
  executable : Bool
  deriving DecidableEq, Repr

def UserMapFlags.readWrite : UserMapFlags := ⟨true,true,false⟩

def UserMapFlags.pageTableFlags (f : UserMapFlags) : ℕ :=
  if f.writable then PRESENT ||| USER_ACCESSIBLE ||| WRITABLE else PRESENT ||| USER_ACCESSIBLE

def entryAllowsUser (flags : ℕ) : Bool := contains flags (PRESENT ||| USER_ACCESSIBLE)

def validatePageRange (start stop : VirtAddr) : Except AddressSpaceError Unit :=
  if start.addr > stop.addr ∨ start.addr % PAGE_SIZE ≠ 0 ∨ stop.addr % PAGE_SIZE ≠ 0 then
    .error .rangeOverflow
  else .ok ()

def okOr {ε α : Type} (o : Option α) (e : ε) : Except ε α :=
  match o with
  | some a => .ok a
  | none => .error e

@[simp] theorem okOr_some {ε α : Type} (a : α) (e : ε) : okOr (some a) e = .ok a := rfl

@[simp] theorem okOr_none {ε α : Type} (e : ε) : okOr (none : Option α) e = .error e := rfl

structure AddressSpace where
  level4Frame : Frame
  deriving DecidableEq, Repr

namespace AddressSpace

def copyKernelEntries (newLevel4 : Frame) : List ℕ → Code Memory AddressSpaceError Unit
  | [] => pure ()
  | index :: rest => do
    let m ← Code.read
    let source := m.entry m.kernelLevel4Frame index
    if index = USER_P4_INDEX then
      if source ≠ 0 then Code.fail .kernelUserSlotInUse
      else copyKernelEntries newLevel4 rest
    else do
      let entry := if source ≠ 0 then removeFlags source USER_ACCESSIBLE else source
      Code.modify (Memory.setEntry newLevel4 index entry)
      copyKernelEntries newLevel4 rest

def newUser : Code Memory AddressSpaceError AddressSpace := do
  let level4Frame ← Code.orFail (← allocateFrame) .frameAllocationFailed
  Code.modify (Memory.zeroFrame level4Frame)
  copyKernelEntries level4Frame (List.range 512)
  Code.modify fun m => { m with addressSpaces := level4Frame :: m.addressSpaces }
  pure ⟨level4Frame⟩

def translateUser (space : AddressSpace) (m : Memory) (address : VirtAddr) :
    Option UserTranslation := do
  let p4 := m.entry space.level4Frame address.p4Index
  if !entryAllowsUser (entryFlags p4) then none
  else do
    let level3 ← entryFrame p4
    let p3 := m.entry level3 address.p3Index
    if !entryAllowsUser (entryFlags p3) then none
    else do
      let level2 ← entryFrame p3
      let p2 := m.entry level2 address.p2Index
      if !entryAllowsUser (entryFlags p2) then none
      else do
        let level1 ← entryFrame p2
        let p1 := m.entry level1 address.p1Index
        if !entryAllowsUser (entryFlags p1) then none
        else do
          let frame ← entryFrame p1
          some ⟨frame * PAGE_SIZE + address.addr % PAGE_SIZE,entryFlags p1⟩

variable (X : Mapper)

def mapFrame (space : AddressSpace) (address : VirtAddr) (frame : Frame) (flags : ℕ) :
    Code Memory AddressSpaceError Unit := fun m =>
  match X.mapTo space.level4Frame address frame flags m with
  | (.ok (),m') => .ok () m'
  | (.error e,m') => .error (.mapTo e) m'

def unmapPage (space : AddressSpace) (address : VirtAddr) : Code Memory AddressSpaceError Unit :=
  fun m =>
    match X.unmap space.level4Frame address m with
    | (.ok _,m') => .ok () m'
    | (.error e,m') => .error (.unmap e) m'

def mapZeroedUserPage (space : AddressSpace) (address : VirtAddr) (flags : ℕ) :
    Code Memory AddressSpaceError Frame := do
  let frame ← Code.orFail (← allocateFrame) .frameAllocationFailed
  Code.modify (Memory.zeroFrame frame)
  mapFrame X space address frame flags
  pure frame

def mapUserRegion (space : AddressSpace) (virtStart : VirtAddr) (size : ℕ) (flags : UserMapFlags) :
    Code Memory AddressSpaceError Unit :=
  if size = 0 then pure ()
  else do
    let start := alignDown virtStart.addr PAGE_SIZE
    let last ← Code.orFail (checkedAdd virtStart.addr size) .rangeOverflow
    let stop ← Code.orFail (alignUp last PAGE_SIZE) .rangeOverflow
    forEachPage (fun page => do
      let _ ← mapZeroedUserPage X space page flags.pageTableFlags
      pure ()) .rangeOverflow start stop

def unmapUserHeapPages (space : AddressSpace) (start stop : VirtAddr) :
    Code Memory AddressSpaceError Unit :=
  match validatePageRange start stop with
  | .error e => Code.fail e
  | .ok () => forEachPage (unmapPage X space) .rangeOverflow start.addr stop.addr

def mapUserHeapPages (space : AddressSpace) (start stop : VirtAddr) :
    Code Memory AddressSpaceError Unit :=
  match validatePageRange start stop with
  | .error e => Code.fail e
  | .ok () => forEachPage (fun page => do
      match ← Code.attempt (mapZeroedUserPage X space page UserMapFlags.readWrite.pageTableFlags) with
      | .ok _ => pure ()
      | .error e => do
        let _ : Except AddressSpaceError Unit ← Code.attempt (unmapUserHeapPages X space start page)
        Code.fail e) .rangeOverflow start.addr stop.addr

def mappedOr (space : AddressSpace) (address : VirtAddr) (m : Memory) :
    Except UserCopyError UserTranslation :=
  okOr (space.translateUser m address) .notMapped

def copyToUser (space : AddressSpace) (dst : VirtAddr) (src : List UInt8) :
    Code Memory UserCopyError Unit :=
  writeChunks space.mappedOr .rangeOverflow dst src 0

def zeroUserRange (space : AddressSpace) (dst : VirtAddr) (len : ℕ) :
    Code Memory UserCopyError Unit :=
  writeChunks space.mappedOr .rangeOverflow dst (List.replicate len 0) 0

def writeFrameBytes (frame : Frame) (bytes : List UInt8) : Code Memory AddressSpaceError Unit :=
  if bytes.length > 4096 then Code.fail .frameAllocationFailed
  else Code.modify (Memory.writeBytes frame 0 bytes)

def writeFrameU64 (frame : Frame) (value : ℕ) : Code Memory AddressSpaceError Unit :=
  Code.modify (Memory.writeBytes frame 0 (LittleEndian.encode 8 value))

end AddressSpace

end VladOs
