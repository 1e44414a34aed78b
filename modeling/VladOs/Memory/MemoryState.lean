import VladOs.Library.Code
import VladOs.Memory.PhysicalMemory

namespace VladOs

inductive MemoryRegionType where
  | usable
  | unusable
  deriving DecidableEq, Repr

structure MemoryRegion where
  startAddr : ℕ
  endAddr : ℕ
  regionType : MemoryRegionType
  deriving Repr

def stepBy (start stop : ℕ) : List ℕ :=
  (List.range ((stop - start + 4095) / 4096)).map fun k => start + 4096 * k

def usableFrames (memoryMap : List MemoryRegion) : List Frame :=
  let usableRegions := memoryMap.filter fun region => region.regionType = .usable
  let frameAddresses := usableRegions.flatMap fun region => stepBy region.startAddr region.endAddr
  frameAddresses.map fun addr => addr / PAGE_SIZE

structure BootInfoFrameAllocator where
  memoryMap : List MemoryRegion
  next : ℕ

def BootInfoFrameAllocator.allocateFrame (a : BootInfoFrameAllocator) :
    Option Frame × BootInfoFrameAllocator :=
  ((usableFrames a.memoryMap)[a.next]?,{ a with next := a.next + 1 })

structure Memory where
  kernelLevel4Frame : Frame
  frameAllocator : BootInfoFrameAllocator
  bytes : PhysMem
  addressSpaces : List Frame

namespace Memory

def entry (m : Memory) (table : Frame) (index : ℕ) : ℕ := m.bytes.entry table index

def setEntry (table : Frame) (index value : ℕ) (m : Memory) : Memory :=
  { m with bytes := m.bytes.setEntry table index value }

def zeroFrame (frame : Frame) (m : Memory) : Memory :=
  { m with bytes := m.bytes.zeroFrame frame }

def writeBytes (frame : Frame) (offset : ℕ) (bytes : List UInt8) (m : Memory) : Memory :=
  { m with bytes := m.bytes.writeBytes frame offset bytes }

def taken (m : Memory) : Memory :=
  { m with frameAllocator := m.frameAllocator.allocateFrame.2 }

def nextFrame (m : Memory) : Option Frame := m.frameAllocator.allocateFrame.1

end Memory

def allocateFrame {ε : Type} : Code Memory ε (Option Frame) := fun m => .ok m.nextFrame m.taken

end VladOs
