import VladOs.Arch.Metal
import VladOs.Console.Screen
import VladOs.Kernel.Booting
import VladOs.Kernel.BreakLaws
import VladOs.Kernel.Handling
import VladOs.Kernel.LoadErrors
import VladOs.Kernel.MemoryLock
import VladOs.Kernel.Parents
import VladOs.Kernel.Resources
import VladOs.Kernel.SpawnErrors
import VladOs.Kernel.Streams
import VladOs.Kernel.Supervision
import VladOs.Loader.Safety
import VladOs.Memory.FrameOrder
import VladOs.Program.Output
import VladOs.Program.Termination
