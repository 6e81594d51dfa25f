import Keel.Kernel.BootModules
import Keel.Module.Rule
import Keel.Sync.SpinLock
import Keel.Sync.WriteOnce
import Keel.Proofs.Frame.Recount
import Keel.Proofs.Frame.Placement
import Keel.Proofs.Heap.Neighbours
import Keel.Proofs.Kernel.Images
import Keel.Proofs.Module.Elf.Loading
import Keel.Proofs.Slab.Stack
import Keel.Proofs.Sync.Guards
import Keel.Proofs.Sync.Races
import Keel.Proofs.Heap.Pointers
import Keel.Proofs.Slab.Counts
import Keel.Proofs.Heap.Accounts
import Keel.Proofs.Module.Elf.Safety
import Keel.Proofs.Module.Ranges
import Keel.Proofs.Module.Elf.Alignment
import Keel.Proofs.Module.Registry
import Keel.Proofs.Kernel.Objects
import Keel.Proofs.Kernel.Records
import Keel.Proofs.Kernel.Tenants
import Keel.Proofs.Kernel.InStep
import Keel.Proofs.Frame.Exactness
import Keel.Proofs.Module.Shelves
import Keel.Proofs.Blind
import Keel.Proofs.Kernel.Lifetime
import Keel.Proofs.Kernel.Atomicity
import Keel.Proofs.Kernel.Footprint
import Keel.Proofs.Module.Loaders
import Keel.Proofs.Kernel.Corruption
import Keel.Proofs.Recoverable
import Keel.Proofs.Quiet
import Keel.Proofs.Heap.Supply
import Keel.Proofs.Heap.Leases
import Keel.Proofs.Heap.Blocks
import Keel.Proofs.Heap.Refusals
import Keel.Proofs.Heap.Dispensing
import Keel.Proofs.Heap.Shedding
import Keel.Proofs.Provided
import Keel.Proofs.Kernel.Stages
import Keel.Proofs.Frame.FirstFit
import Keel.Proofs.Module.Elf.Accepted
import Keel.Proofs.Module.Elf.Greedy
import Keel.Proofs.Module.Elf.Symbols
import Keel.Proofs.Module.Elf.Imports
import Keel.Proofs.Module.Elf.Entry
import Keel.Proofs.Frame.Reservations
import Keel.Proofs.Frame.Returns
import Keel.Proofs.Kernel.Halfway
import Keel.Proofs.Slab.Forgery
import Keel.Proofs.Frame.Headroom
import Keel.Proofs.Slab.Containment
import Keel.Proofs.Rounding
