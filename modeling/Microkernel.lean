import Microkernel.Lib.Slot
import Microkernel.Proof.Identity
import Microkernel.Proof.Faults
import Microkernel.Proof.Contexts
import Microkernel.Proof.Channel
import Microkernel.Proof.Usable
import Microkernel.Proof.Wakeups
import Microkernel.Proof.Handshake
import Microkernel.Proof.Waiting
import Microkernel.Entry
import Microkernel.Proof.KernelStacks
import Microkernel.Proof.Registry
import Microkernel.Proof.Confinement
import Microkernel.Lib.Series
import Microkernel.Mem
import Microkernel.Proof.Frames
import Microkernel.Paging
import Microkernel.Proof.Paging
import Microkernel.Loader
import Microkernel.Proof.Containment
import Microkernel.Proof.Residue
import Microkernel.Interleaving
import Microkernel.Keyboard
import Microkernel.Proof.Bookkeeping
import Microkernel.Proof.Scancodes
import Microkernel.Proof.Finality
import Microkernel.Proof.Provenance
import Microkernel.Proof.Services
import Microkernel.Proof.Decision
import Microkernel.Proof.Draining
import Microkernel.Proof.Shares
import Microkernel.Proof.Rights
import Microkernel.User
import Microkernel.Proof.Printing
import Microkernel.Proof.Registers
import Microkernel.Lib.Rota
import Microkernel.Proof.Turns
import Microkernel.Proof.Progress
import Microkernel.Init
import Microkernel.Proof.Session
import Microkernel.Proof.Echo
import Microkernel.Proof.Response
import Microkernel.Lib.View
import Microkernel.Startup
import Microkernel.Proof.Startup
import Microkernel.Proof.Fences
import Microkernel.Switch
import Microkernel.Proof.Switch
import Microkernel.Proof.Accesses
import Microkernel.Proof.Retirement
import Microkernel.Lib.Fifo
import Microkernel.Running
import Microkernel.Proof.Wakers
