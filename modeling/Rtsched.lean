import Rtsched.RBTree.Run
import Rtsched.Ktimer.QueueRun
import Rtsched.Ktimer.Timers
import Rtsched.Kernel.Requeue
import Rtsched.Kernel.Serial
import Rtsched.Kernel.Edf
import Rtsched.Kernel.Fifo
import Rtsched.Kernel.Wakeup
import Rtsched.Kernel.Clock
import Rtsched.Kernel.Work
import Rtsched.Kernel.Fair
import Rtsched.Kernel.Progress
import Rtsched.Kernel.Share
import Rtsched.Kernel.Sleep
import Rtsched.Kernel.Semaphore
import Rtsched.Kernel.Mutex
import Rtsched.Kernel.Window
import Rtsched.Kernel.Release
import Rtsched.Kernel.Deadline
import Rtsched.Kernel.Boost
import Rtsched.Kernel.Charge
import Rtsched.Kernel.Reload
import Rtsched.Kernel.Lock
import Rtsched.Kernel.Overflow
import Rtsched.Kernel.Dispatch
import Rtsched.Kernel.Atomic
import Rtsched.Kernel.Rebuild
import Rtsched.Waitq.QueueRun
import Rtsched.Arch.Resume
import Rtsched.Arch.IsrTimingRun
import Rtsched.Arch.HostLock
import Rtsched.Diagnostics.Runq
import Rtsched.Diagnostics.TraceRun
