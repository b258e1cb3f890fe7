import Redwing.AppendMode
import Redwing.BuddyCoalesce
import Redwing.BuddyConservation
import Redwing.CfsSched
import Redwing.Condvar
import Redwing.EfsDirMap
import Redwing.EfsLayout
import Redwing.EfsPanics
import Redwing.ExecArgs
import Redwing.ExecSignals
import Redwing.ExitWait
import Redwing.GroupKill
import Redwing.MountCreate
import Redwing.PageMap
import Redwing.PageRangeExact
import Redwing.PathParent
import Redwing.PipeCpus
import Redwing.RamSnapshot
import Redwing.SchedulerState
import Redwing.SharedKernel
import Redwing.ShellStatus
import Redwing.SignalReturn
import Redwing.SlabInfo
import Redwing.SleepMutexLocks
import Redwing.Spinlock
import Redwing.StdinLines
import Redwing.SwitchInterrupts
import Redwing.SysArgs
import Redwing.TimerOrder
import Redwing.Timespec
import Redwing.TtyWait
import Redwing.UserHeap
import Redwing.VirtioHistory
import Redwing.VmapRollback
import Redwing.WaitQueueLocks
