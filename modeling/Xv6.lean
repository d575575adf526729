import Xv6.Log.Bounds
import Xv6.Log.GroupCommit
import Xv6.Fs.ByteArray
import Xv6.Syscall.Pointers
import Xv6.Log.Waiters
import Xv6.Fs.IcacheSafety
import Xv6.Bio.Crash
import Xv6.Pipe.Sleepers
import Xv6.Proc.Kill
import Xv6.Proc.OneCpu
import Xv6.File.Exact
import Xv6.Mkfs.Mount
import Xv6.Console.Discipline
import Xv6.Vm.Fork
import Xv6.Vm.Copyout
import Xv6.Proc.Count
import Xv6.Fs.Balloc
import Xv6.Umalloc.Process
import Xv6.Fs.Resolve
import Xv6.Fs.SharedOffset
import Xv6.Bio.Commit
import Xv6.Ide.Errors
import Xv6.Proc.Spinlock
import Xv6.Memmove
import Xv6.Grep.Lines
import Xv6.Mp
import Xv6.Sh.Parsecmd
import Xv6.Fs.Failure
