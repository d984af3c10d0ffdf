import Auxv6.Process.WaitNotify
import Auxv6.Net.TcpRetransmit
import Auxv6.Fs.BcacheSafety
import Auxv6.Fs.LogSafety
import Auxv6.File.DescriptorSafety
import Auxv6.Fs.TmpfsSafety
import Auxv6.Vm.KernelCopies
import Auxv6.Libc.UmallocRun
import Auxv6.Process.Credentials
import Auxv6.Process.WaitFastPath
import Auxv6.Process.SignalFrames
import Auxv6.Process.Alarms
import Auxv6.Process.QuantumRun
import Auxv6.Process.WakeExact
import Auxv6.Exec.ExecImage
import Auxv6.Ipc.PipePoll
import Auxv6.Mem.KmallocRun
import Auxv6.Fs.TmpfsContent
import Auxv6.Fs.Rmdir
import Auxv6.Fs.Rename
import Auxv6.Fs.InodeCache
import Auxv6.Fs.Ext2.Allocators
import Auxv6.Fs.Listing
import Auxv6.Fs.MsdosInums
import Auxv6.Fs.Blockdev
import Auxv6.Net.Routes
import Auxv6.Net.CloseStates
import Auxv6.Net.SocketPoll
import Auxv6.Net.Datagrams
import Auxv6.File.Append
import Auxv6.Fs.Loop
import Auxv6.Fs.NfsHandles
import Auxv6.Libc.Stdio
import Auxv6.Libc.Strto
import Auxv6.Libc.Timecore
import Auxv6.Process.Libgcc
