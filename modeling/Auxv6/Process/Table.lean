import Auxv6.Process.Mlfq

/-!
# The process table (core/proc.c, proc_signal.c, proc_lifecycle.c, proc_sched.c)

The state is what `ptable.lock` protects; each section that holds the lock is one function. A process
that gives up its CPU in `sched` is resumed by `scheduler` under the same lock, so a dispatch also runs
the rest of its section: `context` says which one that is. The kernel stack, the address space, the files,
the credentials, `ppid` and the statistics are left out. A panic is `none`.
-/

namespace Auxv6.Process
open Machine Function

inductive ProcState where
  | unused
  | embryo
  | sleeping
  | runnable
  | running
  | stopped
  | zombie
  deriving DecidableEq

inductive WaitEvent where
  | none
  | stopped
  | continued
  deriving DecidableEq

/-- What a process sleeps on: the tick counter, a slot of the process table, or
another address. -/
inductive Chan where
  | ticks
  | slot (p : Slot)
  | addr (a : ℕ)
  deriving DecidableEq

structure WaitOptions where
  wnohang : Bool
  wuntraced : Bool
  wcontinued : Bool
  deriving DecidableEq

/-- Where a process continues after `sched`: `forkret`, the end of `yield` or `proc_maybe_stop_current`, or the
rest of `sleep`, in `proc_waitpid` or not; `none` while it runs, and in a slot that never ran. -/
inductive Context where
  | none
  | forkret
  | ret
  | sleep (chan : Chan)
  | waitpid (pid : Int) (options : WaitOptions)
  deriving DecidableEq

abbrev Sigset := BitVec 32

structure Proc where
  state : ProcState
  pid : Int
  pgid : Int
  sid : Int
  parent : Option Slot
  chan : Option Chan
  onTickq : Bool
  killed : Bool
  xstatus : ℕ
  waitEvent : WaitEvent
  waitStatus : ℕ
  sigPending : Sigset
  sigCaught : Sigset
  sigMask : Sigset
  sigIgnored : Sigset
  sigHandler : ℕ → ℕ
  alarmTicks : ℕ
  alarmIntervalTicks : ℕ
  context : Context
  np : Option Slot

structure State where
  proc : Slot → Proc
  mlfq : Mlfq
  cpu : ℕ → Option Slot
  chanWaitHash : ℕ → ℕ
  tickSleepq : List Slot
  ticks : ℕ
  nextpid : ℕ
  initproc : Option Slot
  activeAlarmCount : Int
  lastBoostTick : ℕ
  boostInterval : ℕ

def slots : List Slot := List.finRange nproc
def State.setProc (s : State) (p : Slot) (f : Proc → Proc) : State := {s with proc := update s.proc p (f (s.proc p))}
def State.setCpu (s : State) (c : ℕ) (o : Option Slot) : State := {s with cpu := update s.cpu c o}
def State.makeRunnable (s : State) (p : Slot) (reason : SchedEnq) : State :=
  { s.setProc p (fun x => {x with state := .runnable}) with
    mlfq := schedqEnqueueLocked s.mlfq s.ticks p reason }

/-! ### Signals -/

def sighup : ℕ := 1
def sigkill : ℕ := 9
def sigalrm : ℕ := 14
def sigcont : ℕ := 18
def sigstop : ℕ := 19
def sigtstp : ℕ := 20
def nsig : ℕ := 32

def sigbit (signo : ℕ) : Sigset := 1#32 <<< (signo-1)
def validSigno (signo : ℕ) : Bool := decide (0<signo ∧ signo<nsig)
def sigUnion (l : List ℕ) : Sigset := l.foldl (fun acc n => acc ||| sigbit n) 0

/-- The signals whose default action is to terminate, stop and continue
(`proc.c:208-219`), each in the order in which `signal_pick_fatal` and
`signal_pick_stop` look at them (`proc_signal.c:13-68`). -/
def fatalSignals : List ℕ := [9,11,7,4,8,6,15,2,3,1,5,13,14,10,12,24,25,31]
def stopSignals : List ℕ := [19,20,21,22]
def fatalSet : Sigset := sigUnion fatalSignals
def stopSet : Sigset := sigUnion stopSignals
def contSet : Sigset := sigbit sigcont

/-- `signal_pick_stop` and `signal_pick_fatal`: the first signal of the list that is
pending, 0 if there is none. -/
def signalPick (order : List ℕ) (pending : Sigset) : ℕ :=
  (order.find? fun n => decide (pending &&& sigbit n≠0)).getD 0

def wstatusSig (sig : ℕ) : ℕ := sig &&& 0x7f
def wstatusStop (sig : ℕ) : ℕ := ((sig &&& 0xff) <<< 8) ||| 0x7f
def wstatusCont : ℕ := 0xffff
def wstatusExit (code : ℕ) : ℕ := (code &&& 0xff) <<< 8

/-- `proc_signal.c:70-96`. -/
def procNoteSignalLocked (s : State) (p : Slot) (signo : ℕ) : State :=
  if ¬ validSigno signo then s
  else
    let s:=s.setProc p fun x => {x with sigPending := x.sigPending ||| sigbit signo}
    let s:=if signo=sigcont then
        let s:=s.setProc p fun x =>
          {x with sigPending := x.sigPending &&& ~~~(sigbit sigstop ||| sigbit sigtstp)}
        if (s.proc p).state=.stopped then s.makeRunnable p .signal else s
      else s
    let s:=if signo=sigkill then s.setProc p fun x => {x with killed := true} else s
    if (s.proc p).state=.sleeping then s.makeRunnable p .signal else s

/-- The signals a pass of `proc_apply_pending_signals` looks at (`proc.c:222-223`). -/
def Proc.deliverable (x : Proc) : Sigset := x.sigPending &&& ~~~x.sigMask &&& ~~~x.sigIgnored

def Proc.handled (x : Proc) : Sigset :=
  sigUnion ((List.range' 1 (nsig-1)).filter fun n =>
    decide (x.deliverable &&& sigbit n≠0 ∧ n≠sigkill ∧ n≠sigstop ∧ 1<x.sigHandler n))
def Proc.defaultPending (x : Proc) : Sigset := x.deliverable &&& ~~~x.handled

def applyCont (s : State) (p : Slot) : State :=
  let s:=s.setProc p fun x => {x with sigPending := x.sigPending &&& ~~~contSet}
  if (s.proc p).state=.stopped then
    (s.makeRunnable p .signal).setProc p fun x =>
      {x with waitEvent := .continued,waitStatus := wstatusCont}
  else s

def applyStop (s : State) (p : Slot) (pending : Sigset) : State :=
  let s:=s.setProc p fun x => {x with sigPending := x.sigPending &&& ~~~stopSet}
  let st:=(s.proc p).state
  if st=.running ∨ st=.runnable ∨ st=.sleeping then
    s.setProc p fun x => { x with
      state := .stopped,waitEvent := .stopped
      waitStatus := wstatusStop (signalPick stopSignals pending) }
  else s

def applyFatal (s : State) (p : Slot) (pending : Sigset) : State :=
  let termsig:=signalPick fatalSignals pending
  let s:=s.setProc p fun x => { x with
    killed := true,xstatus := if validSigno termsig then wstatusSig termsig else x.xstatus }
  let s:=if (s.proc p).state=.stopped then s.makeRunnable p .signal else s
  s.setProc p fun x => {x with sigPending := x.sigPending &&& ~~~fatalSet}

/-- `proc.c:192-273`. -/
def procApplyPendingSignals (s : State) (p : Slot) : State :=
  let handled:=(s.proc p).handled
  let pending:=(s.proc p).defaultPending
  let s:=s.setProc p fun x => { x with
    sigCaught := x.sigCaught ||| handled,sigPending := x.sigPending &&& ~~~handled }
  let s:=if pending &&& contSet≠0 then applyCont s p else s
  let s:=if pending &&& stopSet≠0 then applyStop s p pending else s
  if pending &&& fatalSet≠0 then applyFatal s p pending else s

/-! ### Sleep and wakeup -/

/-- `proc.c:71-80`. -/
def tickSleepqAddLocked (s : State) (p : Slot) : State :=
  if (s.proc p).onTickq then s
  else { s.setProc p (fun x => {x with onTickq := true}) with tickSleepq := p::s.tickSleepq }

/-- `proc.c:83-107`. -/
def tickSleepqRemoveLocked (s : State) (p : Slot) : State :=
  if ¬ (s.proc p).onTickq then s
  else { s.setProc p (fun x => {x with onTickq := false}) with
    tickSleepq := s.tickSleepq.erase p }

/-- `p->tick_next = 0`: what comes after `p` in the tick queue is lost
(`proc_lifecycle.c:106`). -/
def tickSleepqCut (q : List Slot) (p : Slot) : List Slot := if p∈q then q.takeWhile (· ≠ p)++[p] else q

def wakeOne (chan : Chan) (s : State) (p : Slot) : State :=
  if (s.proc p).state=.sleeping ∧ (s.proc p).chan=some chan then s.makeRunnable p .wake else s

section

-- `chan_wait_hash_idx`: the bucket of an address, which depends on where the linker puts it
variable (idx : Chan → ℕ)

/-- `proc.c:877-943`. -/
def wakeup1 (s : State) (chan : Chan) : State :=
  match chan with
  | .ticks => s.tickSleepq.foldl (fun s p => tickSleepqRemoveLocked (wakeOne .ticks s p) p) s
  | .slot p => if s.chanWaitHash (idx chan)=0 then s else wakeOne chan s p
  | .addr _ => if s.chanWaitHash (idx chan)=0 then s else slots.foldl (wakeOne chan) s

/-- `sleep` up to `sched` (`proc.c:846-857`), and the return to the scheduler. -/
def sleepOn (s : State) (c : ℕ) (p : Slot) (chan : Chan) (context : Context) : State :=
  let h:=idx chan
  let s:={s with chanWaitHash := update s.chanWaitHash h (s.chanWaitHash h+1)}
  let s:=if chan=.ticks then tickSleepqAddLocked s p else s
  let s:=s.setProc p fun x => {x with chan := some chan,state := .sleeping,context := context}
  { s.setCpu c none with
    mlfq := s.mlfq.setSched p {s.mlfq.sched p with lastBlockTick := s.ticks} }

/-- `sleep` after `sched` (`proc.c:859-865`). -/
def sleepReturn (s : State) (p : Slot) (chan : Chan) : State :=
  let s:=if chan=.ticks then tickSleepqRemoveLocked s p else s
  let h:=idx chan
  let s:={s with chanWaitHash := update s.chanWaitHash h (s.chanWaitHash h-1)}
  s.setProc p fun x => {x with chan := none}

/-! ### waitpid -/

/-- `proc_lifecycle.c:72-82`; the case `pid > 0` is a scan
of its own in `proc_waitpid`. -/
def procWaitTargetMatch (cur child : Proc) (pid : Int) : Bool :=
  if 0<pid then decide (child.pid=pid)
  else if pid=0 then decide (child.pgid=cur.pgid)
  else if pid = -1 then true
  else decide (child.pgid = -pid)

def Proc.eventReportable (x : Proc) (options : WaitOptions) : Bool :=
  (options.wuntraced && x.waitEvent=.stopped) || (options.wcontinued && x.waitEvent=.continued)
def Proc.reportable (x : Proc) (options : WaitOptions) : Bool := x.eventReportable options || x.state=.zombie

/-- The fields of a reaped zombie (`proc_lifecycle.c:463-509`). -/
def Proc.reaped (x : Proc) : Proc :=
  { x with
    pid := 0,pgid := 0,sid := 0,xstatus := 0,waitEvent := .none,waitStatus := 0
    parent := none,onTickq := false,killed := false,sigPending := 0,sigCaught := 0
    sigMask := 0,sigIgnored := 0,sigHandler := fun _ => 0,state := .unused }

def reap (s : State) (p : Slot) : State :=
  { s.setProc p Proc.reaped with
    tickSleepq := tickSleepqCut s.tickSleepq p
    mlfq := s.mlfq.reset p ⟨0,false,0,0⟩ }
abbrev Proc.noEvent (x : Proc) : Proc := {x with waitEvent := .none,waitStatus := 0}
def reportChild (s : State) (p : Slot) (options : WaitOptions) : (Int × ℕ) × State :=
  let x:=s.proc p
  if x.eventReportable options then
    ((x.pid,x.waitStatus),s.setProc p Proc.noEvent)
  else ((x.pid,x.xstatus),reap s p)

/-- What the scan of the table finds for the caller `cur` (`proc_lifecycle.c:417-434`,
`:537-541`): a process that is not its child, the matching children, or none. -/
inductive WaitScan where
  | notChild
  | children (l : List Slot)

def waitScan (s : State) (cur : Slot) (pid : Int) : WaitScan :=
  if 0<pid then
    match slots.find? fun i => decide ((s.proc i).pid=pid) with
    | none => .children []
    | some i => if (s.proc i).parent≠some cur then .notChild else .children [i]
  else .children (slots.filter fun i =>
    decide ((s.proc i).parent=some cur) && procWaitTargetMatch (s.proc cur) (s.proc i) pid)

/-- One turn of the loop of `proc_waitpid` (`proc_lifecycle.c:409-634`): what it returns,
`none` if it goes to sleep. -/
def waitpidTurn (s : State) (c : ℕ) (cur : Slot) (pid : Int) (options : WaitOptions) :
    Option (Int × ℕ) × State :=
  match waitScan s cur pid with
  | .notChild => (some (-1,0),s)
  | .children l =>
    match l.find? fun i => (s.proc i).reportable options with
    | some i =>
      let r:=reportChild s i options
      (some r.1,r.2)
    | none =>
      if l=[] ∨ (s.proc cur).killed then (some (-1,0),s)
      else if options.wnohang then (some (0,0),s)
      else (none,sleepOn idx s c cur (.slot cur) (.waitpid pid options))

/-! ### The scheduler -/

/-- The rest of the section a dispatched process was in. A process without a saved
context has nowhere to continue. -/
def resume (s : State) (c : ℕ) (p : Slot) : Context → Option State
  | .none => none
  | .forkret => some s
  | .ret => some s
  | .sleep chan => some (sleepReturn idx s p chan)
  | .waitpid pid options =>
    some (waitpidTurn idx (sleepReturn idx s p (.slot p)) c p pid options).2

abbrev Proc.dispatched (x : Proc) : Proc := {x with state := .running,context := .none}

/-- One turn of `scheduler` on an idle CPU (`proc_sched.c:379-421`). -/
def dispatch (s : State) (c : ℕ) : Option State :=
  match schedqPickNextLocked s.mlfq with
  | (none,_) => some s
  | (some p,m) =>
    let context:=(s.proc p).context
    let s:={s with mlfq := m}
    let s:=(s.setCpu c (some p)).setProc p Proc.dispatched
    resume idx s c p context

abbrev Proc.suspended (x : Proc) : Proc := {x with context := .ret}

/-- `proc_sched.c:451-461`. -/
def yield (s : State) (c : ℕ) (p : Slot) : State :=
  ((s.makeRunnable p .yield).setProc p Proc.suspended).setCpu c none

/-- `proc.c:275-288`. -/
def procMaybeStopCurrent (s : State) (c : ℕ) (p : Slot) : State :=
  if (s.proc p).state=.stopped then
    (s.setProc p Proc.suspended).setCpu c none
  else s

/-! ### exit -/

abbrev Proc.adopted (init : Slot) (x : Proc) : Proc := {x with parent := some init}
def reparentTurn (cur init : Slot) (s : State) (p : Slot) : State :=
  if (s.proc p).parent=some cur then
    let s:=s.setProc p (Proc.adopted init)
    if (s.proc p).state=.zombie then wakeup1 idx s (.slot init) else s
  else s

/-- The wakeup of the parent and the reparenting loop (`proc_lifecycle.c:376-387`). -/
def exitReparent (s : State) (cur init : Slot) : State :=
  slots.foldl (reparentTurn idx cur init) (match (s.proc cur).parent with
    | none => wakeup1 idx s (.addr 0)
    | some parent => wakeup1 idx s (.slot parent))

/-- `proc_lifecycle.c:64-70`. -/
def waitStatusHasValidSignal (status : ℕ) : Bool :=
  let sig:=status &&& 0x7f
  !(decide (sig≠0 ∧ sig≠0x7f)) || validSigno sig

/-- The fields of an exiting process (`proc_lifecycle.c:389-393`). -/
def Proc.exited (status : ℕ) (x : Proc) : Proc :=
  let xstatus:=if x.xstatus≠0 ∧ ¬ waitStatusHasValidSignal x.xstatus then 0 else x.xstatus
  { x with
    xstatus := if xstatus=0 then wstatusExit status else xstatus
    state := .zombie,context := .none }

/-- `proc_lifecycle.c:355-396`. -/
def exit (s : State) (c : ℕ) (cur : Slot) (status : ℕ) : Option State :=
  match s.initproc with
  | none => none
  | some init =>
    if cur=init then none
    else some (((exitReparent idx s cur init).setProc cur (Proc.exited status)).setCpu c none)

end

/-! ### fork -/

def pidMax : ℕ := 32767

/-- The search for a free pid in `allocproc` (`proc_lifecycle.c:111-135`): the pid and
the next candidate. -/
def pidSearch (taken : ℕ → Bool) : ℕ → ℕ → Option (ℕ × ℕ)
  | 0, _ => none
  | tries+1, nextpid =>
    let next:=if pidMax≤nextpid then 2 else nextpid+1
    if taken nextpid then pidSearch taken tries next else some (nextpid,next)

/-- The fields of an allocated slot (`proc_lifecycle.c:104-167`). What the slot held in
`parent`, `chan` and `killed` stays. -/
def Proc.allocated (pid : ℕ) (x : Proc) : Proc :=
  { x with
    state := .embryo,onTickq := false,pid := pid,pgid := pid,sid := pid,xstatus := 0
    waitEvent := .none,waitStatus := 0,sigPending := 0,sigCaught := 0,sigMask := 0
    sigIgnored := 0,sigHandler := fun _ => 0,alarmTicks := 0,alarmIntervalTicks := 0
    context := .forkret,np := none }

/-- `proc_lifecycle.c:88-210`. What follows the release of the lock fails or
sets up the context; a failure is an action of its own. -/
def allocproc (s : State) : Option (Option Slot × State) :=
  match slots.find? fun i => decide ((s.proc i).state=.unused) with
  | none => some (none,s)
  | some p =>
    let taken:=fun candidate : ℕ => slots.any fun q =>
      decide (q≠p ∧ (s.proc q).state≠.unused ∧ (s.proc q).pid=candidate)
    (pidSearch taken pidMax s.nextpid).map fun r =>
      (some p,{ s.setProc p (Proc.allocated r.1) with
        nextpid := r.2
        tickSleepq := tickSleepqCut s.tickSleepq p
        mlfq := s.mlfq.reset p ⟨mlfqForkStartQ,false,mlfqQuanta 1,0⟩ })

/-- The end of `fork` and `userinit` (`proc_lifecycle.c:341-347`, `:261-265`). -/
def publish (s : State) (np : Slot) : State :=
  State.makeRunnable { s with
    mlfq := s.mlfq.setSched np {s.mlfq.sched np with schedQ := mlfqForkStartQ} } np .fork

def Proc.forked (cur : Slot) (x y : Proc) : Proc :=
  { y with
    parent := some cur,pgid := x.pgid,sid := x.sid,xstatus := 0,waitEvent := .none
    waitStatus := 0,sigPending := 0,sigCaught := 0,sigMask := x.sigMask
    sigIgnored := x.sigIgnored,sigHandler := x.sigHandler,alarmTicks := 0
    alarmIntervalTicks := 0 }

/-- The part of `fork` that fills in the child, outside the lock
(`proc_lifecycle.c:292-328`). -/
def forkCopy (s : State) (cur np : Slot) : State := s.setProc np (Proc.forked cur (s.proc cur))

/-! ### Timer work -/

abbrev Proc.setAlarm (deadline interval : ℕ) (x : Proc) : Proc :=
  {x with alarmTicks := deadline,alarmIntervalTicks := if deadline≠0 then interval else 0}

/-- `proc.c:124-135`. -/
def procSetAlarmState (s : State) (p : Slot) (deadline interval : ℕ) : State :=
  let old:=(s.proc p).alarmTicks
  let count:=if old=0 ∧ deadline≠0 then s.activeAlarmCount+1
    else if old≠0 ∧ deadline=0 then s.activeAlarmCount-1 else s.activeAlarmCount
  {s.setProc p (Proc.setAlarm deadline interval) with activeAlarmCount := count}

/-- The turn of `proc_check_alarms` for slot `p` (`proc.c:156-175`). -/
def alarmTurn (now : ℕ) (s : State) (p : Slot) : State :=
  let x:=s.proc p
  if x.state=.unused ∨ x.alarmTicks=0 ∨ now<x.alarmTicks then s
  else
    let s:=if x.alarmIntervalTicks≠0 then
        s.setProc p fun x => {x with alarmTicks := uintAdd now x.alarmIntervalTicks}
      else procSetAlarmState s p 0 0
    let s:=s.setProc p fun x => {x with sigPending := x.sigPending ||| sigbit sigalrm}
    if (s.proc p).state=.sleeping then s.makeRunnable p .alarm else s

/-- `proc.c:145-178`. -/
def procCheckAlarms (s : State) (now : ℕ) : State := if s.activeAlarmCount=0 then s else slots.foldl (alarmTurn now) s

/-- The turn of `mlfq_apply_global_boost` for slot `p` (`proc_sched.c:234-255`). -/
def boostTurn (s : State) (p : Slot) : State :=
  let d:=s.mlfq.sched p
  match (s.proc p).state with
  | .unused | .zombie | .embryo | .running => s
  | .runnable => if d.schedQ≤1 then s else {s with mlfq := boostQueued s.mlfq p}
  | .sleeping | .stopped =>
    if d.schedQ≤1 then s
    else { s with mlfq := s.mlfq.setSched p {d with schedQ := 1,budgetExpired := false} }

/-- `proc_sched.c:222-259`. -/
def mlfqApplyGlobalBoost (s : State) (now : ℕ) : State :=
  if uintSub now s.lastBoostTick<s.boostInterval then s
  else slots.foldl boostTurn {s with lastBoostTick := now}

/-! ### Signalling processes and groups -/

/-- Whether `proc_kill_with_signal` called by `cur` signals slot `i` (`proc.c:1349-1374`).
`initHup` is the case in which the caller may send `SIGHUP` to init. -/
def killTarget (s : State) (cur : Option Slot) (pid : Int) (signo : ℕ) (initHup : Bool) (i : Slot) : Bool :=
  let x:=s.proc i
  let skip:=x.state=.unused ∨ x.pid=0 ∨ (s.initproc=some i ∧ ¬ (0<pid ∧ x.pid=pid ∧ signo=sighup ∧ initHup))
  let hit:=if 0<pid then decide (x.pid=pid)
    else if pid=0 then (match cur with
      | none => false
      | some p => decide (x.pgid=(s.proc p).pgid))
    else if pid = -1 then true else decide (x.pgid = -pid)
  !decide skip && hit

/-- The loop of `proc_kill_with_signal` (`proc.c:1348-1381`). -/
def killLoop (cur : Option Slot) (pid : Int) (signo : ℕ) (initHup : Bool) : List Slot → State → State
  | [], s => s
  | i::rest, s =>
    if killTarget s cur pid signo initHup i then
      let s:=procNoteSignalLocked s i signo
      if 0<pid then s else killLoop cur pid signo initHup rest s
    else killLoop cur pid signo initHup rest s

def killWithSignal (s : State) (cur : Option Slot) (pid : Int) (signo : ℕ) (initHup : Bool) :
    State :=
  if ¬ validSigno signo then s else killLoop cur pid signo initHup slots s
def pgidTarget (s : State) (pgid : Int) (i : Slot) : Bool :=
  decide ((s.proc i).state≠.unused ∧ s.initproc≠some i ∧ (s.proc i).pgid=pgid)

/-- `proc.c:735-757`. -/
def procSignalPgid (s : State) (pgid : Int) (signo : ℕ) : State :=
  if pgid≤0 ∨ ¬ validSigno signo then s
  else slots.foldl (fun s i =>
    if pgidTarget s pgid i then procNoteSignalLocked s i signo else s) s

/-! ### Process groups -/

/-- `proc_setpgid` (`proc.c:1061-1113`): the group it sets and where. -/
def setpgidTarget (s : State) (cur : Slot) (pid pgid : Int) : Option (Slot × Int) :=
  let pid:=if pid=0 then (s.proc cur).pid else pid
  let pgid:=if pgid=0 then pid else pgid
  if pid<0 ∨ pgid<0 then none
  else match slots.find? fun i => decide ((s.proc i).pid=pid ∧ (s.proc i).state≠.unused) with
    | none => none
    | some t =>
      let x:=s.proc t
      if x.pid=x.sid ∨ x.sid≠(s.proc cur).sid ∨ (t≠cur ∧ x.parent≠some cur) then none
      else some (t,pgid)

def setsidAllowed (s : State) (cur : Slot) : Bool :=
  decide ((s.proc cur).pid≠(s.proc cur).pgid) &&
    slots.all fun q => decide (¬ ((s.proc q).state≠.unused ∧ q≠cur ∧ (s.proc q).pgid=(s.proc cur).pid))

end Auxv6.Process
