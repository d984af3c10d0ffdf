import Auxv6.Process.Step

/-!
# Signal actions, masks and frames (core/proc.c, sysproc.c, include/signal.h)

The process table with the masks and flags of `sigaction`, the user registers and the user memory.
`copyin` and `copyout` may be any functions; a `copyout` that fails may have written part of its data.
Between two traps the current process sets its registers and memory as it likes, apart from the bits
of `eflags` that user mode cannot change. The segment registers are left out.
-/

namespace Auxv6.Process
open Machine Function

abbrev Word := BitVec 32
abbrev Byte := BitVec 8

def wordBytes (w : Word) : List Byte := [w.extractLsb' 0 8,w.extractLsb' 8 8,w.extractLsb' 16 8,w.extractLsb' 24 8]
def wordAt (b : List Byte) (i : ℕ) : Word := b.getD (4*i+3) 0++b.getD (4*i+2) 0++b.getD (4*i+1) 0++b.getD (4*i) 0

structure Trapframe where
  edi : Word
  esi : Word
  ebp : Word
  ebx : Word
  edx : Word
  ecx : Word
  eax : Word
  eip : Word
  eflags : Word
  esp : Word
  deriving DecidableEq

structure Sigframe where
  sfSigreturn : Word
  sfSigno : Word
  sfOldmask : Sigset
  sfEdi : Word
  sfEsi : Word
  sfEbp : Word
  sfEbx : Word
  sfEdx : Word
  sfEcx : Word
  sfEax : Word
  sfEip : Word
  sfEflags : Word
  sfEsp : Word
  sfTrampoline : List Byte

def sigframeSize : ℕ := 60
def trampolineOffset : ℕ := 52
def Sigframe.words (sf : Sigframe) : List Word :=
  [sf.sfSigreturn,sf.sfSigno,sf.sfOldmask,sf.sfEdi,sf.sfEsi,sf.sfEbp,sf.sfEbx,sf.sfEdx,
    sf.sfEcx,sf.sfEax,sf.sfEip,sf.sfEflags,sf.sfEsp]
def Sigframe.encode (sf : Sigframe) : List Byte := sf.words.flatMap wordBytes++sf.sfTrampoline

def Sigframe.decode (b : List Byte) : Sigframe where
  sfSigreturn := wordAt b 0
  sfSigno := wordAt b 1
  sfOldmask := wordAt b 2
  sfEdi := wordAt b 3
  sfEsi := wordAt b 4
  sfEbp := wordAt b 5
  sfEbx := wordAt b 6
  sfEdx := wordAt b 7
  sfEcx := wordAt b 8
  sfEax := wordAt b 9
  sfEip := wordAt b 10
  sfEflags := wordAt b 11
  sfEsp := wordAt b 12
  sfTrampoline := (b.drop trampolineOffset).take 8

def sysSigreturnNumber : Word := 64
def tSyscall : Byte := 64

/-- `mov $SYS_sigreturn, %eax; int $T_SYSCALL` (`proc.c:351-361`). -/
def trampoline : List Byte := [0xb8,sysSigreturnNumber.extractLsb' 0 8,0,0,0,0xcd,tSyscall,0]

structure UserMem (M : Type) where
  copyin : M → Word → ℕ → Option (List Byte)
  copyout : M → Word → List Byte → Bool × M

structure Task (M : Type) where
  sigActmask : ℕ → Sigset
  sigActflags : ℕ → Word
  tf : Trapframe
  mem : M
  sz : ℕ

structure System (M : Type) where
  table : State
  task : Slot → Task M

section

variable {M : Type} (U : UserMem M)

def System.setProc (s : System M) (p : Slot) (f : Proc → Proc) : System M := {s with table := s.table.setProc p f}
def System.setTask (s : System M) (p : Slot) (f : Task M → Task M) : System M :=
  {s with task := update s.task p (f (s.task p))}
def unblockable : Sigset := sigbit sigkill ||| sigbit sigstop

/-! ### sigaction and sigprocmask -/

/-- The new action of a signal (`proc.c:494-504`). -/
def setAction (s : System M) (p : Slot) (signo : ℕ) (act : List Byte) : System M :=
  let handler:=wordAt act 0
  (s.setProc p fun x => { x with
    sigHandler := update x.sigHandler signo handler.toNat
    sigIgnored := if handler=1 then x.sigIgnored ||| sigbit signo
      else x.sigIgnored &&& ~~~sigbit signo }).setTask p fun k => { k with
    sigActmask := update k.sigActmask signo (wordAt act 1)
    sigActflags := update k.sigActflags signo (wordAt act 2) }

/-- The end of `proc_sigaction` and `proc_sigprocmask`: the old value is copied out. -/
def copyOld (s : System M) (p : Slot) (addr : Word) (old : List Byte) : Int × System M :=
  if addr=0 then (0,s)
  else
    let r:=U.copyout (s.task p).mem addr old
    (if r.1 then 0 else -1,s.setTask p fun k => {k with mem := r.2})

/-- `proc.c:457-513`. -/
def procSigaction (s : System M) (p : Slot) (signo : ℕ) (actAddr oldactAddr : Word) : Int × System M :=
  let old:=wordBytes (BitVec.ofNat 32 ((s.table.proc p).sigHandler signo)) ++
    wordBytes ((s.task p).sigActmask signo)++wordBytes ((s.task p).sigActflags signo)
  if ¬ validSigno signo then (-1,s)
  else if actAddr=0 then copyOld U s p oldactAddr old
  else match U.copyin (s.task p).mem actAddr 12 with
    | none => (-1,s)
    | some act =>
      if signo=sigkill ∨ signo=sigstop then (-1,s)
      else copyOld U (setAction s p signo act) p oldactAddr old

/-- The mask `proc_sigprocmask` computes (`proc.c:538-549`); `none` for an unknown `how`. -/
def newMask (how : Int) (oldmask set : Sigset) : Option Sigset :=
  if how=0 then some (oldmask ||| set)
  else if how=1 then some (oldmask &&& ~~~set)
  else if how=2 then some set
  else none

/-- `proc.c:515-559`. -/
def procSigprocmask (s : System M) (p : Slot) (how : Int) (setAddr oldsetAddr : Word) : Int × System M :=
  let oldmask:=(s.table.proc p).sigMask
  if setAddr=0 then copyOld U s p oldsetAddr (wordBytes oldmask)
  else match U.copyin (s.task p).mem setAddr 4 with
    | none => (-1,s)
    | some b =>
      match newMask how oldmask (wordAt b 0) with
      | none => (-1,s)
      | some mask =>
        copyOld U (s.setProc p fun x => {x with sigMask := mask &&& ~~~unblockable}) p oldsetAddr (wordBytes oldmask)

/-! ### Delivery -/

/-- The first caught signal (`proc.c:311-318`). -/
def Proc.firstCaught (x : Proc) : Option ℕ :=
  (List.range' 1 (nsig-1)).find? fun n => decide (x.sigCaught &&& sigbit n≠0)

/-- The frame of a delivery (`proc.c:332-381`). -/
def sigframeOf (x : Proc) (tf : Trapframe) (signo : ℕ) (sp : Word) : Sigframe where
  sfSigreturn := sp+BitVec.ofNat 32 trampolineOffset
  sfSigno := BitVec.ofNat 32 signo
  sfOldmask := x.sigMask
  sfEdi := tf.edi
  sfEsi := tf.esi
  sfEbp := tf.ebp
  sfEbx := tf.ebx
  sfEdx := tf.edx
  sfEcx := tf.ecx
  sfEax := tf.eax
  sfEip := tf.eip
  sfEflags := tf.eflags
  sfEsp := tf.esp
  sfTrampoline := trampoline

/-- Where the frame goes (`proc.c:364-366`). -/
def frameSp (tf : Trapframe) : Word := (tf.esp-BitVec.ofNat 32 sigframeSize) &&& ~~~3#32

/-- The signal fields when a handler is entered (`proc.c:329-337`). -/
def Proc.entered (x : Proc) (signo : ℕ) (actmask : Sigset) : Proc :=
  { x with
    sigCaught := x.sigCaught &&& ~~~sigbit signo
    sigMask := (x.sigMask ||| actmask ||| sigbit signo) &&& ~~~unblockable }

/-- The fatal action when the frame cannot be built (`proc.c:369-379`). -/
def Proc.failed (signo : ℕ) (x : Proc) : Proc :=
  { x with
    killed := true,xstatus := if validSigno signo then wstatusSig signo else x.xstatus }

/-- `proc.c:293-398`: whether a handler is entered. -/
def procDeliverSignal (s : System M) (p : Slot) : Bool × System M :=
  let x:=s.table.proc p
  let k:=s.task p
  match x.firstCaught with
  | none => (false,s)
  | some signo =>
    if x.sigHandler signo≤1 then
      (false,s.setProc p fun x => {x with sigCaught := x.sigCaught &&& ~~~sigbit signo})
    else
      let sp:=frameSp k.tf
      let s:=s.setProc p fun x => x.entered signo (k.sigActmask signo)
      if sp.toNat<pgsize ∨ k.sz<sp.toNat then (false,s.setProc p (Proc.failed signo))
      else
        let r:=U.copyout k.mem sp (sigframeOf x k.tf signo sp).encode
        let s:=s.setTask p fun k => {k with mem := r.2}
        if ¬ r.1 then (false,s.setProc p (Proc.failed signo))
        else (true,s.setTask p fun k => { k with
          tf := {k.tf with eip := BitVec.ofNat 32 (x.sigHandler signo),esp := sp} })

/-! ### sigreturn -/

/-- The registers of a frame (`sysproc.c:365-376`). -/
def Sigframe.restore (sf : Sigframe) : Trapframe where
  edi := sf.sfEdi
  esi := sf.sfEsi
  ebp := sf.sfEbp
  ebx := sf.sfEbx
  edx := sf.sfEdx
  ecx := sf.sfEcx
  eax := sf.sfEax
  eip := sf.sfEip
  eflags := sf.sfEflags
  esp := sf.sfEsp

/-- `sysproc.c:307-386`. -/
def sysSigreturn (s : System M) (p : Slot) : Word × System M :=
  let k:=s.task p
  match U.copyin k.mem (k.tf.esp-4) sigframeSize with
  | none => (-1,s)
  | some b =>
    let sf:=Sigframe.decode b
    (sf.sfEax,(s.setTask p fun k => {k with tf := sf.restore}).setProc p fun x =>
      {x with sigMask := sf.sfOldmask &&& ~~~unblockable})

/-- `syscall` for that number (`syscall.c:372`): the value returned replaces `eax`. -/
def syscallSigreturn (s : System M) (p : Slot) : System M :=
  let r:=sysSigreturn U s p
  r.2.setTask p fun k => { k with tf := {k.tf with eax := r.1} }

inductive SigAction (M : Type) where
  | table (a : Action)
  | forkCopy (c : ℕ)
  | post (c : ℕ) (signo : ℕ)
  | trapKill (c : ℕ)
  | sigaction (c : ℕ) (signo : ℕ) (actAddr oldactAddr : Word)
  | sigprocmask (c : ℕ) (how : Int) (setAddr oldsetAddr : Word)
  | deliver (c : ℕ)
  | sigreturn (c : ℕ)
  | user (c : ℕ) (tf : Trapframe) (mem : M) (sz : ℕ)

def flIf : Word := 0x200
def flIopl : Word := 0x3000

/-- `allocproc` and the reap also clear the masks and flags (`proc_lifecycle.c:160-164`,
`:498-499`). -/
def Task.clearActions (k : Task M) : Task M := {k with sigActmask := fun _ => 0,sigActflags := fun _ => 0}

def syncTask (old new : State) (task : Slot → Task M) (i : Slot) : Task M :=
  if (old.proc i).state=.unused ∧ (new.proc i).state≠.unused ∨
      (old.proc i).state=.zombie ∧ (new.proc i).state=.unused then (task i).clearActions
  else task i
def System.current (s : System M) (c : ℕ) (f : Slot → System M) : Option (System M) := (s.table.cpu c).map f

/-- The child's copy of what `fork` takes from the parent (`proc_lifecycle.c:322-328`). -/
def Task.forked (k : Task M) : Task M := { k with tf := {k.tf with eax := 0} }

def sigStep (idx : Chan → ℕ) (s : System M) : SigAction M → Option (System M)
  | .table a => match a with
    | .forkCopy _ => none
    | .setSignals _ _ _ _ _ _ _ _ => none
    | a => (step idx s.table a).map fun t => ⟨t,syncTask s.table t s.task⟩
  | .forkCopy c => (s.table.cpu c).bind fun p => (s.table.proc p).np.map fun np =>
      { s with
        table := forkCopy s.table p np
        task := update s.task np (s.task p).forked }
  | .post c signo => s.current c fun p =>
      s.setProc p fun x => {x with sigPending := x.sigPending ||| sigbit signo}
  | .trapKill c => s.current c fun p => s.setProc p fun x => {x with killed := true}
  | .sigaction c signo actAddr oldactAddr =>
    s.current c fun p => (procSigaction U s p signo actAddr oldactAddr).2
  | .sigprocmask c how setAddr oldsetAddr =>
    s.current c fun p => (procSigprocmask U s p how setAddr oldsetAddr).2
  | .deliver c => s.current c fun p => (procDeliverSignal U s p).2
  | .sigreturn c => s.current c fun p => syscallSigreturn U s p
  | .user c tf mem sz => (s.table.cpu c).bind fun p =>
      if tf.eflags &&& (flIf ||| flIopl)=(s.task p).tf.eflags &&& (flIf ||| flIopl) then
        some (s.setTask p fun k => {k with tf := tf,mem := mem,sz := sz})
      else none

def bootSystem (task : Slot → Task M) : System M := ⟨zeroState,task⟩

end

end Auxv6.Process
