import Mathlib.Data.Finset.Card
import Auxv6.Lib.Redo
import Auxv6.Lib.Transition

/-!
# The write-ahead log

`fs/log.c` for an xv6fs root. A block is the array of its 32-bit words, so that the header block is
written and read word by word as `struct logheader`. One `advance` is one turn of a loop of `commit` or
`recover_from_log` and writes at most one block; `crash` may come between any two steps and loses
everything but the disk. Of `bio.c`: `bread` returns the cached block or else reads the disk, and only a
buffer that is neither dirty nor held is reused.
-/

namespace Auxv6.Fs
open Lib Function

def maxOpBlocks : ℕ := 10
def logSize : ℕ := maxOpBlocks*3

namespace Log

abbrev Block := ℕ → ℕ

structure Cached where
  data : Block
  dirty : Bool

inductive Stage where
  | idle
  | editing (b : ℕ)
  | checked (b : ℕ)
  | done

structure Op where
  stage : Stage
  logged : Finset ℕ

inductive Phase where
  | ready
  | writeLog (tail : ℕ)
  | install (tail : ℕ) (boot : Bool)
  | returning
  | readHead
  deriving DecidableEq

abbrev Group := List (ℕ × Block)

/-- The disk, the cache and `struct log`. `cur` records the `log_write`s of the open
group, `groups` the groups whose header was written, and `returned` those of them
whose last `end_op` came back. -/
structure State where
  disk : ℕ → Block
  cache : ℕ → Option Cached
  n : ℕ
  block : ℕ → ℕ
  outstanding : ℕ
  committing : Bool
  phase : Phase
  ops : List Op
  cur : Group
  groups : List Group
  returned : List Group

/-! ### Buffers -/

def State.buf (s : State) (b : ℕ) : Cached := (s.cache b).getD ⟨s.disk b,false⟩
def State.bread (s : State) (b : ℕ) : State := {s with cache := update s.cache b (some (s.buf b))}
def State.bwrite (s : State) (b : ℕ) (data : Block) : State :=
  { s with
    disk := update s.disk b data
    cache := update s.cache b (some ⟨data,false⟩) }
def Stage.holds (b : ℕ) : Stage → Bool
  | .editing b' => b'=b
  | .checked b' => b'=b
  | _ => false
def State.held (s : State) (b : ℕ) : Bool := s.ops.any fun op => op.stage.holds b
def State.setOp (s : State) (i : ℕ) (op : Op) : State := {s with ops := s.ops.set i op}
def State.header (s : State) : List ℕ := (List.range s.n).map s.block

/-! ### Commit and recovery -/

variable (start size : ℕ)

/-- One turn of the loops of `write_log` and `install_trans` (`log.c:216-223, 101-108`). -/
def copyBlock (s : State) (src dst : ℕ) : State :=
  let s':=(s.bread src).bread dst
  s'.bwrite dst (s'.buf src).data

/-- `log.c:128-140`. -/
def writeHead (s : State) : State :=
  let s':=s.bread start
  let old:=(s'.buf start).data
  s'.bwrite start fun w => if w=0 then s.n else if w ≤ s.n then s.block (w-1) else old w

/-- `log.c:112-123`. -/
def readHead (s : State) : State :=
  let s':=s.bread start
  let hb:=(s'.buf start).data
  {s' with n := hb 0,block := fun i => if i<hb 0 then hb (i+1) else s.block i}

/-- The next turn of `commit` (`log.c:226-236`), `end_op` (`log.c:203-206`) or
`recover_from_log` (`log.c:142-149`). -/
def advance (s : State) : Option State :=
  match s.phase with
  | .ready => none
  | .writeLog tail =>
    if tail<s.n then
      some { copyBlock s (s.block tail) (start+tail+1) with phase := .writeLog (tail+1) }
    else
      some { writeHead start s with
        phase := .install 0 false,cur := [],groups := s.groups++[s.cur] }
  | .install tail boot =>
    if tail<s.n then
      some { copyBlock s (start+tail+1) (s.block tail) with phase := .install (tail+1) boot }
    else
      some { writeHead start {s with n := 0} with phase := if boot then .ready else .returning }
  | .returning => some {s with committing := false,phase := .ready,returned := s.groups}
  | .readHead => some {readHead start s with phase := .install 0 true}

/-! ### System calls -/

/-- `log.c:152-172`; `none` while it sleeps. -/
def beginOp (s : State) : Option State :=
  if s.committing then none
  else if s.n+(s.outstanding+1)*maxOpBlocks > logSize then none
  else if s.phase≠.ready then none
  else some {s with outstanding := s.outstanding+1,ops := s.ops++[⟨.idle,∅⟩]}

def edit (s : State) (i b : ℕ) (data : Block) : Option State :=
  match s.ops[i]? with
  | some ⟨.idle,logged⟩ =>
    if s.held b then none
    else some { s.setOp i ⟨.editing b,logged⟩ with
      cache := update s.cache b (some ⟨data,(s.buf b).dirty⟩) }
  | _ => none

/-- The tests of `log_write`, made without `log.lock` (`log.c:252-255`). -/
def logWritePanics (s : State) : Bool := decide (s.n ≥ logSize) || decide (s.n+1 ≥ size) || decide (s.outstanding<1)

def logCheck (s : State) (i : ℕ) : Option State :=
  match s.ops[i]? with
  | some ⟨.editing b,logged⟩ =>
    if logWritePanics size s then none else some (s.setOp i ⟨.checked b,logged⟩)
  | _ => none

/-- The section of `log_write` under `log.lock` (`log.c:257-266`), then `brelse`. -/
def logAppend (s : State) (i : ℕ) : Option State :=
  match s.ops[i]? with
  | some ⟨.checked b,logged⟩ =>
    let k:=s.header.idxOf b
    some { s.setOp i ⟨.idle,insert b logged⟩ with
      block := update s.block k b
      n := if k=s.n then s.n+1 else s.n
      cache := update s.cache b (some ⟨(s.buf b).data,true⟩)
      cur := s.cur++[(b,(s.buf b).data)] }
  | _ => none

/-- `end_op` up to the first turn of `commit` (`log.c:184-202, 229`). -/
def endOp (s : State) (i : ℕ) : Option State :=
  match s.ops[i]? with
  | some ⟨.idle,logged⟩ =>
    let s':={ s.setOp i ⟨.done,logged⟩ with outstanding := s.outstanding-1 }
    if s.committing then none
    else if s'.outstanding=0 then
      some {s' with committing := true,phase := if s.n > 0 then .writeLog 0 else .returning}
    else some s'
  | _ => none

inductive Action where
  | beginOp
  | edit (i b : ℕ) (data : Block)
  | logCheck (i : ℕ)
  | logAppend (i : ℕ)
  | endOp (i : ℕ)
  | read (b : ℕ)
  | evict (b : ℕ)
  | advance
  | crash

def Phase.recovering : Phase → Bool
  | .readHead => true
  | .install _ boot => boot
  | _ => false
def powerOn (disk : ℕ → Block) : State := ⟨disk,fun _ => none,0,fun _ => 0,0,false,.readHead,[],[],[],[]⟩

def step (s : State) : Action → Option State
  | .beginOp => beginOp s
  | .edit i b data => edit s i b data
  | .logCheck i => logCheck size s i
  | .logAppend i => logAppend s i
  | .endOp i => endOp s i
  | .read b => if s.phase.recovering then none else some (s.bread b)
  | .evict b =>
    if (s.buf b).dirty || s.held b then none
    else some {s with cache := update s.cache b none}
  | .advance => advance start s
  | .crash => some {powerOn s.disk with groups := s.groups,returned := s.returned}

end Log

end Auxv6.Fs
