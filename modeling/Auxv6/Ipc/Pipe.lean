import Auxv6.Lib.Ring
import Auxv6.Lib.Transition
import Auxv6.Machine

/-!
# Pipes (core/pipe.c)

One pipe and any number of processes that call `piperead` and `pipewrite` on it. A step is a section
under `p->lock`: from a call, or from the return of `sleep`, to the next `sleep` or the return of the
call. A wakeup marks every process asleep on the channel. The loops inside a section are bounded by
fuel. `SIGPIPE`, the statistics and the cache of freed pipes are left out. `appended` and `delivered`
record the bytes in the order in which they went into and out of the ring.
-/

namespace Auxv6.Ipc
open Machine Lib

def pipeCapacity : ℕ := 2048

abbrev Byte := UInt8

structure Pipe where
  data : ℕ → Byte
  nread : ℕ
  nwrite : ℕ
  readopen : Bool
  writeopen : Bool

inductive Task where
  | idle
  | writing (buf : List Byte) (i : ℕ) (asleep : Bool)
  | reading (n : ℕ) (asleep : Bool)
  deriving DecidableEq

structure State where
  pipe : Pipe
  task : ℕ → Task
  killed : ℕ → Bool
  appended : List Byte
  delivered : List Byte

def State.setTask (s : State) (p : ℕ) (t : Task) : State := {s with task := Function.update s.task p t}
def wakeupReaders (s : State) : State :=
  { s with task := fun q => match s.task q with
    | .reading n _ => .reading n false
    | t => t }
def wakeupWriters (s : State) : State :=
  { s with task := fun q => match s.task q with
    | .writing buf i _ => .writing buf i false
    | t => t }

/-- `pipe.c:72-119`. -/
def pipealloc : State where
  pipe := ⟨fun _ => 0,0,0,true,true⟩
  task := fun _ => .idle
  killed := fun _ => false
  appended := []
  delivered := []

def chunkSize (rest : ℕ) (room : Int) (counter : ℕ) : ℕ :=
  let chunk : Int:=if room<rest then room else rest
  let untilWrap:=pipeCapacity-counter%pipeCapacity
  if untilWrap<(chunk%wordMod).toNat then untilWrap else chunk.toNat

/-- The chunk of `pipewrite` (`pipe.c:194-205`). -/
def Pipe.writeChunk (p : Pipe) (rest : ℕ) : ℕ :=
  chunkSize rest (pipeCapacity-uintToInt (uintSub p.nwrite p.nread)) p.nwrite

/-- The chunk of `piperead` (`pipe.c:260-271`). -/
def Pipe.readChunk (p : Pipe) (rest : ℕ) : ℕ := chunkSize rest (uintToInt (uintSub p.nwrite p.nread)) p.nread

def Pipe.empty (p : Pipe) : Bool := decide (p.nread=p.nwrite)
def Pipe.full (p : Pipe) : Bool := decide (p.nwrite=uintAdd p.nread pipeCapacity)
def Pipe.store (p : Pipe) (bytes : List Byte) : Pipe :=
  let off:=p.nwrite%pipeCapacity
  { p with
    data := fun k => (if off≤k then bytes[k-off]? else none).getD (p.data k)
    nwrite := uintAdd p.nwrite bytes.length }
def Pipe.load (p : Pipe) (chunk : ℕ) : List Byte :=
  let off:=p.nread%pipeCapacity
  (List.range chunk).map fun k => p.data (off+k)

/-- The loop of `pipewrite` by process `p` from index `i` on (`pipe.c:179-224`): the
return value, `none` if it went to sleep. -/
def pipewriteLoop (p : ℕ) (buf : List Byte) : ℕ → ℕ → State → Option (Option Int × State)
  | 0, _, _ => none
  | fuel+1, i, s =>
    if buf.length ≤ i then some (some buf.length,s.setTask p .idle)
    else if s.pipe.full then
      if s.pipe.readopen=false ∨ s.killed p then some (some (-1),s.setTask p .idle)
      else some (none,(wakeupReaders s).setTask p (.writing buf i true))
    else
      let wasEmpty:=s.pipe.empty
      let chunk:=s.pipe.writeChunk (buf.length-i)
      let bytes:=(buf.drop i).take chunk
      let s:={s with pipe := s.pipe.store bytes,appended := s.appended++bytes}
      let s:=if wasEmpty then wakeupReaders s else s
      pipewriteLoop p buf fuel (i+chunk) s

/-- `pipewrite` up to its first `sleep` or its return (`pipe.c:153-225`). -/
def pipewrite (s : State) (p : ℕ) (buf : List Byte) : Option (Option Int × State) :=
  if s.pipe.readopen=false then some (some (-1),s)
  else pipewriteLoop p buf (buf.length+1) 0 s

/-- The copy loop of `piperead` from index `i` on (`pipe.c:253-288`); `out` is what is in
the buffer. -/
def pipereadLoop (p : ℕ) (n : ℕ) : ℕ → List Byte → State → Option (Option (Int × List Byte) × State)
  | 0, _, _ => none
  | fuel+1, out, s =>
    if n≤out.length ∨ s.pipe.empty then some (some (out.length,out),s.setTask p .idle)
    else
      let chunk:=s.pipe.readChunk (n-out.length)
      let wasFull:=s.pipe.full
      let bytes:=s.pipe.load chunk
      let s:={ s with
        pipe := {s.pipe with nread := uintAdd s.pipe.nread chunk}
        delivered := s.delivered++bytes }
      let s:=if wasFull then wakeupWriters s else s
      pipereadLoop p n fuel (out++bytes) s

/-- `piperead` from its wait loop on (`pipe.c:244-291`). -/
def piperead (s : State) (p : ℕ) (n : ℕ) : Option (Option (Int × List Byte) × State) :=
  if s.pipe.empty ∧ s.pipe.writeopen then
    if s.killed p then some (some (-1,[]),s.setTask p .idle)
    else some (none,s.setTask p (.reading n true))
  else pipereadLoop p n (n+1) [] s

/-- `pipe.c:121-149`. -/
def pipeclose (s : State) (writable : Bool) : State :=
  if writable then wakeupReaders { s with pipe := {s.pipe with writeopen := false} }
  else wakeupWriters { s with pipe := {s.pipe with readopen := false} }

/-- `pipe.c:294-303`. -/
def pipeReadable (p : Pipe) : Bool := decide (p.nread≠p.nwrite) || !p.writeopen

/-- `pipe.c:305-314`. -/
def pipeWritable (p : Pipe) : Bool := decide (p.nwrite<uintAdd p.nread pipeCapacity) || !p.readopen

inductive Action where
  | write (p : ℕ) (buf : List Byte)
  | read (p : ℕ) (n : ℕ)
  | resume (p : ℕ)
  | close (writable : Bool)
  | kill (p : ℕ)
  | signal (p : ℕ)

def Task.woken : Task → Task
  | .writing buf i _ => .writing buf i false
  | .reading n _ => .reading n false
  | .idle => .idle
def Pipe.freed (p : Pipe) : Bool := !p.readopen && !p.writeopen

def Enabled (s : State) : Action → Bool
  | .write p _ => decide (s.task p=.idle)
  | .read p _ => decide (s.task p=.idle)
  | .resume p => match s.task p with
    | .writing _ _ asleep => !asleep
    | .reading _ asleep => !asleep
    | .idle => false
  | _ => true

/-- What a call returns, with the bytes a read gives; `none` while it sleeps. -/
abbrev Result := Option (Int × List Byte)

def perform (s : State) : Action → Option (Result × State)
  | .write p buf => (pipewrite s p buf).map fun r => (r.1.map (·,[]),r.2)
  | .read p n => piperead s p n
  | .resume p => match s.task p with
    | .writing buf i _ => (pipewriteLoop p buf (buf.length+1) i s).map fun r => (r.1.map (·,[]),r.2)
    | .reading n _ => piperead s p n
    | .idle => none
  | .close writable => some (none,pipeclose s writable)
  | .kill p => some (none,{s.setTask p (s.task p).woken with killed := Function.update s.killed p true})
  | .signal p => some (none,s.setTask p (s.task p).woken)

def step (s : State) (a : Action) : Option State :=
  if s.pipe.freed ∨ ¬ Enabled s a then none else (perform s a).map Prod.snd

end Auxv6.Ipc
