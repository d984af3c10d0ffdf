import Auxv6.Lib.Buckets
import Auxv6.Lib.Dll
import Auxv6.Lib.Transition
import Auxv6.Machine

/-!
# The buffer cache (fs/bio.c, core/blockdev.c, fs/log.c)

A user is one call of `bread` and what follows it up to `brelse`. A step is a section under
`bcache.lock`, the taking or giving up of a buffer's sleep lock, the begin or the end of a device
transfer, or `log_write`. While a transfer on a partition runs, the buffer carries the block number of
the parent device. The bytes of the blocks are left out.

The LRU list is read from its old end: a null link stands for `bcache.head`. `pinned` records that
`log_write` was called and the block has not been written since.
-/

namespace Auxv6.Fs
open Lib Machine

def nbuf : ℕ := 128
def bcacheHashSize : ℕ := 64

abbrev BufId := Fin nbuf
abbrev Bucket := Fin bcacheHashSize

def bhash (dev blockno : ℕ) : Bucket := ⟨(dev*31+blockno)%wordMod%bcacheHashSize,Nat.mod_lt _ (by decide)⟩

structure Buf where
  dev : ℕ
  blockno : ℕ
  refcnt : ℕ
  valid : Bool
  dirty : Bool
  error : Bool
  inhash : Bool
  locked : Bool
  pinned : Bool
  deriving DecidableEq

structure Part where
  parent : ℕ
  start : ℕ
  nblocks : ℕ

inductive Task where
  | waiting (b : BufId)
  | entered (b : BufId)
  | reading (b : BufId) (home : Option (ℕ × ℕ))
  | held (b : BufId)
  | writing (b : BufId) (home : Option (ℕ × ℕ))
  | leaving (b : BufId)
  | done
  deriving DecidableEq

def Task.buf : Task → Option BufId
  | .waiting b | .entered b | .reading b _ | .held b | .writing b _ | .leaving b => some b
  | .done => none
def Task.on (b : BufId) (t : Task) : Bool := t.buf=some b

structure Cache where
  buf : BufId → Buf
  lru : Dll.Pool BufId Unit
  hash : Buckets.Table Bucket BufId
  tasks : List Task

def Cache.setBuf (s : Cache) (b : BufId) (f : Buf → Buf) : Cache :=
  {s with buf := Function.update s.buf b (f (s.buf b))}
def Cache.setTask (s : Cache) (i : ℕ) (t : Task) : Cache := {s with tasks := s.tasks.set i t}

/-- `bio.c:66-87` on zeroed memory. -/
def binit : Cache where
  buf := fun _ => ⟨0,0,0,false,false,false,false,false,false⟩
  lru := (List.finRange nbuf).foldl (fun l b => l.append () b)
    ⟨fun _ => none,fun _ => none,fun _ => none,fun _ => none,fun _ => 0⟩
  hash := ⟨fun _ => none,fun _ => none⟩
  tasks := []

/-! ### bget -/

def Cache.chain (s : Cache) (k : Bucket) : List BufId := Buckets.walk s.hash.next nbuf (s.hash.head k)
def Cache.lruList (s : Cache) : List BufId := Dll.walk s.lru.next nbuf (s.lru.head ())
def Buf.carries (x : Buf) (dev blockno : ℕ) : Bool := x.dev=dev ∧ x.blockno=blockno
def Buf.idle (x : Buf) : Bool := x.refcnt=0 ∧ x.dirty=false

/-- The new identity of an idle buffer (`bio.c:121-145`). -/
def Cache.recycle (s : Cache) (b : BufId) (dev blockno : ℕ) : Cache :=
  let x:=s.buf b
  let hash:=if x.inhash then s.hash.unlink nbuf (bhash x.dev x.blockno) b else s.hash
  { s with
    buf := Function.update s.buf b ⟨dev,blockno,1,false,false,false,true,x.locked,false⟩
    hash := hash.insert (bhash dev blockno) b }

/-- `bget` up to the sleep lock (`bio.c:92-149`); `none` is the panic. -/
def bget (s : Cache) (dev blockno : ℕ) : Option (BufId × Cache) :=
  match (s.chain (bhash dev blockno)).find? fun b => (s.buf b).carries dev blockno with
  | some b => some (b,s.setBuf b fun x => {x with refcnt := x.refcnt+1})
  | none =>
    match s.lruList.find? fun b => (s.buf b).idle with
    | some b => some (b,s.recycle b dev blockno)
    | none => none

/-! ### Transfers -/

variable (part : ℕ → Option Part)

/-- The block of the parent device, when `bdevrw` passes a transfer on (`blockdev.c:284-297`). -/
def partBlock (x : Buf) : Option (ℕ × ℕ) :=
  match part x.dev with
  | some p => if x.blockno<p.nblocks then some (p.parent,uintAdd x.blockno p.start) else none
  | none => none

/-- `bdevrw` up to the call of the driver (`blockdev.c:258-294`). -/
def startTransfer (s : Cache) (i : ℕ) (b : BufId) (task : Option (ℕ × ℕ) → Task) : Cache :=
  match partBlock part (s.buf b) with
  | some (dev,blockno) =>
    (s.setBuf b fun x => {x with dev := dev,blockno := blockno}).setTask i
      (task (some ((s.buf b).dev,(s.buf b).blockno)))
  | none => s.setTask i (task none)

def Buf.restore (x : Buf) : Option (ℕ × ℕ) → Buf
  | some (dev,blockno) => {x with dev := dev,blockno := blockno}
  | none => x
def Buf.transferred (x : Buf) : Buf := {x with valid := true,dirty := false,error := false,pinned := false}
def Buf.endRead (x : Buf) (ok : Bool) : Buf := if ok then x.transferred else {x with valid := true,error := true}
def Buf.endWrite (x : Buf) (ok : Bool) : Buf := if ok then x.transferred else {x with error := true}

inductive Action where
  | lookup (dev blockno : ℕ)
  | lock (i : ℕ)
  | enter (i : ℕ)
  | finish (i : ℕ) (ok : Bool)
  | bwrite (i : ℕ)
  | logWrite (i : ℕ)
  | unlock (i : ℕ)
  | drop (i : ℕ)

def Cache.release (s : Cache) (b : BufId) : Cache :=
  let s':=s.setBuf b fun x => {x with refcnt := x.refcnt-1}
  if (s.buf b).refcnt-1=0 then {s' with lru := (s.lru.remove () b).append () b} else s'

def step (s : Cache) : Action → Option Cache
  | .lookup dev blockno => (bget s dev blockno).map fun (b,s') =>
    {s' with tasks := s'.tasks++[.waiting b]}
  | .lock i => match s.tasks[i]? with
    | some (.waiting b) =>
      if (s.buf b).locked then none
      else some ((s.setBuf b fun x => {x with locked := true}).setTask i (.entered b))
    | _ => none
  | .enter i => match s.tasks[i]? with
    | some (.entered b) =>
      if (s.buf b).valid then some (s.setTask i (.held b))
      else some (startTransfer part s i b (.reading b))
    | _ => none
  | .finish i ok => match s.tasks[i]? with
    | some (.reading b home) =>
      some ((s.setBuf b fun x => (x.restore home).endRead ok).setTask i (.held b))
    | some (.writing b home) =>
      some ((s.setBuf b fun x => (x.restore home).endWrite ok).setTask i (.held b))
    | _ => none
  | .bwrite i => match s.tasks[i]? with
    | some (.held b) =>
      some (startTransfer part (s.setBuf b fun x => {x with dirty := true}) i b (.writing b))
    | _ => none
  | .logWrite i => match s.tasks[i]? with
    | some (.held b) => some (s.setBuf b fun x => {x with dirty := true,pinned := true})
    | _ => none
  | .unlock i => match s.tasks[i]? with
    | some (.held b) =>
      some ((s.setBuf b fun x => {x with locked := false}).setTask i (.leaving b))
    | _ => none
  | .drop i => match s.tasks[i]? with
    | some (.leaving b) => some ((s.release b).setTask i .done)
    | _ => none

end Auxv6.Fs
