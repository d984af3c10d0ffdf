import Mathlib.Logic.Function.Basic
import Mathlib.Data.Fintype.Basic
import Auxv6.Lib.Transition
import Auxv6.Process.Mlfq

/-!
# Descriptor tables

`struct fdtable` and the system calls on it. The entries and the flags of a table are two pages from
`kalloc`; what a fresh page holds is an argument. A file is its reference count, and `inflight` counts the
references that no table holds.
-/

namespace Auxv6.File
open Machine Lib Function

abbrev FileId := ℕ

def nofileHard : ℕ := 512
def nofileDefault : ℕ := 256

structure Page where
  entries : ℕ → Option FileId
  fdflags : ℕ → Bool

/-- `struct fdtable` (`proc.h:64`); a flag is `FD_CLOEXEC`. -/
structure Fdtable where
  entries : ℕ → Option FileId
  fdflags : ℕ → Bool
  capacity : ℕ
  nfds : ℕ
  nextFdHint : ℕ

/-- `sysfile.c:110-124`. -/
def fdtableInit : Fdtable := ⟨fun _ => none,fun _ => false,32,0,0⟩

/-! ### Growing -/

def newCapacity (capacity : ℕ) : ℕ := if capacity > 256 then capacity*2 else capacity+256

/-- `sysfile.c:128-165`. -/
def Fdtable.expand (ft : Fdtable) (mem : Option Page) : Option Fdtable :=
  let cap:=newCapacity ft.capacity
  if cap*4 > pgsize then none
  else if cap > pgsize then none
  else match mem with
    | none => none
    | some page => some
      { ft with
        entries := fun i =>
          if i<ft.capacity then ft.entries i else if i<cap then none else page.entries i
        fdflags := fun i =>
          if i<ft.capacity then ft.fdflags i else if i<cap then false else page.fdflags i
        capacity := cap }

def Fdtable.grow (mem : ℕ → Option Page) (need : ℕ) : ℕ → Fdtable → Fdtable × Bool
  | 0, ft => (ft,decide (need≤ft.capacity))
  | k+1, ft =>
    if need≤ft.capacity then (ft,true)
    else match ft.expand (mem k) with
      | none => (ft,false)
      | some ft' => Fdtable.grow mem need k ft'

def growTurns : ℕ := 5

/-- `fd_ensure_slot` (`sysfile.c:297-312`). -/
def Fdtable.ensureSlot (ft : Fdtable) (mem : ℕ → Option Page) (fd : ℕ) : Fdtable × Bool :=
  match ft.grow mem (fd+1) growTurns with
  | (ft',false) => (ft',false)
  | (ft',true) => ({ft' with nfds := if fd ≥ ft'.nfds then fd+1 else ft'.nfds},true)

/-! ### Allocation -/

/-- A loop of `fdalloc` over `n` descriptors from `fd` on (`sysfile.c:632-643, 646-656`). -/
def Fdtable.scan (f : FileId) (limit : ℕ) : ℕ → ℕ → Fdtable → Fdtable × Option ℕ
  | 0, _, ft => (ft,none)
  | n+1, fd, ft =>
    let ft:=if fd ≥ ft.nfds then {ft with nfds := fd+1} else ft
    if ft.entries fd=none then
      ({ ft with
        entries := update ft.entries fd (some f)
        nextFdHint := if fd+1 ≥ limit then 0 else fd+1 },some fd)
    else Fdtable.scan f limit n (fd+1) ft

/-- `sysfile.c:605-658`. -/
def Fdtable.fdalloc (ft : Fdtable) (f : FileId) (limit : ℕ) (mem : ℕ → Option Page) : Fdtable × Option ℕ :=
  match ft.grow mem limit growTurns with
  | (ft,false) => (ft,none)
  | (ft,true) =>
    let start:=if ft.nextFdHint ≥ limit then 0 else ft.nextFdHint
    let start:=if start ≥ ft.nfds then 0 else start
    match ft.scan f limit (limit-start) start with
    | (ft,some fd) => (ft,some fd)
    | (ft,none) => ft.scan f limit (if start<limit then start else limit) 0

/-- The loop of `F_DUPFD` and `F_DUPFD_CLOEXEC` over `n` descriptors from `i` on
(`sysfile.c:3136-3146, 3198-3208`). -/
def Fdtable.dupScan (f : FileId) (cloexec : Bool) (mem : ℕ → ℕ → Option Page) :
    ℕ → ℕ → Fdtable → Fdtable × Option ℕ
  | 0, _, ft => (ft,none)
  | n+1, i, ft =>
    match ft.ensureSlot (mem i) i with
    | (ft,false) => (ft,none)
    | (ft,true) =>
      if ft.entries i=none then
        ({ ft with
          entries := update ft.entries i (some f)
          fdflags := update ft.fdflags i cloexec },some i)
      else Fdtable.dupScan f cloexec mem n (i+1) ft

/-! ### Clearing -/

def trimNfds (entries : ℕ → Option FileId) : ℕ → ℕ
  | 0 => 0
  | n+1 => if entries n=none then trimNfds entries n else n+1

/-- `fd_clear` (`sysfile.c:276-293`). -/
def Fdtable.clear (ft : Fdtable) (fd : ℕ) : Fdtable :=
  if fd ≥ ft.nfds then ft
  else
    let entries:=update ft.entries fd none
    { ft with
      entries := entries
      fdflags := update ft.fdflags fd false
      nextFdHint := if fd<ft.nextFdHint then fd else ft.nextFdHint
      nfds := trimNfds entries ft.nfds }

/-- `file.c:93-105`. -/
def filedup (ref : FileId → ℕ) (f : FileId) : FileId → ℕ := if ref f<1 then ref else update ref f (ref f+1)

def fileclose (ref : FileId → ℕ) (f : FileId) : FileId → ℕ := if ref f<1 then ref else update ref f (ref f-1)

structure Ctx where
  table : Fdtable
  ref : FileId → ℕ

/-- `sysfile.c:572-600`. -/
def Ctx.argfd (c : Ctx) (fd : ℤ) : Option FileId :=
  if fd<0 ∨ fd ≥ c.table.nfds then none
  else match c.table.entries fd.toNat with
    | none => none
    | some f => if c.ref f<1 then none else some f

/-! ### System calls -/

/-- `open` and the other calls that put a new file into the table: `filealloc` returned `f`. -/
def sysOpen (c : Ctx) (f : FileId) (limit : ℕ) (mem : ℕ → Option Page) : Ctx × Option ℕ :=
  let ref:=update c.ref f 1
  match c.table.fdalloc f limit mem with
  | (table,some fd) => (⟨table,ref⟩,some fd)
  | (table,none) => (⟨table,fileclose ref f⟩,none)

/-- `sysfile.c:1106-1117`. -/
def sysClose (c : Ctx) (fd : ℤ) : Ctx :=
  match c.argfd fd with
  | none => c
  | some f => ⟨c.table.clear fd.toNat,fileclose c.ref f⟩

/-- `sysfile.c:893-905`. -/
def sysDup (c : Ctx) (fd : ℤ) (limit : ℕ) (mem : ℕ → Option Page) : Ctx × Option ℕ :=
  match c.argfd fd with
  | none => (c,none)
  | some f =>
    match c.table.fdalloc f limit mem with
    | (table,none) => (⟨table,c.ref⟩,none)
    | (table,some fd) => (⟨table,filedup c.ref f⟩,some fd)

/-- `sysfile.c:3079-3113`. -/
def sysDup2 (c : Ctx) (oldfd newfd : ℤ) (limit : ℕ) (mem : ℕ → Option Page) : Ctx :=
  match c.argfd oldfd with
  | none => c
  | some f =>
    if newfd<0 ∨ newfd ≥ limit then c
    else if oldfd=newfd then c
    else
      let fd:=newfd.toNat
      match c.table.ensureSlot mem fd with
      | (table,false) => ⟨table,c.ref⟩
      | (table,true) =>
        let c' : Ctx:=match table.entries fd with
          | some oldf => ⟨table.clear fd,fileclose c.ref oldf⟩
          | none => ⟨table,c.ref⟩
        ⟨{ c'.table with
            entries := update c'.table.entries fd (some f)
            fdflags := update c'.table.fdflags fd false },filedup c'.ref f⟩

/-- `F_DUPFD` and `F_DUPFD_CLOEXEC` (`sysfile.c:3131-3147, 3193-3209`). -/
def sysDupfd (c : Ctx) (fd arg : ℤ) (cloexec : Bool) (limit : ℕ) (mem : ℕ → ℕ → Option Page) : Ctx × Option ℕ :=
  match c.argfd fd with
  | none => (c,none)
  | some f =>
    if arg<0 ∨ arg ≥ limit then (c,none)
    else match c.table.dupScan f cloexec mem (limit-arg.toNat) arg.toNat with
      | (table,none) => (⟨table,c.ref⟩,none)
      | (table,some i) => (⟨table,filedup c.ref f⟩,some i)

/-- `F_SETFD` (`sysfile.c:3152-3156`). -/
def sysSetfd (c : Ctx) (fd : ℤ) (cloexec : Bool) : Ctx :=
  match c.argfd fd with
  | none => c
  | some _ =>
    { c with table := {c.table with fdflags := update c.table.fdflags fd.toNat cloexec} }

def execTurn (c : Ctx) (cfd : ℕ) : Ctx :=
  match c.table.entries cfd with
  | none => c
  | some f =>
    if c.table.fdflags cfd then
      ⟨{ c.table with
          entries := update c.table.entries cfd none
          fdflags := update c.table.fdflags cfd false },fileclose c.ref f⟩
    else c

/-- Descriptors in a successful `exec` (`exec.c:322-336`). -/
def execClose (c : Ctx) : Ctx :=
  let c':=(List.range c.table.nfds).foldl execTurn c
  { c' with table := {c'.table with nfds := trimNfds c'.table.entries c'.table.nfds} }

def freeTurn (c : Ctx) (i : ℕ) : Ctx :=
  match c.table.entries i with
  | none => c
  | some f =>
    ⟨{c.table with entries := update c.table.entries i none},fileclose c.ref f⟩

/-- `sysfile.c:184-201`: the counts that are left. -/
def fdtableFree (c : Ctx) : FileId → ℕ := ((List.range c.table.nfds).foldl freeTurn c).ref

def dupTurn (parent : Fdtable) (c : Ctx) (i : ℕ) : Ctx :=
  match parent.entries i with
  | none => c
  | some f =>
    ⟨{ c.table with
        entries := update c.table.entries i (if c.ref f<1 then none else some f)
        fdflags := update c.table.fdflags i (parent.fdflags i) },filedup c.ref f⟩

/-- `fdtable_dup` into the table `child` (`sysfile.c:206-237`). -/
def fdtableDup (parent child : Fdtable) (ref : FileId → ℕ) (mem : Option Page) : Option Ctx :=
  match (if parent.capacity > child.capacity then child.expand mem else some child) with
  | none => none
  | some child =>
    let cleared : Fdtable :=
      { entries := fun i => if i<child.capacity then none else child.entries i
        fdflags := fun i => if i<child.capacity then false else child.fdflags i
        capacity := parent.capacity
        nfds := parent.nfds
        nextFdHint := parent.nextFdHint }
    some ((List.range parent.nfds).foldl (dupTurn parent) ⟨cleared,ref⟩)

structure Proc where
  table : Fdtable
  rlimitNofileCur : ℕ

/-- `sysfile.c:91-99`. -/
def Proc.fdLimit (p : Proc) : ℕ := if p.rlimitNofileCur > nofileHard then nofileHard else p.rlimitNofileCur

abbrev Pid := Process.Slot

structure System where
  proc : Pid → Option Proc
  ref : FileId → ℕ
  inflight : FileId → ℕ

inductive Action where
  | open_ (p : Pid) (f : FileId) (mem : ℕ → Option Page)
  | close (p : Pid) (fd : ℤ)
  | dup (p : Pid) (fd : ℤ) (mem : ℕ → Option Page)
  | dup2 (p : Pid) (oldfd newfd : ℤ) (mem : ℕ → Option Page)
  | dupfd (p : Pid) (fd arg : ℤ) (cloexec : Bool) (mem : ℕ → ℕ → Option Page)
  | setfd (p : Pid) (fd : ℤ) (cloexec : Bool)
  | fork (p child : Pid) (mem : Option Page)
  | exec (p : Pid)
  | setrlimit (p : Pid) (cur max : ℕ)
  | exit (p : Pid)
  | hold (f : FileId)
  | unhold (f : FileId)

def System.call (s : System) (p : Pid) (f : Proc → Ctx) : Option System :=
  match s.proc p with
  | none => none
  | some pr =>
    let c:=f pr
    some { s with proc := update s.proc p (some {pr with table := c.table}),ref := c.ref }

/-- `setrlimit(RLIMIT_NOFILE)` (`sysproc.c:1074-1086`). -/
def setrlimit (pr : Proc) (cur max : ℕ) : Proc :=
  if cur > max then pr else if max > nofileHard then pr else {pr with rlimitNofileCur := cur}

def step (s : System) : Action → Option System
  | .open_ p f mem =>
    if s.ref f=0 then s.call p fun pr => (sysOpen ⟨pr.table,s.ref⟩ f pr.fdLimit mem).1 else none
  | .close p fd => s.call p fun pr => sysClose ⟨pr.table,s.ref⟩ fd
  | .dup p fd mem => s.call p fun pr => (sysDup ⟨pr.table,s.ref⟩ fd pr.fdLimit mem).1
  | .dup2 p oldfd newfd mem =>
    s.call p fun pr => sysDup2 ⟨pr.table,s.ref⟩ oldfd newfd pr.fdLimit mem
  | .dupfd p fd arg cloexec mem =>
    s.call p fun pr => (sysDupfd ⟨pr.table,s.ref⟩ fd arg cloexec pr.fdLimit mem).1
  | .setfd p fd cloexec => s.call p fun pr => sysSetfd ⟨pr.table,s.ref⟩ fd cloexec
  | .fork p child mem =>
    match s.proc p, s.proc child with
    | some pr, none =>
      match fdtableDup pr.table fdtableInit s.ref mem with
      | none => some s
      | some c => some { s with
          proc := update s.proc child (some ⟨c.table,pr.rlimitNofileCur⟩),ref := c.ref }
    | _, _ => none
  | .exec p => s.call p fun pr => execClose ⟨pr.table,s.ref⟩
  | .setrlimit p cur max =>
    match s.proc p with
    | none => none
    | some pr => some {s with proc := update s.proc p (some (setrlimit pr cur max))}
  | .exit p =>
    match s.proc p with
    | none => none
    | some pr => some { s with
        proc := update s.proc p none,ref := fdtableFree ⟨pr.table,s.ref⟩ }
  | .hold f =>
    if s.ref f=0 then none
    else some {s with ref := filedup s.ref f,inflight := update s.inflight f (s.inflight f+1)}
  | .unhold f =>
    if s.inflight f=0 then none
    else some { s with
      ref := fileclose s.ref f,inflight := update s.inflight f (s.inflight f-1) }

def boot : System where
  proc := fun p => if p=⟨0,by decide⟩ then some ⟨fdtableInit,nofileDefault⟩ else none
  ref := fun _ => 0
  inflight := fun _ => 0

end Auxv6.File
