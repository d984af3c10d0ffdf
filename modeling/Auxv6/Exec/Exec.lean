import Auxv6.File.Fdtable
import Auxv6.Lib.ByteMemory
import Auxv6.Process.Signals
import Auxv6.Vm.ProcImage

/-!
# exec (core/exec.c)

The call of one process from the lookup of the path to the commit. The file system is an
argument: which file a path names, whether it may be executed and what its bytes are. The
staging page of the argument pointers is allocated and freed as in the source, its words are
kept as a list. A panic is `none`; a call that returns gives its result and the new state.
-/

namespace Auxv6.Exec
open Machine Vm Lib.ByteMemory File

def execArgcMax : ℕ := 128
def execArgBytesMax : ℕ := 4096
def execShebangLineMax : ℕ := 128
def execShebangMaxDepth : ℕ := 2

abbrev CStr := { s : List UInt8 // 0∉s ∧ s.length<2^31 }

/-- `vfs_namei`, and the `access` and the reads of a file. -/
structure FileSystem where
  namei : CStr → Option ℕ
  access : ℕ → Bool
  file : ℕ → Reads

structure Proc where
  image : ProcImage
  tf : Process.Trapframe
  name : List UInt8
  fdtable : Option Fdtable

structure Kernel where
  sys : Sys
  proc : Proc
  ref : FileId → ℕ

/-! ### Headers (include/elf.h) -/

def elfMagic : ℕ := 0x464C457F
def elfProgLoad : ℕ := 1
def elfhdrSize : ℕ := 52
def proghdrSize : ℕ := 32

structure Elfhdr where
  magic : ℕ
  entry : ℕ
  phoff : ℕ
  phnum : ℕ

structure Phdr extends Proghdr where
  ptype : ℕ
  filesz : ℕ

def ofList (bs : List UInt8) : Bytes := fun i => bs.getD i 0
def elfhdrOf (bs : List UInt8) : Elfhdr where
  magic := load32 (ofList bs) 0
  entry := load32 (ofList bs) 24
  phoff := load32 (ofList bs) 28
  phnum := (ofList bs 44).toNat+2^8*(ofList bs 45).toNat

def phdrOf (bs : List UInt8) : Phdr where
  ptype := load32 (ofList bs) 0
  off := load32 (ofList bs) 4
  vaddr := load32 (ofList bs) 8
  filesz := load32 (ofList bs) 16
  memsz := load32 (ofList bs) 20
  flags := load32 (ofList bs) 24

def FileSystem.readFull (fs : FileSystem) (ip off n : ℕ) : Option (List UInt8) :=
  ((fs.file ip).read off n).filter fun bs => bs.length=n
def offset64 (off : ℕ) : ℕ := if off<2^31 then off else off+(2^64-2^32)

/-! ### Scripts -/

def isShebangSpace (c : UInt8) : Bool := c=32 || c=9 || c=13
def atLineEnd : List UInt8 → Bool
  | [] => true
  | c :: _ => c=0 || c=10
def isShebangChar (c : UInt8) : Bool := !(c=0 || c=10) && !isShebangSpace c

lemma isShebangChar_takeWhile (line : List UInt8) : 0∉line.takeWhile isShebangChar := by
  intro h
  have hall:=List.all_eq_true.mp (List.all_takeWhile (p := isShebangChar) (l := line)) 0 h
  revert hall
  decide

/-- A word of the line, none where the source returns -1; both buffers have the size of a line. -/
def shebangWord (line : List UInt8) : Option CStr :=
  if h : line.takeWhile isShebangChar≠[] ∧ (line.takeWhile isShebangChar).length<execShebangLineMax then
    some ⟨line.takeWhile isShebangChar,isShebangChar_takeWhile line,h.2.trans (by decide)⟩
  else none

/-- `exec.c:26-75`: the interpreter and its argument, none where the result
is not 1. -/
def parseShebang : List UInt8 → Option (CStr × Option CStr)
  | 35::33::line =>
    let line:=line.dropWhile isShebangSpace
    if atLineEnd line then none
    else do
      let interp ← shebangWord line
      let line:=(line.dropWhile isShebangChar).dropWhile isShebangSpace
      if atLineEnd line then some (interp,none)
      else do
        let arg ← shebangWord line
        let line:=(line.dropWhile isShebangChar).dropWhile isShebangSpace
        if atLineEnd line then some (interp,some arg) else none
  | _ => none

/-- The call that a script is replaced by (`exec.c:176-205`). -/
def scriptCall (fs : FileSystem) (ip : ℕ) (path : CStr) (argv : List CStr) : Option (CStr × List CStr) := do
  let line ← (fs.file ip).read 0 (execShebangLineMax-1)
  let s ← parseShebang line
  let scriptArgv:=s.1::(s.2.toList++path::argv.drop 1)
  if execArgcMax<scriptArgv.length then none else some (s.1,scriptArgv)

section

variable (L : Mem.Layout) (fs : FileSystem) (e : ℕ) (memOk : ℕ → Bool) (c : Fin ncpu)

/-! ### The program -/

/-- A turn of the loop over the program headers (`exec.c:214-229`). -/
def loadHeader (ip : ℕ) (elf : Elfhdr) (i sz : ℕ) (σ : Sys) : Option (Option ℕ × Sys) :=
  match fs.readFull ip (offset64 (uintAdd elf.phoff (i*proghdrSize))) proghdrSize with
  | none => some (none,σ)
  | some bs =>
    let ph:=phdrOf bs
    if ph.ptype≠elfProgLoad then some (some sz,σ)
    else loadSegment L σ e ph.toProghdr ph.filesz (fs.file ip) sz (memOk (i+2)) c

def loadSegments (ip : ℕ) (elf : Elfhdr) : ℕ → ℕ → ℕ → Sys → Option (Option ℕ × Sys)
  | 0, _, sz, σ => some (some sz,σ)
  | n+1, i, sz, σ => do
    match ← loadHeader L fs e memOk c ip elf i sz σ with
    | (none,σ) => some (none,σ)
    | (some sz,σ) => loadSegments ip elf n (i+1) sz σ

/-! ### The stack -/

structure Push where
  argBytes : ℕ
  sp : ℕ
  ptrs : List ℕ

/-- A turn of the loop over `argv` (`exec.c:270-282`), none on `goto bad`. -/
def pushArg (d : ℕ) (p : Push) (arg : CStr) (s : Uvm) : Option (Option Push × Uvm) :=
  let arglen:=arg.val.length+1
  if execArgcMax≤p.ptrs.length then some (none,s)
  else if uintAdd p.argBytes arglen<p.argBytes ∨ execArgBytesMax<uintAdd p.argBytes arglen then
    some (none,s)
  else do
    let sp:=uintSub p.sp arglen/4*4
    let r ← copyout L c s none d sp (arg.val++[0])
    if ¬ r.1.1 then some (none,r.2)
    else some (some ⟨uintAdd p.argBytes arglen,sp,p.ptrs++[sp]⟩,r.2)

def pushArgs (d : ℕ) : List CStr → Push → Uvm → Option (Option Push × Uvm)
  | [], p, s => some (some p,s)
  | arg::rest, p, s => do
    match ← pushArg L c d p arg s with
    | (none,s) => some (none,s)
    | (some p,s) => pushArgs d rest p s

/-- `ustack[0 .. 6 + argc)` (`exec.c:283-292`). -/
def ustackWords (base : ℕ) (ptrs : List ℕ) : List ℕ :=
  [0xffffffff,ptrs.length,uintAdd base (4*4),uintAdd base ((5+ptrs.length)*4)]++(ptrs++[0,0])

/-- The arguments on the new stack (`exec.c:261-300`): the new `sp`, none on `goto bad`. -/
def pushImage (d sz : ℕ) (argv : List CStr) (s : Uvm) : Option (Option ℕ × Uvm) := do
  match ← s.kalloc L c with
  | (none,s) => some (none,s)
  | (some ustack,s) =>
    match ← pushArgs L c d argv ⟨0,sz,[]⟩ s with
    | (none,s) => (s.kfree L c ustack).map (none,·)
    | (some p,s) =>
      let base:=uintSub p.sp ((6+p.ptrs.length)*4)
      let r ← copyout L c s none d base ((ustackWords base p.ptrs).flatMap le32)
      let s ← r.2.kfree L c ustack
      some (if r.1.1 then some base else none,s)

/-! ### exec -/

def procName (path : List UInt8) : List UInt8 :=
  (path.foldl (fun last c => if c=47 then [] else last++[c]) []).take 15
def execBad (k : Kernel) (σ : Sys) : Option (Int × Kernel) :=
  (addressSpaceDestroy L σ e c).map fun σ => (-1,{k with sys := σ})

/-- The commit and what follows it (`exec.c:307-338`). -/
def commitProc (k : Kernel) (σ : Sys) (path : CStr) (elf : Elfhdr) (sz sp : ℕ) : Option (Int × Kernel) := do
  -- a process without an address space is a panic
  let _ ← k.sys.space k.proc.image.addrsp
  let r ← execCommit L σ k.proc.image e sz c
  let files:=k.proc.fdtable.map fun ft => execClose ⟨ft,k.ref⟩
  some (0,
    { sys := r.2
      proc :=
        { image := r.1
          tf := {k.proc.tf with eip := BitVec.ofNat 32 elf.entry,esp := BitVec.ofNat 32 sp}
          name := procName path.val
          fdtable := files.map Ctx.table }
      ref := (files.map Ctx.ref).getD k.ref })

/-- `exec_internal` from `address_space_create` on (`exec.c:207-354`); `e` names the new
address space. -/
def execElf (k : Kernel) (ip : ℕ) (elf : Elfhdr) (path : CStr) (argv : List CStr) : Option (Int × Kernel) := do
  match k.sys.space e with
  | some _ => none
  | none =>
    match ← createExec L k.sys e (memOk 0) c with
    | (.ok,σ) =>
      match ← loadSegments L fs e memOk c ip elf elf.phnum 0 0 σ with
      | (none,σ) => execBad L e c k σ
      | (some sz,σ) =>
        match ← mapStack L σ e sz (memOk 1) c with
        | (none,σ) => execBad L e c k σ
        | (some sz,σ) =>
          let new ← σ.space e
          match ← pushImage L c new.pgdir sz argv σ.uvm with
          | (none,s) => execBad L e c k {σ with uvm := s}
          | (some sp,s) => commitProc L e c k {σ with uvm := s} path elf sz sp
    | (_,σ) => some (-1,{k with sys := σ})

/-- `exec.c:121-354`; `depth` counts the scripts that may still follow. -/
def execInternal (k : Kernel) (depth : ℕ) (path : CStr) (argv : List CStr) : Option (Int × Kernel) :=
  match fs.namei path with
  | none => some (-1,k)
  | some ip =>
    if ¬ fs.access ip then some (-1,k)
    else match fs.readFull ip 0 elfhdrSize with
      | none => some (-1,k)
      | some bs =>
        if (elfhdrOf bs).magic≠elfMagic then
          match depth with
          | 0 => some (-1,k)
          | depth+1 =>
            match scriptCall fs ip path argv with
            | none => some (-1,k)
            | some (interp,scriptArgv) => execInternal k depth interp scriptArgv
        else execElf L fs e memOk c k ip (elfhdrOf bs) path argv

def exec (k : Kernel) (path : CStr) (argv : List CStr) : Option (Int × Kernel) :=
  execInternal L fs e memOk c k execShebangMaxDepth path argv

end

/-- The path and the arguments of the image that is loaded in the end: those of the call,
or of the interpreter of a script. -/
def execTarget (fs : FileSystem) : ℕ → CStr → List CStr → CStr × List CStr
  | 0, path, argv => (path,argv)
  | depth+1, path, argv =>
    match fs.namei path with
    | none => (path,argv)
    | some ip =>
      match fs.readFull ip 0 elfhdrSize with
      | none => (path,argv)
      | some bs =>
        if (elfhdrOf bs).magic=elfMagic then (path,argv)
        else match scriptCall fs ip path argv with
          | none => (path,argv)
          | some (interp,scriptArgv) => execTarget fs depth interp scriptArgv

end Auxv6.Exec
