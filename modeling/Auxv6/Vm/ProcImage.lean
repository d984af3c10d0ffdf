import Auxv6.Vm.CowRun
import Auxv6.Vm.VmaInvariant

/-!
# The image of a process (core/proc.c, core/sysproc.c, core/exec.c, vm/fault.c)

A process has an address space and the sizes `sz`, `stack_top` and `stack_bot`. The calls
below run in any order and interleaving, each on its own image; `exec` is split at the points
where other processes may run, so that an image under construction is part of the state.
A panic is `none`.
-/

namespace Auxv6.Vm
open Machine

def userStackGuardPages : ℕ := 1
def userStackPages : ℕ := 4
def userStackMaxPages : ℕ := 64

structure ProcImage where
  addrsp : ℕ
  sz : ℕ
  stackTop : ℕ
  stackBot : ℕ
  deriving DecidableEq, Repr

structure Loading where
  sz : ℕ
  stacked : Bool

structure Images where
  sys : Sys
  proc : ℕ → Option ProcImage
  loading : ℕ → Option Loading

def Images.setProc (σ : Images) (q : ℕ) (sys : Sys) (o : Option ProcImage) : Images :=
  {σ with sys := sys,proc := Function.update σ.proc q o}
def Images.setLoading (σ : Images) (e : ℕ) (sys : Sys) (o : Option Loading) : Images :=
  {σ with sys := sys,loading := Function.update σ.loading e o}
def uintAddInt (a : ℕ) (n : Int) : ℕ := (((a : Int)+n)%wordMod).toNat

section

variable (L : Mem.Layout)

/-! ### The address space calls -/

/-- `vm.c:851-857`. -/
def allocuvmAs (σ : Sys) (a oldsz newsz : ℕ) (memOk : Bool) (c : Fin ncpu) : Option (ℕ × Sys) := do
  let sp ← σ.space a
  let r ← allocuvm L c σ.uvm sp.pgdir oldsz newsz
  some (r.1,σ.set a r.2 (some {sp with vma := allocVmas sp.vma oldsz newsz r.1 memOk}))

/-- `vm.c:870-876`. -/
def deallocuvmAs (σ : Sys) (a oldsz newsz : ℕ) (c : Fin ncpu) : Option (ℕ × Sys) := do
  let sp ← σ.space a
  let r ← deallocuvm L c σ.uvm sp.pgdir oldsz newsz
  some (r.1,σ.set a r.2 (some {sp with vma := (vmaShrink sp.vma (min oldsz newsz)).2}))

def addressSpaceDestroy (σ : Sys) (a : ℕ) (c : Fin ncpu) : Option Sys := do
  let sp ← σ.space a
  let s ← freevm L c σ.uvm sp.pgdir
  some (σ.set a s none)

/-! ### sbrk and vmreserve -/

/-- `proc.c:426-455`. -/
def growproc (σ : Images) (q : ℕ) (n : Int) (memOk : Bool) (c : Fin ncpu) : Option (Int × Images) := do
  let pr ← σ.proc q
  if 0<n then
    let r ← allocuvmAs L σ.sys pr.addrsp pr.sz (uintAddInt pr.sz n) memOk c
    if r.1=0 then some (-1,{σ with sys := r.2})
    else some (0,σ.setProc q r.2 (some {pr with sz := r.1}))
  else if n<0 then
    let r ← deallocuvmAs L σ.sys pr.addrsp pr.sz (uintAddInt pr.sz n) c
    if r.1=0 then some (-1,{σ with sys := r.2})
    else some (0,σ.setProc q r.2 (some {pr with sz := r.1}))
  else some (0,σ)

/-- `sysproc.c:798-810`. -/
def sysSbrk (σ : Images) (q : ℕ) (n : Int) (memOk : Bool) (c : Fin ncpu) : Option (Int × Images) := do
  let pr ← σ.proc q
  let r ← growproc L σ q n memOk c
  some (if r.1<0 then -1 else uintToInt pr.sz,r.2)

def reserveVmas (vma : AddressSpace) (oldsz base end_ : ℕ) (expandOk reserveOk : Bool) : Bool × AddressSpace :=
  let e:=if oldsz<base then vmaExpand expandOk vma base else (0,vma)
  if e.1<0 then (false,e.2)
  else
    let r:=vmaReserveZerofill reserveOk e.2 base end_
    if r.1<0 then (false,if oldsz<base then (vmaShrink r.2 oldsz).2 else r.2)
    else (true,r.2)

/-- `sysproc.c:812-852`. -/
def sysVmreserve (σ : Images) (q : ℕ) (n : Int) (expandOk reserveOk : Bool) : Option (Int × Images) := do
  let pr ← σ.proc q
  let sp ← σ.sys.space pr.addrsp
  let base:=pgroundup pr.sz
  let len:=pgroundup (uintAddInt 0 n)
  if n≤0 ∨ len=0 ∨ kernbase≤base ∨ kernbase-base<len then some (-1,σ)
  else
    let r:=reserveVmas sp.vma pr.sz base (base+len) expandOk reserveOk
    let sys:=σ.sys.set pr.addrsp σ.sys.uvm (some {sp with vma := r.2})
    if r.1 then some (uintToInt base,σ.setProc q sys (some {pr with sz := base+len}))
    else some (-1,{σ with sys := sys})

/-! ### Page faults -/

/-- The loop of `proc_try_grow_stack` (`fault.c:78-107`); `fuel` bounds its turns, and
`memOk` answers the allocation of each. -/
def growStackLoop (fault : ℕ) (memOk : ℕ → Bool) (c : Fin ncpu) :
    ℕ → Sys → ProcImage → Option (Bool × Sys × ProcImage)
  | 0, σ, pr => some (false,σ,pr)
  | fuel+1, σ, pr =>
    if pr.stackBot≤pgrounddown fault then some (true,σ,pr)
    else do
      let guard:=uintSub pr.stackBot pgsize
      if userStackMaxPages≤uintSub pr.stackTop pr.stackBot/pgsize then some (false,σ,pr)
      else
        let sp ← σ.space pr.addrsp
        match ← userPageState σ.uvm sp.pgdir guard with
        | 0 =>
          let r ← allocuvmAs L σ pr.addrsp guard (uintAdd guard pgsize) (memOk fuel) c
          if r.1=0 then some (false,r.2,pr)
          else growStackLoop fault memOk c fuel r.2 {pr with stackBot := guard}
        | 1 =>
          let s ← markPteu σ.uvm sp.pgdir guard true
          growStackLoop fault memOk c fuel {σ with uvm := s} {pr with stackBot := guard}
        | _ => some (false,σ,pr)

/-- `fault.c:57-111`. -/
def procTryGrowStack (σ : Sys) (pr : ProcImage) (fault : ℕ) (memOk : ℕ → Bool) (c : Fin ncpu) :
    Option (Bool × Sys × ProcImage) :=
  if pr.stackTop=0 ∨ pr.stackBot=0 ∨ pr.stackTop≤pr.stackBot then some (false,σ,pr)
  else if pr.stackBot≤fault then some (false,σ,pr)
  else if fault<uintSub pr.stackTop (userStackMaxPages*pgsize) then some (false,σ,pr)
  else growStackLoop L fault memOk c (userStackMaxPages+1) σ pr

/-- `fault.c:147-177`: whether it returns 0. -/
def faultDemandZero (s : Uvm) (vma : AddressSpace) (d fault : ℕ) (c : Fin ncpu) : Option (Bool × Uvm) := do
  let va:=pgrounddown fault
  match vmaFind vma va with
  | none => some (false,s)
  | some r =>
    if r.flags &&& vmaZerofill=0 ∨ r.inode≠0 then some (false,s)
    else match ← vmLookupPte s d va with
      | some l =>
        if (s.pte l).p then some (false,s)
        else vmMapZerofillPage L c s d va (r.flags &&& vmaWrite≠0)
      | none => vmMapZerofillPage L c s d va (r.flags &&& vmaWrite≠0)

/-- The first attempt of `vm_handle_fault`: `cow_fault`, on a write to a present page. No
entry of the kernel half is copy-on-write. -/
def faultCowResolve (s : Uvm) (d fault : ℕ) (protection write : Bool) (c : Fin ncpu) : Option (Bool × Uvm) :=
  if protection ∧ write ∧ fault<kernbase then cowFault L c s d fault else some (false,s)

/-- `fault.c:197-229`: whether the access is tried again. `protection`
and `write` are the bits of the error code; the fault is one of user mode. -/
def vmHandleFault (σ : Images) (q fault : ℕ) (protection write : Bool) (memOk : ℕ → Bool)
    (c : Fin ncpu) : Option (Bool × Images) := do
  let pr ← σ.proc q
  let sp ← σ.sys.space pr.addrsp
  let r ← faultCowResolve L σ.sys.uvm sp.pgdir fault protection write c
  let sys:={σ.sys with uvm := r.2}
  if r.1 then some (true,{σ with sys := sys})
  else
    let g ← procTryGrowStack L sys pr fault memOk c
    let σ:=σ.setProc q g.2.1 (some g.2.2)
    if g.1 then some (true,σ)
    else if protection then some (false,σ)
    else
      let sp ← σ.sys.space pr.addrsp
      let z ← faultDemandZero L σ.sys.uvm sp.vma sp.pgdir fault c
      some (z.1,{ σ with sys := {σ.sys with uvm := z.2} })

/-! ### exec -/

/-- The pages of a segment, up to the first one refused (`exec.c:110-113`). -/
def mapSegmentPages (d : ℕ) (writable : Bool) (c : Fin ncpu) : List ℕ → Uvm → Option (Bool × Uvm)
  | [], s => some (true,s)
  | a::rest, s => do
    match ← vmMapZerofillPage L c s d a writable with
    | (true,s) => mapSegmentPages d writable c rest s
    | (false,s) => some (false,s)

/-- `exec_map_load_segment` (`exec.c:77-118`) with its pages: whether it returns 0. -/
def execMapSegment (σ : Sys) (e : ℕ) (ph : Proghdr) (memOk : Bool) (c : Fin ncpu) :
    Option (Bool × Sys) := do
  let sp ← σ.space e
  if ph.memsz=0 then some (true,σ)
  else if (execMapLoadSegment memOk (fun _ => true) sp.vma ph).1<0 then some (false,σ)
  else
    let r ← mapSegmentPages L sp.pgdir (ph.flags &&& elfProgFlagWrite≠0) c ph.pages σ.uvm
    let vma:=(execMapLoadSegment memOk (fun _ => r.1) sp.vma ph).2
    some (r.1,σ.set e r.2 (some {sp with vma := vma}))

/-- The reads of one file; a read gives at most what was asked. -/
structure Reads where
  read : ℕ → ℕ → Option (List UInt8)
  read_le : ∀ off n bs,read off n=some bs → bs.length≤n

/-- The loop of `loaduvm` (`vm.c:728-750`) from `i` on; `fuel` bounds its turns. -/
def loadLoop (file : Reads) (d offset addr sz : ℕ) : ℕ → ℕ → Uvm → Option (Bool × Uvm)
  | 0, _, s => some (true,s)
  | fuel+1, i, s =>
    if sz ≤ i then some (true,s)
    else
      let va:=uintAdd addr i
      let va0:=pgrounddown va
      match walkpgdir s d va0 with
      | none => none
      | some l =>
        if ¬ (s.pte l).p ∨ ¬ (s.pte l).sane ∨ ¬ paValid (s.pte l).pa then none
        else
          let n:=min (pgsize-(va-va0)) (sz-i)
          match file.read (uintAdd offset i) n with
          | none => some (false,s)
          | some bs =>
            let s:=writeBytes s (s.pte l).pa (va-va0) bs
            if bs.length=n then loadLoop file d offset addr sz fuel (i+n) s else some (false,s)

/-- `vm.c:718-752`: whether it returns 0. -/
def loaduvm (file : Reads) (s : Uvm) (d addr offset sz : ℕ) : Option (Bool × Uvm) :=
  if uintAdd addr sz<addr then some (false,s)
  else loadLoop file d offset addr sz (sz+1) 0 s

/-- A segment to be loaded (`exec.c:220-229`): the new `sz`, none on `goto bad`. -/
def loadSegment (σ : Sys) (e : ℕ) (ph : Proghdr) (filesz : ℕ) (file : Reads) (sz : ℕ) (memOk : Bool)
    (c : Fin ncpu) : Option (Option ℕ × Sys) :=
  if ph.memsz<filesz ∨ uintAdd ph.vaddr ph.memsz<ph.vaddr then some (none,σ)
  else do
    let r ← execMapSegment L σ e ph memOk c
    if ¬ r.1 then some (none,r.2)
    else
      let sp ← r.2.space e
      let l ← loaduvm file r.2.uvm sp.pgdir ph.vaddr ph.off filesz
      let σ:={r.2 with uvm := l.2}
      if ¬ l.1 then some (none,σ) else some (some (max sz (uintAdd ph.vaddr ph.memsz)),σ)

/-- `clearpteu` on each of the pages. A size that has wrapped puts them among the device
mappings of the kernel half, where no entry has `PTE_U`. -/
def hidePages (d : ℕ) : List ℕ → Uvm → Option Uvm
  | [], s => some s
  | va::rest, s =>
    if kernbase≤va then hidePages d rest s
    else do
      let s ← markPteu s d va false
      hidePages d rest s
def stackTotal : ℕ := (userStackGuardPages+userStackMaxPages)*pgsize
def hiddenStackPages (base : ℕ) : List ℕ :=
  (List.range (userStackGuardPages+(userStackMaxPages-userStackPages))).map fun g => base+g*pgsize

/-- The stack of the new image (`exec.c:239-259`): the new `sz`, none on `goto bad`. -/
def mapStack (σ : Sys) (e sz : ℕ) (memOk : Bool) (c : Fin ncpu) : Option (Option ℕ × Sys) := do
  let base:=pgroundup sz
  let r ← allocuvmAs L σ e base (uintAdd base stackTotal) memOk c
  if r.1=0 then some (none,r.2)
  else
    let sp ← r.2.space e
    let s ← hidePages sp.pgdir (hiddenStackPages (uintSub r.1 stackTotal)) r.2.uvm
    some (some r.1,{r.2 with uvm := s})

/-- The commit of `exec_internal` (`exec.c:307-318`): the image of the process. -/
def execCommit (σ : Sys) (pr : ProcImage) (e sz : ℕ) (c : Fin ncpu) : Option (ProcImage × Sys) := do
  let σ ← addressSpaceDestroy L σ pr.addrsp c
  some (⟨e,sz,sz,uintSub sz (userStackPages*pgsize)⟩,σ)

def Images.destroy (σ : Images) (e : ℕ) (c : Fin ncpu) : Option Images :=
  (addressSpaceDestroy L σ.sys e c).map fun sys => σ.setLoading e sys none

def Images.segment (σ : Images) (e : ℕ) (ph : Proghdr) (filesz : ℕ) (file : Reads) (memOk : Bool)
    (c : Fin ncpu) : Option Images := do
  let ld ← σ.loading e
  if ld.stacked then none
  else match ← loadSegment L σ.sys e ph filesz file ld.sz memOk c with
    | (none,sys) => Images.destroy L {σ with sys := sys} e c
    | (some sz,sys) => some (σ.setLoading e sys (some {ld with sz := sz}))

def Images.stack (σ : Images) (e : ℕ) (memOk : Bool) (c : Fin ncpu) : Option Images := do
  let ld ← σ.loading e
  if ld.stacked then none
  else match ← mapStack L σ.sys e ld.sz memOk c with
    | (none,sys) => Images.destroy L {σ with sys := sys} e c
    | (some sz,sys) => some (σ.setLoading e sys (some ⟨sz,true⟩))

def Images.copyArg (σ : Images) (e va : ℕ) (buf : List UInt8) (c : Fin ncpu) : Option Images := do
  let _ ← σ.loading e
  let sp ← σ.sys.space e
  let r ← copyout L c σ.sys.uvm none sp.pgdir va buf
  let σ:={ σ with sys := {σ.sys with uvm := r.2} }
  if r.1.1 then some σ else σ.destroy L e c

def Images.commit (σ : Images) (q e : ℕ) (c : Fin ncpu) : Option Images := do
  let ld ← σ.loading e
  let pr ← σ.proc q
  if ¬ ld.stacked then none
  else
    let r ← execCommit L σ.sys pr e ld.sz c
    some ((σ.setLoading e r.2 none).setProc q r.2 (some r.1))

inductive ImageAction where
  | userinit (q a : ℕ) (memOk expandOk : Bool) (c : Fin ncpu)
  | fork (q child a : ℕ) (allocOk memOk : Bool) (c : Fin ncpu)
  | exit (q : ℕ) (c : Fin ncpu)
  | execCreate (e : ℕ) (memOk : Bool) (c : Fin ncpu)
  | execSegment (e : ℕ) (ph : Proghdr) (filesz : ℕ) (file : Reads) (memOk : Bool) (c : Fin ncpu)
  | execStack (e : ℕ) (memOk : Bool) (c : Fin ncpu)
  | execCopyout (e va : ℕ) (buf : List UInt8) (c : Fin ncpu)
  | execBad (e : ℕ) (c : Fin ncpu)
  | execCommit (q e : ℕ) (c : Fin ncpu)
  | sbrk (q : ℕ) (n : Int) (memOk : Bool) (c : Fin ncpu)
  | vmreserve (q : ℕ) (n : Int) (expandOk reserveOk : Bool)
  | fault (q va : ℕ) (protection write : Bool) (memOk : ℕ → Bool) (c : Fin ncpu)
  | store (q va : ℕ) (b : UInt8) (c : Fin ncpu)
  | copyout (q va : ℕ) (buf : List UInt8) (c : Fin ncpu)

/-- `proc_lifecycle.c:212-228`. -/
def userinit (σ : Images) (q a : ℕ) (memOk expandOk : Bool) (c : Fin ncpu) : Option Images := do
  match σ.proc q, σ.sys.space a with
  | none, none =>
    let o ← createExec L σ.sys a memOk c
    let sp ← o.2.space a
    let r ← allocuvmAs L o.2 a 0 pgsize expandOk c
    if r.1=0 then none
    else
      let s ← markPteu r.2.uvm sp.pgdir (uintSub r.1 pgsize) false
      some (σ.setProc q {r.2 with uvm := s} (some ⟨a,r.1,0,0⟩))
  | _, _ => none

/-- `proc_lifecycle.c:268-294`: the child gets the parent's sizes. -/
def fork (σ : Images) (q child a : ℕ) (allocOk memOk : Bool) (c : Fin ncpu) : Option Images := do
  let pr ← σ.proc q
  match σ.proc child, σ.sys.space pr.addrsp, σ.sys.space a with
  | none, some sp, none =>
    match ← dupCowExec L σ.sys sp a allocOk memOk c with
    | (.forked _,sys) => some (σ.setProc child sys (some {pr with addrsp := a}))
    | (_,sys) => some {σ with sys := sys}
  | _, _, _ => none

def imageStep (σ : Images) : ImageAction → Option Images
  | .userinit q a memOk expandOk c => userinit L σ q a memOk expandOk c
  | .fork q child a allocOk memOk c => fork L σ q child a allocOk memOk c
  | .exit q c => do
    let pr ← σ.proc q
    let sys ← addressSpaceDestroy L σ.sys pr.addrsp c
    some (σ.setProc q sys none)
  | .execCreate e memOk c => do
    match σ.sys.space e with
    | some _ => none
    | none =>
      match ← createExec L σ.sys e memOk c with
      | (.ok,sys) => some (σ.setLoading e sys (some ⟨0,false⟩))
      | (_,sys) => some {σ with sys := sys}
  | .execSegment e ph filesz file memOk c => σ.segment L e ph filesz file memOk c
  | .execStack e memOk c => σ.stack L e memOk c
  | .execCopyout e va buf c => σ.copyArg L e va buf c
  | .execBad e c => do
    let _ ← σ.loading e
    σ.destroy L e c
  | .execCommit q e c => σ.commit L q e c
  | .sbrk q n memOk c => (sysSbrk L σ q n memOk c).map (·.2)
  | .vmreserve q n expandOk reserveOk => (sysVmreserve σ q n expandOk reserveOk).map (·.2)
  | .fault q va protection write memOk c =>
    (vmHandleFault L σ q va protection write memOk c).map (·.2)
  | .store q va b c => do
    let pr ← σ.proc q
    let sp ← σ.sys.space pr.addrsp
    let r ← userStore L c σ.sys.uvm sp.pgdir va b
    some { σ with sys := {σ.sys with uvm := r.2} }
  | .copyout q va buf c => do
    let pr ← σ.proc q
    let sp ← σ.sys.space pr.addrsp
    let r ← copyout L c σ.sys.uvm (some sp.vma) sp.pgdir va buf
    some { σ with sys := {σ.sys with uvm := r.2} }

end

def Images.start (m : Mem.State) : Images := ⟨(Paired.start m).sys,fun _ => none,fun _ => none⟩

end Auxv6.Vm
