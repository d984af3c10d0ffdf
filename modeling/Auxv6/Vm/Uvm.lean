import Auxv6.Mem.Kalloc
import Auxv6.Vm.Vma

/-!
# User page tables and copy-on-write (core/vm.c, vm/fault.c, vm/vma.c)

A page of memory is named by its frame number. The words of the page directories and page tables and
the bytes of the user pages are kept apart; `IsTable` and `UvmInv` show that no frame is ever in two of
these roles. Only the user half of a page directory (`PDX < 512`) is modelled. A panic is `none`. The
MMU reads the current entries: every function that restricts a mapping is followed by a reload of CR3.
-/

namespace Auxv6.Vm
open Machine Function Mem

structure Pte where
  pa : ℕ
  p : Bool
  w : Bool
  u : Bool
  cow : Bool
  deriving DecidableEq, Repr

def Pte.zero : Pte := ⟨0,false,false,false,false⟩

structure Uvm where
  mem : State
  dir : ℕ → ℕ → Option ℕ
  tab : ℕ → ℕ → Pte
  page : ℕ → ℕ → UInt8

namespace Uvm

def pte (s : Uvm) (l : ℕ × ℕ) : Pte := s.tab l.1 l.2
def setPte (s : Uvm) (l : ℕ × ℕ) (e : Pte) : Uvm := {s with tab := update s.tab l.1 (update (s.tab l.1) l.2 e)}
def setTab (s : Uvm) (f : ℕ) (es : ℕ → Pte) : Uvm := {s with tab := update s.tab f es}
def setPde (s : Uvm) (d k : ℕ) (o : Option ℕ) : Uvm := {s with dir := update s.dir d (update (s.dir d) k o)}
def setPage (s : Uvm) (f : ℕ) (bs : ℕ → UInt8) : Uvm := {s with page := update s.page f bs}

end Uvm

def npdentries : ℕ := 1024
def nptentries : ℕ := 1024
def userPdes : ℕ := 512
def pdx (va : ℕ) : ℕ := va/2^22%npdentries
def ptx (va : ℕ) : ℕ := va/2^12%nptentries

/-- `vm.c:484-497`; also the check of `walkpgdir` on a directory entry. -/
def paValid (f : ℕ) : Bool := decide (f≠0 ∧ f*pgsize<physTop ∧ f*pgsize<kernbase)

section

variable (L : Layout) (c : Fin ncpu)

namespace Uvm

def kalloc (s : Uvm) : Option (Option ℕ × Uvm) := (Mem.kalloc L s.mem c).map fun r => (r.1,{s with mem := r.2})
def kfree (s : Uvm) (f : ℕ) : Option Uvm := (Mem.kfree L s.mem c (p2v (f*pgsize))).map fun m => {s with mem := m}
def incref (s : Uvm) (f : ℕ) : Option Uvm := (kpageIncref s.mem f).map fun m => {s with mem := m}

end Uvm

/-! ### Walking and mapping -/

/-- `walkpgdir(pgdir, va, 0)` (`vm.c:407-455`) in the user half. -/
def walkpgdir (s : Uvm) (d va : ℕ) : Option (ℕ × ℕ) :=
  match s.dir d (pdx va) with
  | some f => if paValid f then some (f,ptx va) else none
  | none => none

abbrev Uvm.addTable (s : Uvm) (f d k : ℕ) : Uvm := (s.setTab f fun _ => Pte.zero).setPde d k (some f)

/-- `walkpgdir(pgdir, va, 1)`: an absent table is allocated and zeroed. -/
def walkpgdirAlloc (s : Uvm) (d va : ℕ) : Option (Option (ℕ × ℕ) × Uvm) :=
  match walkpgdir s d va with
  | some l => some (some l,s)
  | none => do
    -- an entry with an invalid address is cleared before the allocation
    let s:=s.setPde d (pdx va) none
    match ← s.kalloc L c with
    | (none,s) => some (none,s)
    | (some f,s) =>
      some (some (f,ptx va),s.addTable f d (pdx va))

/-- `pte_assert_sane` (`vm.c:457-463`). -/
def Pte.sane (e : Pte) : Bool := !(e.p && e.cow && e.w)

/-- `vm.c:465-474`. -/
def vmLookupPte (s : Uvm) (d va : ℕ) : Option (Option (ℕ × ℕ)) :=
  match walkpgdir s d (pgrounddown va) with
  | none => some none
  | some l => if (s.pte l).sane then some (some l) else none

/-- `vm.c:502-522` of one page: `e` is the entry `pa | perm`. -/
def mappages (s : Uvm) (d va : ℕ) (e : Pte) : Option (Bool × Uvm) := do
  match ← walkpgdirAlloc L c s d va with
  | (none,s) => some (false,s)
  | (some l,s) => if (s.pte l).p then none else some (true,s.setPte l {e with p := true})

abbrev Uvm.clearDir (s : Uvm) (d : ℕ) : Uvm := {s with dir := update s.dir d fun _ => none}

/-- `vm.c:559-595` once the kernel page table is published. -/
def setupkvm (s : Uvm) : Option (Option ℕ × Uvm) := do
  match ← s.kalloc L c with
  | (none,s) => some (none,s)
  | (some d,s) => some (some d,s.clearDir d)

/-- `vm.c:937-949`: 0 not present, 1 without `PTE_U`, 2 with it. -/
def userPageState (s : Uvm) (d va : ℕ) : Option ℕ :=
  match walkpgdir s d va with
  | none => some 0
  | some l =>
    if ¬ (s.pte l).p then some 0
    else if ¬ (s.pte l).sane then none
    else some (if (s.pte l).u then 2 else 1)

/-- `vm.c:626-653`. -/
def vmMapZerofillPage (s : Uvm) (d va : ℕ) (writable : Bool) : Option (Bool × Uvm) := do
  if va%pgsize≠0 ∨ kernbase≤va then some (false,s)
  else if (← userPageState s d va)≠0 then some (false,s)
  else match ← s.kalloc L c with
    | (none,s) => some (false,s)
    | (some f,s) =>
      match ← mappages L c (s.setPage f fun _ => 0) d va ⟨f,true,writable,true,false⟩ with
      | (true,s) => some (true,s)
      | (false,s) => (s.kfree L c f).map (false,·)

/-- `clearpteu` and `setpteu` (`vm.c:909-933`). -/
def markPteu (s : Uvm) (d va : ℕ) (enabled : Bool) : Option Uvm :=
  match walkpgdir s d va with
  | none => none
  | some l => if (s.pte l).sane then some (s.setPte l {s.pte l with u := enabled}) else none

/-! ### Releasing -/

/-- `vm.c:1036-1078`. -/
def uvmReleasePte (s : Uvm) (l : ℕ × ℕ) : Option (Int × Uvm) :=
  let e:=s.pte l
  if ¬ e.p then some (0,s)
  else if ¬ paValid e.pa ∨ ¬ Mem.kpageIsManaged s.mem e.pa then some (-2,s.setPte l Pte.zero)
  else (s.kfree L c e.pa).map fun s => (1,s.setPte l Pte.zero)

/-- The loop of `deallocuvm_internal` (`vm.c:784-800`); `fuel` bounds its turns. A missing
page table is skipped as a whole. -/
def deallocLoop (d oldsz : ℕ) : ℕ → ℕ → Uvm → Option Uvm
  | 0, _, s => some s
  | fuel+1, a, s =>
    if a<oldsz then
      match walkpgdir s d a with
      | none => deallocLoop d oldsz fuel ((pdx a+1)*2^22) s
      | some l => do
        let r ← uvmReleasePte L c s l
        deallocLoop d oldsz fuel (a+pgsize) r.2
    else some s

/-- `deallocuvm_internal` (`vm.c:754-807`) without its VMA part: the new size. Its callers
pass the size of a process or `KERNBASE` as `oldsz`. -/
def deallocuvm (s : Uvm) (d oldsz newsz : ℕ) : Option (ℕ × Uvm) :=
  if p2v (d*pgsize)<kernbase ∨ ¬ Mem.kaddrWritable L s.mem (p2v (d*pgsize)) then none
  else if oldsz≤newsz then some (oldsz,s)
  else (deallocLoop L c d oldsz (oldsz/pgsize+1) (pgroundup newsz) s).map (newsz,·)

/-- The loop of `freevm` over the page tables (`vm.c:889-903`), from entry `i` on. -/
def freeTables (d : ℕ) : ℕ → ℕ → Uvm → Option Uvm
  | 0, _, s => some s
  | n+1, i, s =>
    match s.dir d i with
    | none => freeTables d n (i+1) s
    | some f =>
      if ¬ paValid f then freeTables d n (i+1) (s.setPde d i none)
      else do
        let s ← s.kfree L c f
        freeTables d n (i+1) (s.setPde d i none)

/-- `vm.c:880-905`. -/
def freevm (s : Uvm) (d : ℕ) : Option Uvm := do
  let r ← deallocuvm L c s d kernbase 0
  let s ← freeTables L c d userPdes 0 r.2
  s.kfree L c d

/-! ### Growing -/

/-- The loop of `allocuvm_internal` (`vm.c:821-838`): on a failure the page not mapped
and the rest of the range are given back. -/
def allocLoop (d oldsz newsz : ℕ) : ℕ → ℕ → Uvm → Option (ℕ × Uvm)
  | 0, _, s => some (newsz,s)
  | fuel+1, a, s =>
    if a<newsz then do
      match ← s.kalloc L c with
      | (none,s) => (deallocuvm L c s d newsz oldsz).map fun r => (0,r.2)
      | (some f,s) =>
        match ← mappages L c (s.setPage f fun _ => 0) d a ⟨f,true,true,true,false⟩ with
        | (true,s) => allocLoop d oldsz newsz fuel (a+pgsize) s
        | (false,s) => do
          let r ← deallocuvm L c s d newsz oldsz
          (r.2.kfree L c f).map (0,·)
    else some (newsz,s)

/-- `allocuvm_internal` (`vm.c:809-840`) without its VMA part: the new size, 0 on error. -/
def allocuvm (s : Uvm) (d oldsz newsz : ℕ) : Option (ℕ × Uvm) :=
  if kernbase≤newsz then some (0,s)
  else if newsz<oldsz then some (oldsz,s)
  else allocLoop L c d oldsz newsz (newsz/pgsize+1) (pgroundup oldsz) s

/-! ### Copy on write -/

/-- `vm.c:1080-1096`. -/
def installCowMapping (s : Uvm) (f d va : ℕ) (flags : Pte) : Option (Bool × Uvm) := do
  if f=0 then some (false,s)
  else
    let s ← s.incref f
    match ← mappages L c s d va {flags with pa := f,cow := true,w := false} with
    | (true,s) => some (true,s)
    | (false,s) => (s.kfree L c f).map (false,·)

/-- One turn of the first loop of `copyuvm_internal` (`vm.c:1115-1147`). -/
def copyTurn (s : Uvm) (src d i : ℕ) : Option (Bool × Uvm) :=
  match walkpgdir s src i with
  | none => some (true,s)
  | some l =>
    let e:=s.pte l
    if ¬ e.p then some (true,s)
    else if ¬ e.sane then none
    else if e.u ∧ Mem.kpageIsManaged s.mem e.pa then
      if e.w then installCowMapping L c s e.pa d i e
      else do
        let s ← s.incref e.pa
        match ← mappages L c s d i e with
        | (true,s) => some (true,s)
        | (false,s) => (s.kfree L c e.pa).map (false,·)
    else do
      match ← s.kalloc L c with
      | (none,s) => some (false,s)
      | (some f,s) =>
        match ← mappages L c (s.setPage f (s.page e.pa)) d i {e with pa := f} with
        | (true,s) => some (true,s)
        | (false,s) => (s.kfree L c f).map (false,·)

/-- The first loop, over the page addresses `i`: false on `goto bad`. -/
def copyLoop (src d : ℕ) : List ℕ → Uvm → Option (Bool × Uvm)
  | [], s => some (true,s)
  | i::rest, s => do
    match ← copyTurn L c s src d i with
    | (true,s) => copyLoop src d rest s
    | (false,s) => some (false,s)

def protectTurn (src : ℕ) (s : Uvm) (i : ℕ) : Uvm :=
  match walkpgdir s src i with
  | none => s
  | some l =>
    let e:=s.pte l
    if e.p ∧ e.u ∧ e.w ∧ kpageIsManaged s.mem e.pa then
      s.setPte l {e with w := false,cow := true}
    else s

def pagesBelow (sz : ℕ) : List ℕ := (List.range ((sz+(pgsize-1))/pgsize)).map (· * pgsize)

/-- `copyuvm_internal` (`vm.c:1100-1162`): the child's page directory, none on failure. -/
def copyuvm (s : Uvm) (src sz : ℕ) : Option (Option ℕ × Uvm) := do
  match ← setupkvm L c s with
  | (none,s) => some (none,s)
  | (some d,s) =>
    match ← copyLoop L c src d (pagesBelow sz) s with
    | (false,s) => (freevm L c s d).map (none,·)
    | (true,s) => some (some d,(pagesBelow sz).foldl (protectTurn src) s)

/-- `fault.c:18-55`. -/
def cowFault (s : Uvm) (d va : ℕ) : Option (Bool × Uvm) := do
  match ← vmLookupPte s d va with
  | none => some (false,s)
  | some l =>
    let e:=s.pte l
    if ¬ e.p ∨ ¬ e.cow ∨ e.pa=0 then some (false,s)
    else if 1<Mem.kpageRefcount s.mem e.pa then
      match ← s.kalloc L c with
      | (none,s) => some (false,s)
      | (some f,s) =>
        let r ← uvmReleasePte L c (s.setPage f (s.page e.pa)) l
        if r.1<0 then (r.2.kfree L c f).map (false,·)
        else some (true,r.2.setPte l {e with pa := f,cow := false,w := true,p := true})
    else some (true,s.setPte l {e with w := true,cow := false})

/-! ### Stores -/

def writeByte (s : Uvm) (f off : ℕ) (b : UInt8) : Uvm := s.setPage f (update (s.page f) off b)
def Pte.userWritable (e : Pte) : Bool := e.p && e.u && e.w

/-- A user store: on a write-protection fault `vm_handle_fault` calls `cow_fault` and the
instruction is tried again. False is a fault that ends in a signal. -/
def userStore (s : Uvm) (d va : ℕ) (b : UInt8) : Option (Bool × Uvm) :=
  if kernbase≤va then some (false,s)
  else match walkpgdir s d va with
    | none => some (false,s)
    | some l =>
      if (s.pte l).userWritable then some (true,writeByte s (s.pte l).pa (va%pgsize) b)
      else if ¬ (s.pte l).p then some (false,s)
      else do
        match ← cowFault L c s d va with
        | (false,s) => some (false,s)
        | (true,s) =>
          match walkpgdir s d va with
          | none => some (false,s)
          | some l =>
            if (s.pte l).userWritable then some (true,writeByte s (s.pte l).pa (va%pgsize) b)
            else some (false,s)

def userLoad (s : Uvm) (d va : ℕ) : Option UInt8 :=
  match walkpgdir s d va with
  | none => none
  | some l =>
    if (s.pte l).p ∧ (s.pte l).u then some (s.page (s.pte l).pa (va%pgsize)) else none

/-- `vm.c:130-158`; `cur` is the address space of the
running process if the page directory is its own. -/
def vmAddrspaceAllowsUserVa (cur : Option AddressSpace) (va : ℕ) : Bool :=
  match cur with
  | none => true
  | some as =>
    if as.vmaCount=0 then as.transitional && decide (0<as.vmSize) && decide (va<as.vmSize)
    else (vmaFind as va).isSome

/-- `vm.c:1196-1220`. -/
def copyoutResolveZerofill (s : Uvm) (cur : Option AddressSpace) (d va0 : ℕ) : Option (Bool × Uvm) :=
  match cur.bind fun as => vmaFind as va0 with
  | none => some (false,s)
  | some vma =>
    if vma.flags &&& vmaZerofill=0 ∨ vma.flags &&& vmaWrite=0 ∨ vma.inode≠0 then
      some (false,s)
    else vmMapZerofillPage L c s d va0 true

/-- A page that is not present is mapped on demand (`vm.c:1238-1245`). -/
def copyoutPresent (s : Uvm) (cur : Option AddressSpace) (d va0 : ℕ) : Option (Bool × Uvm) :=
  match walkpgdir s d va0 with
  | none => copyoutResolveZerofill L c s cur d va0
  | some l => if (s.pte l).p then some (true,s) else copyoutResolveZerofill L c s cur d va0

/-- The part of a turn of `copyout` before the copy (`vm.c:1235-1268`): the frame to write
to, none where the source returns -1. A kernel page has no `PTE_U`. -/
def copyoutFrame (s : Uvm) (cur : Option AddressSpace) (d va0 : ℕ) : Option (Option ℕ × Uvm) := do
  if ¬ vmAddrspaceAllowsUserVa cur va0 ∨ kernbase≤va0 then some (none,s)
  else
    match ← copyoutPresent L c s cur d va0 with
    | (false,s) => some (none,s)
    | (true,s) =>
      match walkpgdir s d va0 with
      | none => some (none,s)
      | some l =>
        if ¬ (s.pte l).p then some (none,s)
        else if ¬ (s.pte l).sane then none
        else if ¬ (s.pte l).u ∨ ¬ paValid (s.pte l).pa then some (none,s)
        else if (s.pte l).w then some (some (s.pte l).pa,s)
        else if ¬ (s.pte l).cow then some (none,s)
        else
          match ← cowFault L c s d va0 with
          | (false,s) => some (none,s)
          | (true,s) =>
            match walkpgdir s d va0 with
            | none => some (none,s)
            | some l =>
              if ¬ (s.pte l).p then some (none,s)
              else if ¬ (s.pte l).sane then none
              else if ¬ (s.pte l).u ∨ ¬ (s.pte l).w ∨ ¬ paValid (s.pte l).pa then some (none,s)
              else some (some (s.pte l).pa,s)

def writeBytes (s : Uvm) (f off : ℕ) (buf : List UInt8) : Uvm :=
  s.setPage f fun i => if off ≤ i then (buf[i-off]?).getD (s.page f i) else s.page f i

/-- The loop of `copyout` (`vm.c:1225-1281`): whether it returns 0, and the number of
bytes it has copied. -/
def copyoutLoop (cur : Option AddressSpace) (d : ℕ) : ℕ → ℕ → List UInt8 → Uvm → Option ((Bool × ℕ) × Uvm)
  | 0, _, _, s => some ((true,0),s)
  | fuel+1, va, buf, s =>
    if buf=[] then some ((true,0),s)
    else do
      let va0:=pgrounddown va
      match ← copyoutFrame L c s cur d va0 with
      | (none,s) => some ((false,0),s)
      | (some f,s) =>
        let n:=min (pgsize-(va-va0)) buf.length
        let s:=writeBytes s f (va-va0) (buf.take n)
        let r ← copyoutLoop cur d fuel ((va0+pgsize)%wordMod) (buf.drop n) s
        some ((r.1.1,n+r.1.2),r.2)

def copyout (s : Uvm) (cur : Option AddressSpace) (d va : ℕ) (buf : List UInt8) : Option ((Bool × ℕ) × Uvm) :=
  copyoutLoop L c cur d (buf.length+1) va buf s

end

end Auxv6.Vm
