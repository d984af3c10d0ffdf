import Auxv6.Machine

/-!
# The physical page allocator (core/kalloc.c, core/pagedb.c)

A page is named by its frame number: `r` stands for the pointer `P2V(r * PGSIZE)`. The freelist is the list
of its frames from the head, and the stack `kfree_cache[0 .. kfree_cache_count)` of a CPU that of its frames
from the top. A panic is `none`. The statistics counters are left out.
-/

namespace Auxv6.Mem
open Machine Function

/-- What the linker script fixes: the start of the writable part of the kernel, the address of `kpage_meta` in
it, and the first address after the kernel, inside the window of the boot page table. -/
structure Layout where
  data : ℕ
  kpageMeta : ℕ
  endAddr : ℕ
  data_ge : kernbase+extmem≤data
  meta_ge : data≤kpageMeta
  meta_end : kpageMeta+8*npages≤endAddr
  end_le : endAddr≤kernbase+bootEarlyPhystop

structure KpageMeta where
  refcount : ℕ
  managed : Bool
  free : Bool

structure PageDescriptor where
  managed : Bool
  free : Bool
  reserved : Bool
  refcount : ℕ

/-- `kmem`, `kpage_meta`, the per-CPU caches and the page database. `kpgdir` says
whether `kvmalloc` has published the kernel page table. -/
structure State where
  kpgdir : Bool
  useLock : Bool
  freelist : List ℕ
  totalPages : ℕ
  freePages : ℕ
  cache : Fin ncpu → List ℕ
  kmeta : ℕ → KpageMeta
  pgReady : Bool
  pgArray : ℕ → PageDescriptor
  pageallocOnline : Bool

def State.reset : State :=
  ⟨false,false,[],0,0,fun _ => [],fun _ => ⟨0,false,false⟩,false, fun _ => ⟨false,false,false,0⟩,false⟩

def kallocCpuCache : ℕ := 32
def kallocPcpuLowWater : ℕ := 8
def kallocPcpuHighWater : ℕ := 28
def kallocPcpuRefillTrigger : ℕ := 4
def kallocRefillBatch : ℕ := 16
def kallocDrainBatch : ℕ := 16
def kallocGlobalReserve : ℕ := 256

/-! ### The page database -/

/-- A write to the descriptor `pgdesc_by_pa` finds (`pagedb.c:25-36`); without one
the callers return at once. -/
def pagedbUpdate (s : State) (pfn : ℕ) (f : PageDescriptor → PageDescriptor) : State :=
  if s.pgReady ∧ pfn<npages then
    {s with pgArray := update s.pgArray pfn (f (s.pgArray pfn))}
  else s

def pagedbMarkManagedPa (s : State) (pfn : ℕ) : State := pagedbUpdate s pfn fun d => {d with managed := true}
def pagedbSetRefcountPa (s : State) (pfn refs : ℕ) : State := pagedbUpdate s pfn fun d => {d with refcount := refs}
def pagedbMarkFreePa (s : State) (pfn : ℕ) : State := pagedbUpdate s pfn fun d => {d with free := true}
def pagedbMarkAllocatedPa (s : State) (pfn : ℕ) : State :=
  pagedbUpdate s pfn fun d => {d with free := false,managed := true}

/-- `pagedb.c:151-160`. -/
def pagedbRefcountPa (s : State) (pfn : ℕ) : ℕ := if s.pgReady ∧ pfn<npages then (s.pgArray pfn).refcount else 0

/-! ### Page metadata -/

def setMeta (s : State) (pfn : ℕ) (m : KpageMeta) : State := {s with kmeta := update s.kmeta pfn m}

/-- `kalloc.c:744-756`. -/
def kpageRefcount (s : State) (pfn : ℕ) : ℕ :=
  if s.pgReady then pagedbRefcountPa s pfn
  else if pfn<npages ∧ (s.kmeta pfn).managed then (s.kmeta pfn).refcount else 0

/-- `kalloc.c:758-767`. -/
def kpageIsManaged (s : State) (pfn : ℕ) : Bool := decide (pfn<npages) && (s.kmeta pfn).managed

/-- `kalloc.c:64-77`. -/
def kpageMarkManaged (s : State) (pfn : ℕ) : Option State :=
  if pfn<npages then
    let s:=setMeta s pfn ⟨1,true,false⟩
    let s:=pagedbMarkManagedPa s pfn
    let s:=pagedbMarkAllocatedPa s pfn
    some (pagedbSetRefcountPa s pfn 1)
  else none

/-- `kalloc.c:79-100`. -/
def kpageDropRef (s : State) (pfn : ℕ) : Option (ℕ × State) :=
  if ¬ kpageIsManaged s pfn then none
  else if s.pgReady then
    let refs:=pagedbRefcountPa s pfn
    if refs=0 then none else some (refs-1,pagedbSetRefcountPa s pfn (refs-1))
  else
    let m:=s.kmeta pfn
    if m.refcount=0 then none
    else some (m.refcount-1,setMeta s pfn {m with refcount := m.refcount-1})

/-- `kalloc.c:720-742`. The increment of the `uint` wraps. -/
def kpageIncref (s : State) (pfn : ℕ) : Option State :=
  if ¬ kpageIsManaged s pfn then none
  else if kpageRefcount s pfn=0 then none
  else
    let refs:=uintAdd (kpageRefcount s pfn) 1
    let s:=if s.pgReady then pagedbSetRefcountPa s pfn refs
      else setMeta s pfn {s.kmeta pfn with refcount := refs}
    some (setMeta s pfn {s.kmeta pfn with free := false})

/-! ### Validity of run pointers -/

/-- `kaddr_writable_current_pgdir` (`vm.c:951-987`). Every page directory shares the
kernel half, built from `kmap` (`vm.c:547-557`): I/O space, the kernel from `data`
to `PHYSTOP`, and the devices are writable. -/
def kaddrWritable (L : Layout) (s : State) (kva : ℕ) : Bool :=
  if kva<kernbase then false
  else if ¬ s.kpgdir then decide (kva<kernbase+bootEarlyPhystop)
  else decide (kva<kernbase+extmem ∨ (L.data≤kva ∧ kva<kernbase+physTop) ∨ (devspace≤kva ∧ kva<wordMod))

def metaAddr (L : Layout) (pfn : ℕ) : ℕ := L.kpageMeta+8*pfn

/-- `kalloc.c:21-33`. -/
def kallocRunptrValid (L : Layout) (r : ℕ) : Bool := decide (L.endAddr≤p2v (r*pgsize) ∧ r*pgsize<physTop)

/-- `kalloc.c:102-133`. -/
def kallocFreeRunValid (L : Layout) (s : State) (r : ℕ) : Bool :=
  kallocRunptrValid L r && kaddrWritable L s (metaAddr L r) && (s.kmeta r).managed &&
    (s.kmeta r).free && decide (kpageRefcount s r=0) && kaddrWritable L s (p2v (r*pgsize))

def checkedFreelist (L : Layout) : List ℕ → List ℕ
  | [] => []
  | r::rest => if kallocRunptrValid L r then r::rest else []

/-! ### Refill and drain -/

/-- The loop of `kalloc_cache_pop_valid` (`kalloc.c:163-171`). -/
def popValid (valid : ℕ → Bool) : List ℕ → Option ℕ × List ℕ
  | [] => (none,[])
  | r::rest => if valid r then (some r,rest) else popValid valid rest

def setCache (s : State) (c : Fin ncpu) (l : List ℕ) : State := {s with cache := update s.cache c l}

/-- `kalloc.c:158-174`. -/
def kallocCachePopValid (L : Layout) (s : State) (c : Fin ncpu) : Option ℕ × State :=
  let r:=popValid (kallocFreeRunValid L s) (s.cache c)
  (r.1,setCache s c r.2)

/-- `kalloc.c:176-194`. -/
def kallocPickRefillGoal (localCount : ℕ) : ℕ :=
  let goal:=if localCount<kallocPcpuLowWater then
      max kallocRefillBatch (kallocPcpuLowWater-localCount)
    else kallocRefillBatch
  max (min (max goal 1) (kallocCpuCache-localCount)) 1

/-- The loop of `kalloc_refill_local` that fills `batch` from the freelist
(`kalloc.c:219-244`): an invalid head empties the freelist, an invalid next pointer
ends it at the page taken. -/
def takeBatch (valid runptr : ℕ → Bool) : ℕ → List ℕ → List ℕ × List ℕ
  | 0, fl => ([],fl)
  | _ + 1, [] => ([],[])
  | n+1, r::rest =>
    if ¬ valid r then ([],[])
    else match rest with
      | [] => ([r],[])
      | next :: _ =>
        if ¬ runptr next then ([r],[])
        else
          let t:=takeBatch valid runptr n rest
          (r::t.1,t.2)

/-- `kalloc.c:196-257`: the number of pages moved. The batch is
pushed last page first, so its first page ends on top. -/
def kallocRefillLocal (L : Layout) (s : State) (c : Fin ncpu) : ℕ × State :=
  if kallocPcpuLowWater≤(s.cache c).length then (0,s)
  else
    let goal:=kallocPickRefillGoal (s.cache c).length
    let canTake:=max (uintToInt s.freePages-kallocGlobalReserve) 1
    let goal:=min goal canTake.toNat
    let t:=takeBatch (kallocFreeRunValid L s) (kallocRunptrValid L) goal s.freelist
    (t.1.length,setCache {s with freelist := t.2} c (t.1++s.cache c))

/-- The loop of `kalloc_drain_local` (`kalloc.c:281-288`). -/
def drainLoop (valid : ℕ → Bool) : ℕ → List ℕ → List ℕ → List ℕ × List ℕ
  | 0, cache, fl => (cache,fl)
  | n+1, cache, fl =>
    match popValid valid cache with
    | (none,cache) => (cache,fl)
    | (some p,cache) => drainLoop valid n cache (p::fl)

/-- `kalloc.c:259-292`. -/
def kallocDrainLocal (L : Layout) (s : State) (c : Fin ncpu) : State :=
  if (s.cache c).length<kallocPcpuHighWater then s
  else
    let drain:=min ((s.cache c).length-kallocPcpuLowWater) kallocDrainBatch
    if drain<1 then s
    else
      let t:=drainLoop (kallocFreeRunValid L s) drain (s.cache c) (checkedFreelist L s.freelist)
      setCache {s with freelist := t.2} c t.1

/-! ### kfree -/

/-- The emergency fallback of `kfree` (`kalloc.c:413-430`). -/
def kfreeEmergency (L : Layout) (s : State) (c : Fin ncpu) : State :=
  if kallocCpuCache≤(s.cache c).length then
    let fl:=checkedFreelist L s.freelist
    match kallocCachePopValid L s c with
    | (some p,s') => {s' with freelist := p::fl}
    | (none,s') => {s' with freelist := fl}
  else s

/-- The end of `kfree`: the page joins the freelist during boot, the cache of the
CPU later (`kalloc.c:392-437`). -/
def kfreeInsert (L : Layout) (s : State) (c : Fin ncpu) (r : ℕ) : Option State :=
  if ¬ kallocRunptrValid L r then none
  else if ¬ s.useLock then
    some {s with freelist := r::checkedFreelist L s.freelist,freePages := uintAdd s.freePages 1}
  else
    let s:=kfreeEmergency L (kallocDrainLocal L s c) c
    if kallocCpuCache≤(s.cache c).length then none
    else
      let s:=setCache s c (r::s.cache c)
      some {s with freePages := uintAdd s.freePages 1}

/-- `kalloc.c:331-437` of the kernel address `v`. -/
def kfree (L : Layout) (s : State) (c : Fin ncpu) (v : ℕ) : Option State :=
  if v%pgsize≠0 ∨ v<L.endAddr ∨ kernbase+physTop≤v then none
  else
    let r:=(v-kernbase)/pgsize
    if ¬ kaddrWritable L s (metaAddr L r) ∨ ¬ (s.kmeta r).managed then none
    else if kpageRefcount s r=0 then
      -- a duplicate free is ignored
      if (s.kmeta r).free then some s else none
    else match kpageDropRef s r with
      | none => none
      | some (refs,s) =>
        if 0<refs then some s
        else
          let s:=setMeta s r {s.kmeta r with free := true}
          kfreeInsert L (pagedbMarkFreePa s r) c r

/-! ### Allocation -/

/-- The marks an allocated page gets, the same in all four places that hand one out
(`kalloc.c:460-469, 486-495, 509-518, 648-656`). -/
def markAllocated (s : State) (r : ℕ) : State :=
  let m:=s.kmeta r
  let s:=setMeta s r { m with
    free := false,refcount := if s.pgReady then m.refcount else 1 }
  pagedbSetRefcountPa (pagedbMarkAllocatedPa s r) r 1

def kallocHandOut (L : Layout) (s : State) (r : ℕ) : Option (Option ℕ × State) :=
  if ¬ kaddrWritable L s (metaAddr L r) ∨ ¬ (s.kmeta r).managed then none
  else some (some r,markAllocated {s with freePages := uintSub s.freePages 1} r)

/-- `kalloc.c:442-525`. -/
def kallocLegacyPage (L : Layout) (s : State) (c : Fin ncpu) : Option (Option ℕ × State) :=
  if ¬ s.useLock then
    match s.freelist with
    | [] => some (none,s)
    | r::rest =>
      if ¬ kallocFreeRunValid L s r then none
      else if ¬ kaddrWritable L s (metaAddr L r) ∨ ¬ (s.kmeta r).managed then none
      else some (some r,markAllocated {s with freelist := rest,freePages := s.freePages-1} r)
  else
    let s:=if (s.cache c).length≤kallocPcpuRefillTrigger then (kallocRefillLocal L s c).2 else s
    match kallocCachePopValid L s c with
    | (some r,s) => kallocHandOut L s r
    | (none,s) =>
      let t:=kallocRefillLocal L s c
      if 0<t.1 ∧ 0<(t.2.cache c).length then
        match kallocCachePopValid L t.2 c with
        | (none,s) => some (none,s)
        | (some r,s) => kallocHandOut L s r
      else some (none,t.2)

/-- `kalloc.c:527-542`, through `alloc_single_page` (`buddy.c:80-111`) once
the page allocator is online: the descriptor of the page has to exist. -/
def kalloc (L : Layout) (s : State) (c : Fin ncpu) : Option (Option ℕ × State) :=
  match kallocLegacyPage L s c with
  | none => none
  | some (none,s') => some (none,s')
  | some (some r,s') =>
    if s.pageallocOnline ∧ ¬ (s'.pgReady ∧ r<npages) then some (none,s') else some (some r,s')

def scanNext (runptr : ℕ → Bool) : List ℕ → List ℕ
  | [] => []
  | next::rest => if runptr next then next::rest else []
def joinRun (before run : List ℕ) (r : ℕ) : List ℕ × List ℕ :=
  match run.getLast? with
  | none => (before,[r])
  | some last => if r+1=last then (before,run++[r]) else (before++run,[r])

/-- The scan of `kalloc_contiguous` (`kalloc.c:576-632`). The freelist is
`before ++ run ++ fl`: `run` is the run that ends at the page scanned last,
`run_prev` the last page of `before`. -/
def contigScan (valid runptr isFree : ℕ → Bool) (npg : ℕ) : List ℕ → List ℕ → List ℕ → List ℕ × List ℕ × List ℕ
  | before, run, [] => (before,run,[])
  | before, run, r::rest =>
    if ¬ valid r then (before,run,[])
    else if isFree r then
      let t:=joinRun before run r
      if t.2.length=npg ∨ scanNext runptr rest=[] then (t.1,t.2,scanNext runptr rest)
      else contigScan valid runptr isFree npg t.1 t.2 rest
    else if scanNext runptr rest=[] then (before++run++[r],[],[])
    else contigScan valid runptr isFree npg (before++run++[r]) [] rest

def contigParts (L : Layout) (s : State) (npg : ℕ) : List ℕ × List ℕ × List ℕ :=
  contigScan (kallocFreeRunValid L s) (kallocRunptrValid L)
    (fun r => (s.kmeta r).managed && (s.kmeta r).free) npg [] [] s.freelist

/-- `kalloc.c:544-670`: the lowest frame of the run, which is the
page scanned last. -/
def kallocContiguous (L : Layout) (s : State) (c : Fin ncpu) (npg : ℕ) : Option (Option ℕ × State) :=
  if npg=0 then some (none,s)
  else if npg=1 then kallocLegacyPage L s c
  else if ¬ s.useLock then some (none,s)
  else
    let t:=contigParts L s npg
    if t.2.1.length≠npg then some (none,{s with freelist := t.1++t.2.1++t.2.2})
    else if ¬ t.2.1.all (fun r => (s.kmeta r).managed) then none
    else
      let s:=t.2.1.foldl markAllocated {s with freelist := t.1++t.2.2}
      some (t.2.1.getLast?,{s with freePages := if npg ≤ s.freePages then s.freePages-npg else 0})

/-! ### Boot -/

/-- `kalloc.c:315-325` over the frames `first .. first + n - 1`. -/
def freerange (L : Layout) (c : Fin ncpu) : ℕ → ℕ → State → Option State
  | _, 0, s => some s
  | first, n+1, s => do
    let s ← kpageMarkManaged s first
    let s ← kfree L {s with totalPages:=s.totalPages+1} c (p2v (first*pgsize))
    freerange L c (first+1) n s

def Layout.firstFrame (L : Layout) : ℕ := (L.endAddr-kernbase+(pgsize-1))/pgsize
def earlyFrames : ℕ := bootEarlyPhystop/pgsize

/-- `kinit1(end, P2V(BOOT_EARLY_PHYSTOP))` (`kalloc.c:299-306`, `main.c:20`). -/
def kinit1 (L : Layout) (c : Fin ncpu) (s : State) : Option State :=
  freerange L c L.firstFrame (earlyFrames-L.firstFrame) {s with useLock := false}

/-- `kinit2(P2V(BOOT_EARLY_PHYSTOP), P2V(PHYSTOP))` (`kalloc.c:308-313`, `main.c:62`). -/
def kinit2 (L : Layout) (c : Fin ncpu) (s : State) : Option State :=
  (freerange L c earlyFrames (npages-earlyFrames) s).map fun s => {s with useLock := true}

def pgNpages : ℕ := (npages*12+pgsize-1)/pgsize

/-- The descriptors `pagedb_init` fills in (`pagedb.c:55-77`): the pages of the array
itself, from frame `base`, are reserved; the rest copies `kpage_meta`. -/
def pagedbDesc (s : State) (base i : ℕ) : PageDescriptor :=
  let reserved:=decide (base ≤ i ∧ i<base+pgNpages)
  if kpageIsManaged s i then
    ⟨true,decide (kpageRefcount s i=0),reserved,kpageRefcount s i⟩
  else ⟨false,false,reserved,0⟩

/-- `pagedb.c:38-81`. -/
def pagedbInit (L : Layout) (c : Fin ncpu) (s : State) : Option State :=
  if s.pgReady then some s
  else match kallocContiguous L s c pgNpages with
    | none => none
    | some (none,_) => none
    | some (some base,s) => some {s with pgArray := pagedbDesc s base,pgReady := true}

end Auxv6.Mem
