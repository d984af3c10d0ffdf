import Auxv6.Lib.ByteMemory
import Auxv6.Vm.ProcImage

/-!
# The user heap (libc/umalloc.c, libc/calloc.c)

The heap is a byte memory, the static pointer `freep` and the size of the process, which is
what `sbrk` moves. A `Header` is two words, the link and the size in units of 8 bytes; `base` is the
address of the static header. The memory is total: that the functions stay inside what
`sbrk` has given them is a theorem, not a check.
-/

namespace Auxv6.Libc
open Machine Lib.ByteMemory Function

structure Heap where
  mem : Bytes
  freep : ℕ
  brk : ℕ

/-- `sizeof(Header)`. -/
def unit : ℕ := 8
def morecoreMinHeaders : ℕ := 4096/unit
def headerAdd (p n : ℕ) : ℕ := (p+unit*n)%wordMod

namespace Heap

def ptr (h : Heap) (p : ℕ) : ℕ := load32 h.mem p
def size (h : Heap) (p : ℕ) : ℕ := load32 h.mem (p+4)
def setPtr (h : Heap) (p v : ℕ) : Heap := {h with mem := store32 h.mem p v}
def setSize (h : Heap) (p v : ℕ) : Heap := {h with mem := store32 h.mem (p+4) v}

end Heap

/-! ### sbrk -/

/-- The value of `allocuvm_internal` and of `deallocuvm_internal`; `ok` says whether there is
memory for the pages. -/
def allocSize (oldsz newsz : ℕ) (ok : Bool) : ℕ :=
  if kernbase≤newsz then 0 else if newsz<oldsz then oldsz else if ok then newsz else 0

def deallocSize (oldsz newsz : ℕ) : ℕ := if oldsz≤newsz then oldsz else newsz

/-- `sys_sbrk` (`sysproc.c:798-810`, `proc.c:426-455`) as far as the size of the process goes. -/
def sbrk (sz : ℕ) (n : ℤ) (ok : Bool) : ℤ × ℕ :=
  let new:=Vm.uintAddInt sz n
  if 0<n then
    if allocSize sz new ok=0 then (-1,sz) else (uintToInt sz,allocSize sz new ok)
  else if n<0 then
    if deallocSize sz new=0 then (-1,sz) else (uintToInt sz,deallocSize sz new)
  else (uintToInt sz,sz)

/-! ### free -/

def loopFuel : ℕ := 2^31

/-- The loop of `free` (`umalloc.c:35-37`). -/
def freeLoop (h : Heap) (bp : ℕ) : ℕ → ℕ → Option ℕ
  | 0, _ => none
  | fuel+1, p =>
    if p<bp ∧ bp<h.ptr p then some p
    else if h.ptr p≤p ∧ (p<bp ∨ bp<h.ptr p) then some p
    else freeLoop h bp fuel (h.ptr p)

/-- `umalloc.c:38-42`: the block joins its right neighbour, or is linked to it. -/
def linkRight (h : Heap) (bp p : ℕ) : Heap :=
  if headerAdd bp (h.size bp)=h.ptr p then
    let h':=h.setSize bp (uintAdd (h.size bp) (h.size (h.ptr p)))
    h'.setPtr bp (h'.ptr (h'.ptr p))
  else h.setPtr bp (h.ptr p)

/-- `umalloc.c:43-47`: the left neighbour takes the block in, or is linked to it. -/
def linkLeft (h : Heap) (bp p : ℕ) : Heap :=
  if headerAdd p (h.size p)=bp then
    let h':=h.setSize p (uintAdd (h.size p) (h.size bp))
    h'.setPtr p (h'.ptr bp)
  else h.setPtr p bp

/-- `umalloc.c:26-49`. -/
def free (h : Heap) (ap : ℕ) : Option Heap := do
  if ap=0 then some h
  else
    let bp:=uintSub ap unit
    let p ← freeLoop h bp loopFuel h.freep
    some {linkLeft (linkRight h bp p) bp p with freep := p}

/-! ### malloc -/

/-- `umalloc.c:51-66`: `freep`, none for the null pointer. -/
def morecore (h : Heap) (nu : ℕ) (ok : Bool) : Option (Option ℕ × Heap) := do
  let nu:=if nu < morecoreMinHeaders then morecoreMinHeaders else nu
  let r:=sbrk h.brk (uintToInt (nu*unit%wordMod)) ok
  let h:={h with brk := r.2}
  if r.1 = -1 then some (none,h)
  else
    let hp:=(r.1%wordMod).toNat
    let h ← free (h.setSize hp nu) (headerAdd hp 1)
    some (some h.freep,h)

/-- The block `p` gives `nunits` units (`umalloc.c:81-91`): the exact block is unlinked, a
larger one is cut at its tail. -/
def takeBlock (h : Heap) (nunits prevp p : ℕ) : ℕ × Heap :=
  if h.size p=nunits then
    (headerAdd p 1,{h.setPtr prevp (h.ptr p) with freep := prevp})
  else
    let h:=h.setSize p (h.size p-nunits)
    let p:=headerAdd p (h.size p)
    (headerAdd p 1,{h.setSize p nunits with freep := prevp})

/-- The loop of `malloc` (`umalloc.c:80-95`). `sbrkOk` answers the calls of `sbrk`. -/
def mallocLoop (nunits : ℕ) (sbrkOk : ℕ → Bool) : ℕ → ℕ → ℕ → Heap → Option (ℕ × Heap)
  | 0, _, _, _ => none
  | fuel+1, prevp, p, h =>
    if nunits≤h.size p then some (takeBlock h nunits prevp p)
    else if p=h.freep then do
      match ← morecore h nunits (sbrkOk fuel) with
      | (none,h) => some (0,h)
      | (some q,h) => mallocLoop nunits sbrkOk fuel q (h.ptr q) h
    else mallocLoop nunits sbrkOk fuel p (h.ptr p) h

/-- The number of units for `nbytes` and a header (`umalloc.c:75`). -/
def unitsFor (nbytes : ℕ) : ℕ := uintSub (uintAdd nbytes unit) 1/unit+1

/-- `umalloc.c:76-79`: the first call makes the list of `base` alone. -/
def initList (base : ℕ) (h : Heap) : Heap :=
  if h.freep=0 then {(h.setPtr base base).setSize base 0 with freep := base} else h

section

variable (base : ℕ)

/-- `umalloc.c:68-95`; 0 is the null pointer. -/
def malloc (h : Heap) (nbytes : ℕ) (sbrkOk : ℕ → Bool) : Option (ℕ × Heap) :=
  let h:=initList base h
  mallocLoop (unitsFor nbytes) sbrkOk loopFuel h.freep (h.ptr h.freep) h

/-- `memmove` and `memset` of `ulib.c`, byte by byte. -/
def memmove (m : Bytes) (dst src : ℕ) : ℕ → Bytes
  | 0 => m
  | n+1 => memmove (update m dst (m src)) (uintAdd dst 1) (uintAdd src 1) n

def memset (m : Bytes) (dst : ℕ) (v : UInt8) : ℕ → Bytes
  | 0 => m
  | n+1 => memset (update m dst v) (uintAdd dst 1) v n

/-- `umalloc.c:98-118`. -/
def realloc (h : Heap) (ap nbytes : ℕ) (sbrkOk : ℕ → Bool) : Option (ℕ × Heap) := do
  if ap=0 then malloc base h nbytes sbrkOk
  else if nbytes=0 then
    let h ← free h ap
    some (0,h)
  else
    let bp:=uintSub ap unit
    let oldbytes:=uintSub (h.size bp) 1*unit%wordMod
    let r ← malloc base h nbytes sbrkOk
    if r.1=0 then some (0,r.2)
    else
      let h:={r.2 with mem := memmove r.2.mem r.1 ap (if oldbytes<nbytes then oldbytes else nbytes)}
      let h ← free h ap
      some (r.1,h)

def callocTotal (nmemb size : ℕ) : Option ℕ :=
  if nmemb=0 ∨ size=0 then some 0
  else if 0xffffffff/size<nmemb then none
  else some (nmemb*size%wordMod)

/-- `calloc.c:4-23`. -/
def calloc (h : Heap) (nmemb size : ℕ) (sbrkOk : ℕ → Bool) : Option (ℕ × Heap) := do
  match callocTotal nmemb size with
  | none => some (0,h)
  | some total =>
    let r ← malloc base h total sbrkOk
    if r.1=0 then some (0,r.2)
    else some (r.1,{r.2 with mem := memset r.2.mem r.1 0 total})

/-! ### A program that uses the heap -/

structure Program where
  heap : Heap
  live : List (ℕ × ℕ)

inductive HeapAction where
  | malloc (nbytes : ℕ) (sbrkOk : ℕ → Bool)
  | calloc (nmemb size : ℕ) (sbrkOk : ℕ → Bool)
  | realloc (ap nbytes : ℕ) (sbrkOk : ℕ → Bool)
  | free (ap : ℕ)
  | store (a : ℕ) (b : UInt8)

def Program.hold (live : List (ℕ × ℕ)) (ap nbytes : ℕ) : List (ℕ × ℕ) := if ap=0 then live else (ap,nbytes)::live
def Program.drop (live : List (ℕ × ℕ)) (ap : ℕ) : List (ℕ × ℕ) := live.filter fun x => x.1≠ap

def heapStep (σ : Program) : HeapAction → Option Program
  | .malloc nbytes sbrkOk => do
    let r ← malloc base σ.heap nbytes sbrkOk
    some ⟨r.2,Program.hold σ.live r.1 nbytes⟩
  | .calloc nmemb size sbrkOk => do
    let r ← calloc base σ.heap nmemb size sbrkOk
    some ⟨r.2,Program.hold σ.live r.1 (nmemb*size)⟩
  | .realloc ap nbytes sbrkOk => do
    if ap≠0 ∧ ap ∉ σ.live.map (·.1) then none
    else
      let r ← realloc base σ.heap ap nbytes sbrkOk
      let live:=if nbytes=0 ∨ r.1≠0 then Program.drop σ.live ap else σ.live
      some ⟨r.2,Program.hold live r.1 nbytes⟩
  | .free ap => do
    if ap≠0 ∧ ap ∉ σ.live.map (·.1) then none
    else
      let h ← free σ.heap ap
      some ⟨h,Program.drop σ.live ap⟩
  | .store a b =>
    if ∃ x ∈ σ.live,x.1≤a ∧ a<x.1+x.2 then
      some ⟨{σ.heap with mem := update σ.heap.mem a b},σ.live⟩
    else none

end

def Program.start (mem : Bytes) (brk : ℕ) : Program := ⟨⟨mem,0,brk⟩,[]⟩

end Auxv6.Libc
