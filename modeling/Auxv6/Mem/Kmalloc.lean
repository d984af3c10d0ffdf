import Auxv6.Lib.ByteMemory
import Auxv6.Mem.Contiguous

/-!
# The kernel heap (core/kmalloc.c)

`kmalloc` reserves whole pages and keeps a header of three words in front of the
buffer. `bytes` is the memory behind the kernel addresses; the links which the page
allocator keeps in free pages are no part of it. A panic is `none`.
-/

namespace Auxv6.Mem
open Machine Lib.ByteMemory List Option Nat

structure Heap where
  mem : State
  bytes : Bytes

def kmallocMagic : ℕ := 0x4B4D414C
def hdrSize : ℕ := 12

/-- The page count of a request (`kmalloc.c:36-37`), in words that wrap. -/
def kmallocPages (size : ℕ) : ℕ := uintSub (uintAdd (uintAdd hdrSize size) pgsize) 1/pgsize

def zeroBytes (m : Bytes) (a n : ℕ) : Bytes := fun x => if a≤x ∧ x<a+n then 0 else m x
def copyBytes (m : Bytes) (dst src n : ℕ) : Bytes := fun x =>
  if dst≤x ∧ x<dst+n then m (src+(x-dst)) else m x

/-- The page span of `kmalloc` (`kmalloc.c:39-42`). `kalloc_contiguous` clears it,
`kalloc` does not. -/
def reserveSpan (L : Layout) (s : Heap) (c : Fin ncpu) (npg : ℕ) : Option (Option ℕ × Heap) :=
  if npg=1 then (kalloc L s.mem c).map fun t => (t.1,{s with mem := t.2})
  else (kallocContiguous L s.mem c npg).map fun t =>
    (t.1,match t.1 with
      | none => {s with mem := t.2}
      | some r => ⟨t.2,zeroBytes s.bytes (p2v (r*pgsize)) (npg*pgsize)⟩)

def writeHdr (m : Bytes) (h npg size : ℕ) : Bytes := store32 (store32 (store32 m h kmallocMagic) (h+4) npg) (h+8) size

/-- The checks on the span and its header (`kmalloc.c:44-66`). -/
def openSpan (L : Layout) (npg size : ℕ) : Option ℕ × Heap → Option (Option ℕ × Heap)
  | (none,s) => some (none,s)
  | (some r,s) =>
    if ¬ kaddrWritable L s.mem (p2v (r*pgsize)) then none
    else if 1<npg ∧ ¬ kaddrWritable L s.mem (p2v (r*pgsize)+(npg-1)*pgsize) then none
    else some (some (p2v (r*pgsize)+hdrSize),{s with bytes := writeHdr s.bytes (p2v (r*pgsize)) npg size})

/-- `kmalloc.c:25-69`. -/
def kmalloc (L : Layout) (s : Heap) (c : Fin ncpu) (size : ℕ) : Option (Option ℕ × Heap) :=
  if size=0 then some (none,s)
  else (reserveSpan L s c (kmallocPages size)).bind (openSpan L (kmallocPages size) size)

/-- The loop of `kmalloc_free` (`kmalloc.c:113-114`). -/
def freeSpan (L : Layout) (c : Fin ncpu) : ℕ → ℕ → State → Option State
  | _, 0, m => some m
  | v, n+1, m => (kfree L m c v).bind (freeSpan L c (v+pgsize) n)

/-- `kmalloc.c:71-114`. -/
def kmallocFree (L : Layout) (s : Heap) (c : Fin ncpu) (ptr : ℕ) : Option Heap :=
  if ptr=0 then some s
  else
    let h:=uintSub ptr hdrSize
    -- a second free finds the magic cleared and is reported only
    if load32 s.bytes h≠kmallocMagic then some s
    else
      let npg:=load32 s.bytes (h+4)
      if npg=0 ∨ 128<npg then none
      else (freeSpan L c h npg s.mem).map fun m => ⟨m,store32 s.bytes h 0⟩

/-- The end of `kmalloc_realloc`, when the block has to move (`kmalloc.c:138-147`). -/
def moveBlock (L : Layout) (c : Fin ncpu) (ptr oldSize size : ℕ) : Option ℕ × Heap → Option (Option ℕ × Heap)
  | (none,s) => some (none,s)
  | (some newp,s) =>
    let copyN:=if oldSize<size then oldSize else size
    (kmallocFree L {s with bytes := copyBytes s.bytes newp ptr copyN} c ptr).map fun s => (some newp,s)

/-- `kmalloc.c:117-148`. -/
def kmallocRealloc (L : Layout) (s : Heap) (c : Fin ncpu) (ptr size : ℕ) : Option (Option ℕ × Heap) :=
  if ptr=0 then kmalloc L s c size
  else if size=0 then (kmallocFree L s c ptr).map fun s => (none,s)
  else if load32 s.bytes (uintSub ptr hdrSize)≠kmallocMagic then none
  else if size≤load32 s.bytes (uintSub ptr hdrSize+8) then some (some ptr,s)
  else (kmalloc L s c size).bind (moveBlock L c ptr (load32 s.bytes (uintSub ptr hdrSize+8)) size)

def RequestFits (size : ℕ) : Prop := hdrSize+size≤128*pgsize
  deriving Decidable

lemma kmallocPages_fits {size : ℕ} (hsize : size<wordMod) (hpos : 0<kmallocPages size) :
    hdrSize+size≤kmallocPages size*pgsize ∧ kmallocPages size≤128 ↔ RequestFits size := by
  simp only [kmallocPages,uintSub,uintAdd,RequestFits,hdrSize,pgsize,wordMod] at hsize hpos ⊢
  omega
lemma RequestFits.pages_pos {size : ℕ} (h : RequestFits size) : 0<kmallocPages size := by
  simp only [kmallocPages,uintSub,uintAdd,RequestFits,hdrSize,pgsize,wordMod] at h ⊢
  omega
lemma RequestFits.lt {size : ℕ} (h : RequestFits size) : size<wordMod := by
  simp only [RequestFits,hdrSize,pgsize,wordMod] at h ⊢
  omega
lemma kmallocPages_lt (size : ℕ) : kmallocPages size<wordMod :=
  lt_of_le_of_lt (div_le_self _ _) (mod_lt _ (by decide))

variable {L : Layout} {s : Heap} {c : Fin ncpu} {size x : ℕ} {run' run : List ℕ}

lemma reserveSpan_spec (h : Good L s.mem) (c : Fin ncpu) (npg : ℕ) :
    ∃ res s',reserveSpan L s c npg=some (res,s') ∧ Good L s'.mem ∧
      (res=none → Hands s.mem [] s'.mem ∧ s'.bytes=s.bytes) ∧
      ∀ r,res=some r → 0<npg ∧ Hands s.mem (range' r npg) s'.mem ∧
        ∀ x,¬ (p2v (r*pgsize)≤x ∧ x<p2v (r*pgsize)+npg*pgsize) → s'.bytes x=s.bytes x := by
  by_cases h1 : npg=1
  · obtain ⟨res,m,heq,hg,hh⟩:=kalloc_spec h c
    rw [reserveSpan,if_pos h1,heq,h1]
    refine ⟨res,_,rfl,hg,?_,?_⟩
    · rintro rfl
      exact ⟨hh,rfl⟩
    · rintro r rfl
      exact ⟨one_pos,hh,fun _ _ => rfl⟩
  obtain ⟨res,run,m,heq,hg,hh,hres,-⟩:=kallocContiguous_spec h c npg
  rw [reserveSpan,if_neg h1,heq]
  refine ⟨res,_,rfl,?_,?_,?_⟩
  · cases res <;> exact hg
  · rintro rfl
    obtain rfl:=getLast?_eq_none_iff.mp hres.symm
    exact ⟨hh,rfl⟩
  rintro r rfl
  have hn : npg≠0 := fun h0 => by
    rw [kallocContiguous,if_pos h0] at heq
    cases heq
  obtain ⟨res',m',heq',-,htakes,-⟩:=kalloc_contiguous_finds L s.mem c npg h.wellFormed (by omega)
  cases heq.symm.trans heq'
  exact ⟨by omega,(htakes r rfl).hands h.wellFormed,fun x hx => if_neg hx⟩

structure Block where
  frame : ℕ
  size : ℕ
  deriving DecidableEq

namespace Block

def pages (b : Block) : ℕ := kmallocPages b.size
def base (b : Block) : ℕ := p2v (b.frame*pgsize)
def ptr (b : Block) : ℕ := b.base+hdrSize
def frames (b : Block) : List ℕ := range' b.frame b.pages
def Spans (b : Block) (x : ℕ) : Prop := b.base≤x ∧ x<b.base+b.pages*pgsize

end Block

structure HdrOk (m : Bytes) (b : Block) : Prop where
  magic : load32 m b.base=kmallocMagic
  npages : load32 m (b.base+4)=b.pages
  reqSize : load32 m (b.base+8)=b.size

variable {b : Block} {m : Bytes}

lemma HdrOk.congr {m' : Bytes} (h : HdrOk m b) (heq : ∀ x,b.base≤x → x<b.base+hdrSize → m' x=m x) : HdrOk m' b := by
  rw [hdrSize] at heq
  refine ⟨?_,?_,?_⟩
  · rw [← h.magic]
    exact load32_congr fun x _ _ => heq x (by omega) (by omega)
  · rw [← h.npages]
    exact load32_congr fun x _ _ => heq x (by omega) (by omega)
  · rw [← h.reqSize]
    exact load32_congr fun x _ _ => heq x (by omega) (by omega)

lemma writeHdr_hdrOk (hsize : b.size<wordMod) : HdrOk (writeHdr m b.base b.pages b.size) b := by
  refine ⟨?_,?_,?_⟩
  · rw [writeHdr,load32_store32_of_apart (by omega),load32_store32_of_apart (by omega),load32_store32 (by decide)]
  · rw [writeHdr,load32_store32_of_apart (by omega),load32_store32 (show b.pages<2^32 from kmallocPages_lt b.size)]
  · rw [writeHdr,load32_store32 hsize]

lemma writeHdr_of_apart {h npg n : ℕ} (hx : x<h ∨ h+hdrSize≤x) : writeHdr m h npg n x=m x := by
  rw [hdrSize] at hx
  rw [writeHdr,store32_of_apart (by omega),store32_of_apart (by omega),store32_of_apart (by omega)]

structure Granted (s : Heap) (b : Block) (s' : Heap) : Prop where
  pos : 0<b.pages
  hands : Hands s.mem b.frames s'.mem
  hdr : HdrOk s'.bytes b
  others : ∀ x,¬ b.Spans x → s'.bytes x=s.bytes x

lemma kmalloc_spec (h : Good L s.mem) (c : Fin ncpu) (hsize : size<wordMod) :
    ∃ res s',kmalloc L s c size=some (res,s') ∧ Good L s'.mem ∧
      (res=none → Hands s.mem [] s'.mem ∧ s'.bytes=s.bytes) ∧
      ∀ ptr,res=some ptr → 0<size ∧ ∃ r,ptr=Block.ptr ⟨r,size⟩ ∧ Granted s ⟨r,size⟩ s' := by
  by_cases h0 : size=0
  · rw [kmalloc,if_pos h0]
    exact ⟨none,s,rfl,h,fun _ => ⟨(Moves.refl h.inv).hands,rfl⟩,fun _ hc => by cases hc⟩
  obtain ⟨res,t,heq,hg,hnone,hsome⟩:=reserveSpan_spec h c (kmallocPages size)
  rw [kmalloc,if_neg h0,heq,bind_some]
  cases res with
  | none => exact ⟨none,t,rfl,hg,fun _ => hnone rfl,fun _ hc => by cases hc⟩
  | some r =>
    obtain ⟨hpos,hhands,hbytes⟩:=hsome r rfl
    have hmanaged : ∀ p∈range' r (kmallocPages size),(t.mem.kmeta p).managed=true := by
      intro p hp
      rw [hhands.managed p]
      exact (hhands.fresh p hp).1
    have hw : kaddrWritable L t.mem (p2v (r*pgsize))=true :=
      hg.inv.kaddrWritable_page (hmanaged r (mem_range'_1.mpr ⟨le_rfl,by omega⟩))
    have htail : p2v (r*pgsize)+(kmallocPages size-1)*pgsize = p2v ((r+(kmallocPages size-1))*pgsize) := by
      rw [p2v,p2v,add_mul]
      omega
    have hw' : kaddrWritable L t.mem (p2v (r*pgsize)+(kmallocPages size-1)*pgsize)=true := by
      rw [htail]
      exact hg.inv.kaddrWritable_page (hmanaged _ (mem_range'_1.mpr ⟨by omega,by omega⟩))
    rw [openSpan,if_neg (not_not.mpr hw),if_neg (·.2 hw')]
    refine ⟨_,_,rfl,hg,(fun hc => by cases hc),fun ptr hptr => ?_⟩
    cases hptr
    refine ⟨pos_of_ne_zero h0,r,?_,hpos,hhands,?_,fun x hx => ?_⟩
    · rw [Block.ptr,Block.base]
    · exact writeHdr_hdrOk (b := ⟨r,size⟩) hsize
    have hroom : hdrSize≤kmallocPages size*pgsize := by
      simp only [hdrSize,pgsize]
      omega
    replace hx : ¬ (p2v (r*pgsize)≤x ∧ x<p2v (r*pgsize)+kmallocPages size*pgsize) := hx
    rw [← hbytes x hx]
    exact writeHdr_of_apart (by omega)

structure Drops (m : State) (run : List ℕ) (m' : State) : Prop where
  flags : m'.kpgdir=m.kpgdir ∧ m'.useLock=m.useLock ∧ m'.pgReady=m.pgReady ∧ m'.pageallocOnline=m.pageallocOnline
  managed : ∀ p,(m'.kmeta p).managed=(m.kmeta p).managed
  refs : ∀ p,kpageRefcount m' p=if p∈run then 0 else kpageRefcount m p

def HeldOnce (m : State) (run : List ℕ) : Prop := ∀ p∈run,(m.kmeta p).managed=true ∧ kpageRefcount m p=1

lemma freeSpan_spec {m : State} (n r : ℕ) (h : Good L m) (hheld : HeldOnce m (range' r n)) :
    ∃ m',freeSpan L c (p2v (r*pgsize)) n m=some m' ∧ Good L m' ∧ Drops m (range' r n) m' := by
  induction n generalizing r m with
  | zero => exact ⟨m,rfl,h,⟨rfl,rfl,rfl,rfl⟩,fun _ => rfl,fun p => by simp⟩
  | succ n ih =>
    rw [range'_succ] at hheld ⊢
    obtain ⟨hm,href⟩:=hheld r (mem_cons_self ..)
    obtain ⟨m1,heq,hg,hrefs,-⟩:=kfree_page h hm c
    rw [href] at hrefs
    have hheld1 : HeldOnce m1 (range' (r+1) n) := fun p hp => by
      have hne : p≠r := by
        have := (mem_range'_1.mp hp).1
        omega
      obtain ⟨hpm,hpr⟩:=hheld p (mem_cons_of_mem _ hp)
      exact ⟨(hrefs.managed p).trans hpm,by rw [hrefs.refs p,if_neg hne,hpr]⟩
    obtain ⟨m',heq',hg',hd⟩:=ih (r+1) hg hheld1
    have hnext : p2v (r*pgsize)+pgsize=p2v ((r+1)*pgsize) := by
      rw [p2v,p2v,add_mul]
      omega
    refine ⟨m',?_,hg',?_,fun p => (hd.managed p).trans (hrefs.managed p),fun p => ?_⟩
    · rw [freeSpan,heq,bind_some,hnext,heq']
    · obtain ⟨h1,h2,h3,h4⟩:=hd.flags
      obtain ⟨k1,k2,k3,k4⟩:=hrefs.flags
      exact ⟨h1.trans k1,h2.trans k2,h3.trans k3,h4.trans k4⟩
    · rw [hd.refs p,hrefs.refs p]
      by_cases hp : p=r <;> simp [hp]

lemma Block.uintSub_ptr {m : State} (h : Good L m) (hpos : 0<b.pages) (hheld : HeldOnce m b.frames) :
    b.ptr≠0 ∧ uintSub b.ptr hdrSize=b.base := by
  have hlt:=h.inv.lt_npages (hheld b.frame (mem_range'_1.mpr ⟨le_rfl,by omega⟩)).1
  simp only [Block.ptr,Block.base,uintSub,p2v,hdrSize,pgsize,npages,physTop,kernbase,wordMod] at hlt ⊢
  omega

lemma kmallocFree_spec (h : Good L s.mem) (hpos : 0<b.pages) (hheld : HeldOnce s.mem b.frames)
    (hdr : HdrOk s.bytes b) (c : Fin ncpu) :
    if b.pages≤128 then ∃ m,kmallocFree L s c b.ptr=some ⟨m,store32 s.bytes b.base 0⟩ ∧
      Good L m ∧ Drops s.mem b.frames m else kmallocFree L s c b.ptr=none := by
  obtain ⟨hne,hbase⟩:=Block.uintSub_ptr h hpos hheld
  rw [kmallocFree,if_neg hne]
  rw [hbase,if_neg (not_not.mpr hdr.magic),hdr.npages]
  by_cases hle : b.pages≤128
  · obtain ⟨m,heq,hg,hd⟩:=freeSpan_spec (c := c) b.pages b.frame h hheld
    rw [if_pos hle,if_neg (by omega),Block.base,heq]
    exact ⟨m,rfl,hg,hd⟩
  · rw [if_neg hle,if_pos (.inr (by omega))]

structure BlockOk (s : Heap) (b : Block) : Prop where
  fits : RequestFits b.size
  held : HeldOnce s.mem b.frames
  hdr : HdrOk s.bytes b

lemma BlockOk.covers (h : BlockOk s b) : hdrSize+b.size≤b.pages*pgsize ∧ b.pages≤128 :=
  (kmallocPages_fits h.fits.lt h.fits.pages_pos).mpr h.fits
lemma BlockOk.free (hb : BlockOk s b) (h : Good L s.mem) (c : Fin ncpu) :
    ∃ m,kmallocFree L s c b.ptr=some ⟨m,store32 s.bytes b.base 0⟩ ∧ Good L m ∧ Drops s.mem b.frames m := by
  have hfree:=kmallocFree_spec h hb.fits.pages_pos hb.held hb.hdr c
  rwa [if_pos hb.covers.2] at hfree
lemma Block.Spans.frame_mem (h : b.Spans x) : (x-kernbase)/pgsize∈b.frames := by
  obtain ⟨hlo,hhi⟩:=h
  refine mem_range'_1.mpr ?_
  simp only [Block.base,p2v,pgsize] at hlo hhi ⊢
  omega
lemma BlockOk.spans_ptr (h : BlockOk s b) {i : ℕ} (hi : i<b.size) : b.Spans (b.ptr+i) := by
  have hcover:=h.covers.1
  rw [Block.Spans,Block.ptr]
  omega
lemma BlockOk.spans_hdr (h : BlockOk s b) (hlo : b.base≤x) (hhi : x<b.base+hdrSize) : b.Spans x := by
  have hcover:=h.covers.1
  rw [Block.Spans]
  omega

lemma HeldOnce.disjoint {m m' : State} (hheld : HeldOnce m run) (h : Good L m)
    (hh : Hands m run' m') : List.Disjoint run run' := by
  intro p hp hp'
  obtain ⟨hm,href⟩:=hheld p hp
  have hzero:=(h.inv.free_iff p hm).mp (hh.fresh p hp').2
  omega

lemma HeldOnce.hands {m m' : State} (hheld : HeldOnce m run) (h : Good L m)
    (hh : Hands m run' m') : HeldOnce m' run := by
  intro p hp
  have hnot : p∉run' := fun hp' => hheld.disjoint h hh hp hp'
  rw [hh.managed p,hh.refs p,if_neg hnot]
  exact hheld p hp

lemma Granted.heldOnce {s' : Heap} (h : Granted s b s') : HeldOnce s'.mem b.frames := by
  intro p hp
  rw [h.hands.managed p,h.hands.refs p,if_pos hp]
  exact ⟨(h.hands.fresh p hp).1,rfl⟩

lemma copyBytes_spans {r src n : ℕ} (hsize : RequestFits size) (hn : n ≤ size)
    (hx : ¬ Block.Spans ⟨r,size⟩ x ∨ x<Block.ptr ⟨r,size⟩) : copyBytes m (Block.ptr ⟨r,size⟩) src n x=m x := by
  have hcover : hdrSize+size≤Block.pages ⟨r,size⟩*pgsize := ((kmallocPages_fits hsize.lt hsize.pages_pos).mpr hsize).1
  refine if_neg fun hc => ?_
  rcases hx with hx | hx
  · rw [Block.ptr] at hc
    exact hx ⟨by omega,by omega⟩
  · omega

inductive Realloced (s : Heap) (b : Block) (size : ℕ) : Option ℕ → Heap → Prop
  | freed (m : State) (hsize : size=0) (hd : Drops s.mem b.frames m) :
    Realloced s b size none ⟨m,store32 s.bytes b.base 0⟩
  | kept (hle : size≤b.size) : Realloced s b size (some b.ptr) s
  | refused (t : Heap) (hsize : size≠0) (hh : Hands s.mem [] t.mem) (hbytes : t.bytes=s.bytes) :
    Realloced s b size none t
  | moved (r : ℕ) (mid : Heap) (m : State) (hgrow : b.size<size) (hgrant : Granted s ⟨r,size⟩ mid)
      (hd : Drops mid.mem b.frames m) :
    Realloced s b size (some (Block.ptr ⟨r,size⟩))
      ⟨m,store32 (copyBytes mid.bytes (Block.ptr ⟨r,size⟩) b.ptr b.size) b.base 0⟩

lemma kmallocRealloc_spec (h : Good L s.mem) (hb : BlockOk s b) (hsize : RequestFits size)
    (c : Fin ncpu) : ∃ res s',kmallocRealloc L s c b.ptr size=some (res,s') ∧ Good L s'.mem ∧
      Realloced s b size res s' := by
  obtain ⟨hne,hbase⟩:=Block.uintSub_ptr h hb.fits.pages_pos hb.held
  rw [kmallocRealloc,if_neg hne,hbase,hb.hdr.reqSize,if_neg (not_not.mpr hb.hdr.magic)]
  split_ifs with h0 hold
  · obtain ⟨m,heq,hg,hd⟩:=hb.free h c
    rw [heq]
    exact ⟨none,_,rfl,hg,.freed m h0 hd⟩
  · exact ⟨_,s,rfl,h,.kept hold⟩
  obtain ⟨res,t,heq,hg,hnone,hsome⟩:=kmalloc_spec h c hsize.lt
  rw [heq,bind_some]
  cases res with
  | none =>
    obtain ⟨hh,hbytes⟩:=hnone rfl
    exact ⟨none,t,rfl,hg,.refused t h0 hh hbytes⟩
  | some newp =>
    obtain ⟨-,r,rfl,hgrant⟩:=hsome newp rfl
    have hdisj:=hb.held.disjoint h hgrant.hands
    -- the copy stays inside the new span, so the old header is read as written
    have hhdr : HdrOk (copyBytes t.bytes (Block.ptr ⟨r,size⟩) b.ptr b.size) b := by
      refine hb.hdr.congr fun x hlo hhi => ?_
      have hout : ¬ Block.Spans ⟨r,size⟩ x := fun hx =>
        hdisj (hb.spans_hdr hlo hhi).frame_mem hx.frame_mem
      rw [copyBytes_spans hsize (by omega) (.inl hout),hgrant.others x hout]
    have hb' : BlockOk ⟨t.mem,copyBytes t.bytes (Block.ptr ⟨r,size⟩) b.ptr b.size⟩ b :=
      ⟨hb.fits,hb.held.hands h hgrant.hands,hhdr⟩
    obtain ⟨m,heq,hg',hd⟩:=hb'.free hg c
    rw [moveBlock,if_pos (by omega),heq]
    exact ⟨_,_,rfl,hg',.moved r t m (by omega) hgrant hd⟩

lemma Realloced.bytes_kept {ptr : ℕ} {s' : Heap} (h : Good L s.mem) (hb : BlockOk s b)
    (hsize : RequestFits size) (hr : Realloced s b size (some ptr) s') {i : ℕ} (hi : i < min b.size size) :
    s'.bytes (ptr+i)=s.bytes (b.ptr+i) := by
  cases hr with
  | kept => rfl
  | moved r mid m hgrow hgrant hd =>
    have hib : i<b.size := by omega
    have hdisj:=hb.held.disjoint h hgrant.hands
    have hcover:=((kmallocPages_fits hsize.lt hsize.pages_pos).mpr hsize).1
    have hnew : Block.Spans ⟨r,size⟩ (Block.ptr ⟨r,size⟩+i) := by
      rw [Block.Spans,Block.ptr,Block.pages]
      dsimp only
      omega
    have hold : ¬ Block.Spans ⟨r,size⟩ (b.ptr+i) := fun hx => hdisj (hb.spans_ptr hib).frame_mem hx.frame_mem
    have hapart : ¬ (b.base≤Block.ptr ⟨r,size⟩+i ∧ Block.ptr ⟨r,size⟩+i<b.base+hdrSize) :=
      fun hc => hdisj (hb.spans_hdr hc.1 hc.2).frame_mem hnew.frame_mem
    rw [hdrSize] at hapart
    dsimp only
    rw [store32_of_apart (by omega),copyBytes,if_pos ⟨by omega,by omega⟩,Nat.add_sub_cancel_left,hgrant.others _ hold]

end Auxv6.Mem
