import Auxv6.Mem.Kmalloc

/-!
# The kernel heap over a run

Blocks are allocated, resized and freed while the rest of the kernel uses its own pages and writes
anywhere but into the headers of the live blocks.
-/

namespace Auxv6.Mem
open Machine Lib Lib.ByteMemory List Option

structure Sys where
  heap : Heap
  live : List Block

inductive Call where
  | kmalloc (c : Fin ncpu) (size : ℕ)
  | kmallocFree (c : Fin ncpu) (b : Block)
  | kmallocRealloc (c : Fin ncpu) (b : Block) (size : ℕ)
  | reserve (c : Fin ncpu) (npg : ℕ)
  | kfree (c : Fin ncpu) (v : ℕ)
  | incref (pfn : ℕ)
  | store (a : ℕ) (v : UInt8)

def blockAt (ptr size : ℕ) : Block := ⟨(ptr-kernbase)/pgsize,size⟩
def reallocLive (live : List Block) (b : Block) (size : ℕ) : Option ℕ → List Block
  | none => if size=0 then live.erase b else live
  | some ptr => if ptr=b.ptr then live else blockAt ptr size::live.erase b
def Foreign (live : List Block) (pfn : ℕ) : Prop := ∀ b∈live,pfn∉b.frames
  deriving Decidable

def kstep (L : Layout) (s : Sys) : Call → Option Sys
  | .kmalloc c size => (kmalloc L s.heap c size).map fun t =>
    ⟨t.2,(t.1.map fun ptr => blockAt ptr size).toList++s.live⟩
  | .kmallocFree c b =>
    if b∈s.live then (kmallocFree L s.heap c b.ptr).map fun t => ⟨t,s.live.erase b⟩ else none
  | .kmallocRealloc c b size =>
    if b∈s.live then (kmallocRealloc L s.heap c b.ptr size).map fun t =>
      ⟨t.2,reallocLive s.live b size t.1⟩
    else none
  | .reserve c npg => (reserveSpan L s.heap c npg).map fun t => {s with heap := t.2}
  | .kfree c v =>
    if Foreign s.live ((v-kernbase)/pgsize) then
      (kfree L s.heap.mem c v).map fun m => { s with heap := {s.heap with mem := m} }
    else none
  | .incref pfn =>
    if Foreign s.live pfn ∧ kpageRefcount s.heap.mem pfn+1<wordMod then
      (kpageIncref s.heap.mem pfn).map fun m => { s with heap := {s.heap with mem := m} }
    else none
  | .store a v =>
    if ∀ b∈s.live,¬ (b.base≤a ∧ a<b.base+hdrSize) then
      some { s with heap := {s.heap with bytes := Function.update s.heap.bytes a v} }
    else none

def Fits (_ : Sys) : Call → Prop
  | .kmalloc _ size => RequestFits size
  | .kmallocRealloc _ _ size => RequestFits size
  | _ => True

structure HeapInv (L : Layout) (s : Sys) : Prop where
  good : Good L s.heap.mem
  ok : ∀ b∈s.live,BlockOk s.heap b
  apart : s.live.Pairwise fun b b' => List.Disjoint b.frames b'.frames

section

variable {L : Layout} {s s' : Sys} {b b' : Block} {h h' : Heap} {run : List ℕ} {size : ℕ}

lemma BlockOk.keep (hb : BlockOk h b) (hheld : HeldOnce h'.mem b.frames)
    (hbytes : ∀ x,b.base≤x → x<b.base+hdrSize → h'.bytes x=h.bytes x) : BlockOk h' b :=
  ⟨hb.fits,hheld,hb.hdr.congr hbytes⟩

variable {m m' : State}

lemma HeldOnce.refs {r refs : ℕ} (hheld : HeldOnce m run) (hr : Refs m r refs m')
    (hnot : r∉run) : HeldOnce m' run := by
  intro p hp
  have hne : p≠r := fun heq => hnot (heq ▸ hp)
  rw [hr.managed p,hr.refs p,if_neg hne]
  exact hheld p hp

lemma Granted.blockOk (hfits : RequestFits b.size) (hg : Granted h b h') : BlockOk h' b := ⟨hfits,hg.heldOnce,hg.hdr⟩
lemma Granted.keeps (hgood : Good L h.mem) (hb : BlockOk h b) (hg : Granted h b' h') : BlockOk h' b := by
  have hdisj:=hb.held.disjoint hgood hg.hands
  refine hb.keep (hb.held.hands hgood hg.hands) fun x hlo hhi => hg.others x fun hx => ?_
  exact hdisj (hb.spans_hdr hlo hhi).frame_mem hx.frame_mem
lemma blockAt_ptr (b : Block) : blockAt b.ptr b.size=b := by
  have hframe : (b.ptr-kernbase)/pgsize=b.frame := by
    simp only [Block.ptr,Block.base,p2v,hdrSize,pgsize]
    omega
  rw [blockAt,hframe]

lemma HeapInv.erase (h : HeapInv L s) (hb : b∈s.live) :
    (∀ b'∈s.live.erase b,b'∈s.live ∧ List.Disjoint b'.frames b.frames) ∧
      (s.live.erase b).Pairwise fun b b' => List.Disjoint b.frames b'.frames := by
  have hperm:=perm_cons_erase hb
  have hpair:=(hperm.pairwise_iff fun {_ _} hd => hd.symm).mp h.apart
  obtain ⟨hhead,htail⟩:=pairwise_cons.mp hpair
  exact ⟨fun b' hb' => ⟨mem_of_mem_erase hb',(hhead b' hb').symm⟩,htail⟩

variable {c : Fin ncpu}

lemma kmalloc_heapInv (h : HeapInv L s) (hfits : RequestFits size)
    (hs : kstep L s (.kmalloc c size)=some s') : HeapInv L s' := by
  obtain ⟨res,t,heq,hg,hnone,hsome⟩:=kmalloc_spec h.good c hfits.lt
  rw [kstep,heq,map_some] at hs
  cases hs
  cases res with
  | none =>
    obtain ⟨hh,hbytes⟩:=hnone rfl
    exact ⟨hg,fun b hb => (h.ok b hb).keep ((h.ok b hb).held.hands h.good hh) fun x _ _ => by rw [hbytes],h.apart⟩
  | some ptr =>
    obtain ⟨-,r,rfl,hgrant⟩:=hsome ptr rfl
    have hblock : blockAt (Block.ptr ⟨r,size⟩) size=⟨r,size⟩ := blockAt_ptr ⟨r,size⟩
    rw [map_some,toList_some,singleton_append,hblock]
    refine ⟨hg,fun b hb => ?_,pairwise_cons.mpr ⟨fun b hb => ?_,h.apart⟩⟩
    · rcases mem_cons.mp hb with rfl | hb
      · exact hgrant.blockOk hfits
      · exact hgrant.keeps h.good (h.ok b hb)
    · exact ((h.ok b hb).held.disjoint h.good hgrant.hands).symm

lemma BlockOk.after_free (hb : BlockOk h b) (hb' : BlockOk h b')
    (hdisj : List.Disjoint b'.frames b.frames) (hd : Drops h.mem b.frames m) :
    BlockOk ⟨m,store32 h.bytes b.base 0⟩ b' := by
  have hheld : HeldOnce m b'.frames := by
    intro p hp
    rw [hd.managed p,hd.refs p,if_neg fun hp' => hdisj hp hp']
    exact hb'.held p hp
  refine hb'.keep hheld fun x hlo hhi => ?_
  refine store32_of_apart ?_
  have hout : ¬ (b.base≤x ∧ x<b.base+hdrSize) := fun hc =>
    hdisj (hb'.spans_hdr hlo hhi).frame_mem (hb.spans_hdr hc.1 hc.2).frame_mem
  rw [hdrSize] at hout
  omega

lemma kmallocFree_heapInv (h : HeapInv L s) (hs : kstep L s (.kmallocFree c b)=some s') : HeapInv L s' := by
  rw [kstep] at hs
  split_ifs at hs with hb
  have hok:=h.ok b hb
  obtain ⟨m,heq,hg,hd⟩:=hok.free h.good c
  rw [heq,map_some] at hs
  cases hs
  obtain ⟨hrest,hpair⟩:=h.erase hb
  exact ⟨hg,fun b' hb' => hok.after_free (h.ok b' (hrest b' hb').1) (hrest b' hb').2 hd,hpair⟩

lemma Realloced.heapInv {res : Option ℕ} {t : Heap} (h : HeapInv L s) (hb : b∈s.live)
    (hfits : RequestFits size) (hg : Good L t.mem) (hr : Realloced s.heap b size res t) :
    HeapInv L ⟨t,reallocLive s.live b size res⟩ := by
  obtain ⟨hrest,hpair⟩:=h.erase hb
  have hok:=h.ok b hb
  cases hr with
  | freed m hsize hd =>
    rw [reallocLive,if_pos hsize]
    exact ⟨hg,fun b' hb' => hok.after_free (h.ok b' (hrest b' hb').1) (hrest b' hb').2 hd,hpair⟩
  | kept =>
    rw [reallocLive,if_pos rfl]
    exact h
  | refused _ hsize hh hbytes =>
    rw [reallocLive,if_neg hsize]
    exact ⟨hg,fun b' hb' => (h.ok b' hb').keep ((h.ok b' hb').held.hands h.good hh) fun x _ _ => by rw [hbytes],
      h.apart⟩
  | moved r mid m hgrow hgrant hd =>
    have hne : ¬ Block.ptr ⟨r,size⟩=b.ptr := fun heq => by
      have hframe : r=b.frame := by
        simp only [Block.ptr,Block.base,p2v,pgsize] at heq
        omega
      have hmem : b.frame∈b.frames := mem_range'_1.mpr ⟨le_rfl,Nat.lt_add_of_pos_right hok.fits.pages_pos⟩
      exact hok.held.disjoint h.good hgrant.hands hmem (mem_range'_1.mpr ⟨by rw [hframe],by
        have := hgrant.pos
        dsimp only
        omega⟩)
    have hblock : blockAt (Block.ptr ⟨r,size⟩) size=⟨r,size⟩ := blockAt_ptr ⟨r,size⟩
    rw [reallocLive,if_neg hne,hblock]
    -- the blocks after the copy and before the old span goes
    have hmid : ∀ b'∈s.live,BlockOk ⟨mid.mem,copyBytes mid.bytes (Block.ptr ⟨r,size⟩) b.ptr b.size⟩ b' := by
      intro b' hb'
      have hok':=h.ok b' hb'
      refine (hgrant.keeps h.good hok').keep (hok'.held.hands h.good hgrant.hands) fun x hlo hhi => ?_
      refine copyBytes_spans hfits hgrow.le (.inl fun hx => ?_)
      exact hok'.held.disjoint h.good hgrant.hands (hok'.spans_hdr hlo hhi).frame_mem hx.frame_mem
    have hnew : BlockOk ⟨mid.mem,copyBytes mid.bytes (Block.ptr ⟨r,size⟩) b.ptr b.size⟩ ⟨r,size⟩ :=
      (hgrant.blockOk hfits).keep hgrant.heldOnce fun x _ hhi => copyBytes_spans hfits hgrow.le (.inr hhi)
    have hdisj : ∀ b'∈s.live,List.Disjoint (Block.frames ⟨r,size⟩) b'.frames := fun b' hb' =>
      ((h.ok b' hb').held.disjoint h.good hgrant.hands).symm
    refine ⟨hg,fun b' hb' => ?_,pairwise_cons.mpr ⟨fun b' hb' => hdisj b' (hrest b' hb').1,hpair⟩⟩
    rcases mem_cons.mp hb' with rfl | hb'
    · exact (hmid b hb).after_free hnew (hdisj b hb) hd
    · exact (hmid b hb).after_free (hmid b' (hrest b' hb').1) (hrest b' hb').2 hd

lemma kstep_heapInv (L : Layout) (s : Sys) (a : Call) (s' : Sys) (h : HeapInv L s) (hfits : Fits s a)
    (hs : kstep L s a=some s') : HeapInv L s' := by
  cases a with
  | kmalloc c size => exact kmalloc_heapInv h hfits hs
  | kmallocFree c b => exact kmallocFree_heapInv h hs
  | kmallocRealloc c b size =>
    rw [kstep] at hs
    split_ifs at hs with hb
    obtain ⟨res,t,heq,hg,hr⟩:=kmallocRealloc_spec h.good (h.ok b hb) hfits c
    rw [heq,map_some] at hs
    cases hs
    exact hr.heapInv h hb hfits hg
  | reserve c npg =>
    obtain ⟨res,t,heq,hg,hnone,hsome⟩:=reserveSpan_spec h.good c npg
    rw [kstep,heq,map_some] at hs
    cases hs
    refine ⟨hg,fun b hb => ?_,h.apart⟩
    have hok:=h.ok b hb
    cases res with
    | none =>
      obtain ⟨hh,hbytes⟩:=hnone rfl
      exact hok.keep (hok.held.hands h.good hh) fun x _ _ => by rw [hbytes]
    | some r =>
      obtain ⟨-,hh,hbytes⟩:=hsome r rfl
      refine hok.keep (hok.held.hands h.good hh) fun x hlo hhi => hbytes x fun hx => ?_
      refine hok.held.disjoint h.good hh (hok.spans_hdr hlo hhi).frame_mem (mem_range'_1.mpr ?_)
      simp only [p2v,pgsize] at hx ⊢
      omega
  | kfree c v =>
    rw [kstep] at hs
    split_ifs at hs with hf
    obtain ⟨m,hm,rfl⟩:=map_eq_some_iff.mp hs
    obtain ⟨hg,r,hman,rfl,hrefs⟩:=kfree_spec h.good hm
    have hr : (p2v (r*pgsize)-kernbase)/pgsize=r := by
      simp only [p2v,pgsize]
      omega
    rw [hr] at hf
    exact ⟨hg,fun b hb => (h.ok b hb).keep ((h.ok b hb).held.refs hrefs (hf b hb)) fun _ _ _ => rfl,h.apart⟩
  | incref pfn =>
    rw [kstep] at hs
    split_ifs at hs with hf
    obtain ⟨m,hm,rfl⟩:=map_eq_some_iff.mp hs
    obtain ⟨hg,-,-,hrefs⟩:=kpageIncref_spec h.good hm hf.2
    exact ⟨hg,fun b hb => (h.ok b hb).keep ((h.ok b hb).held.refs hrefs (hf.1 b hb)) fun _ _ _ => rfl,h.apart⟩
  | store a v =>
    rw [kstep] at hs
    split_ifs at hs with hf
    rw [some.injEq] at hs
    subst hs
    refine ⟨h.good,fun b hb => (h.ok b hb).keep (h.ok b hb).held fun x hlo hhi => ?_,h.apart⟩
    have hne : x≠a := by
      rintro rfl
      exact hf b hb ⟨hlo,hhi⟩
    exact Function.update_of_ne hne ..

/-- A block covers its request, `kmalloc_free` puts exactly its pages on the lists of
the allocator, and `kmalloc_realloc` to a size that fits keeps its contents and gives
the old span back when it moves. -/
structure Usable (L : Layout) (h : Heap) (b : Block) : Prop where
  covers : hdrSize+b.size≤b.pages*pgsize
  held : HeldOnce h.mem b.frames
  free : ∀ c,∃ t,kmallocFree L h c b.ptr=some t ∧ ∀ p,occ t.mem p=if p∈b.frames then 1 else occ h.mem p
  realloc : ∀ c size,RequestFits size → ∃ res t,kmallocRealloc L h c b.ptr size=some (res,t) ∧
    ∀ ptr,res=some ptr → (∀ i < min b.size size,t.bytes (ptr+i)=h.bytes (b.ptr+i)) ∧ (ptr≠b.ptr → ∀ p,occ t.mem p =
        if p∈b.frames then 1 else if p∈(blockAt ptr size).frames then 0 else occ h.mem p)

lemma Good.occ_eq (h : Good L m) (p : ℕ) :
    occ m p=if (m.kmeta p).managed=true ∧ kpageRefcount m p=0 then 1 else 0 := by
  have hocc:=h.inv.occ_eq p
  rw [count_nil,Nat.add_zero] at hocc
  rw [hocc]
  by_cases hm : (m.kmeta p).managed=true
  · simp only [h.inv.free_iff p hm]
  · rw [if_neg (fun hc => hm hc.1),if_neg (fun hc => hm hc.1)]

lemma Drops.occ (hd : Drops m run m') (h : Good L m) (h' : Good L m')
    (hheld : HeldOnce m run) (p : ℕ) : occ m' p=if p∈run then 1 else occ m p := by
  rw [h'.occ_eq,h.occ_eq,hd.managed,hd.refs]
  by_cases hp : p∈run
  · rw [if_pos hp,if_pos hp,if_pos ⟨(hheld p hp).1,rfl⟩]
  · rw [if_neg hp,if_neg hp]

lemma Hands.occ_drops {m1 m2 : State} {new old : List ℕ} (hh : Hands m new m1) (hd : Drops m1 old m2)
    (h : Good L m) (h2 : Good L m2) (hheld : HeldOnce m old) (p : ℕ) :
    Auxv6.Mem.occ m2 p=if p∈old then 1 else if p∈new then 0 else Auxv6.Mem.occ m p := by
  rw [h2.occ_eq,h.occ_eq,hd.managed,hh.managed,hd.refs,hh.refs]
  by_cases hold : p∈old
  · rw [if_pos hold,if_pos hold,if_pos ⟨(hheld p hold).1,rfl⟩]
  rw [if_neg hold,if_neg hold]
  by_cases hnew : p∈new
  · rw [if_pos hnew,if_pos hnew,if_neg fun hc => Nat.one_ne_zero hc.2]
  · rw [if_neg hnew,if_neg hnew]

lemma BlockOk.usable (hb : BlockOk h b) (hg : Good L h.mem) : Usable L h b := by
  refine ⟨hb.covers.1,hb.held,fun c => ?_,fun c size hsize => ?_⟩
  · obtain ⟨m,heq,hg',hd⟩:=hb.free hg c
    exact ⟨_,heq,hd.occ hg hg' hb.held⟩
  obtain ⟨res,t,heq,hg',hr⟩:=kmallocRealloc_spec hg hb hsize c
  refine ⟨res,t,heq,?_⟩
  rintro ptr rfl
  refine ⟨fun i hi => hr.bytes_kept hg hb hsize hi,fun hne p => ?_⟩
  cases hr with
  | kept => exact absurd rfl hne
  | moved r mid m hgrow hgrant hd =>
    have hblock : blockAt (Block.ptr ⟨r,size⟩) size=⟨r,size⟩ := blockAt_ptr ⟨r,size⟩
    rw [hblock]
    exact hgrant.hands.occ_drops hd hg hg' hb.held p

/-- In every run whose requests fit, every live block is usable; and a block granted
in any state so reached is usable exactly if its request fits. -/
theorem kmalloc_blocks_usable (L : Layout) (as : List Call) (s0 s : Sys) (h0 : Good L s0.heap.mem)
    (hlive : s0.live=[]) (hrun : Transition.run (kstep L) s0 as=some s)
    (hfits : Transition.Guarded (kstep L) Fits s0 as) : (∀ b∈s.live,Usable L s.heap b) ∧
    ∀ c size ptr t,size<wordMod → kmalloc L s.heap c size=some (some ptr,t) →
      ∃ r,ptr=Block.ptr ⟨r,size⟩ ∧ (Usable L t ⟨r,size⟩ ↔ RequestFits size) := by
  have hstart : HeapInv L s0 := ⟨h0,by simp [hlive],by simp [hlive]⟩
  have hinv:=Transition.run_guarded (kstep_heapInv L) hstart hfits hrun
  refine ⟨fun b hb => (hinv.ok b hb).usable hinv.good,fun c size ptr t hsize heq => ?_⟩
  obtain ⟨res,t',heq',hg,-,hsome⟩:=kmalloc_spec hinv.good c hsize
  cases heq.symm.trans heq'
  obtain ⟨-,r,rfl,hgrant⟩:=hsome ptr rfl
  refine ⟨r,rfl,fun hu => (kmallocPages_fits hsize hgrant.pos).mp ⟨hu.covers,?_⟩,
    fun hfit => (hgrant.blockOk hfit).usable hg⟩
  obtain ⟨u,hfree,-⟩:=hu.free c
  have hspec:=kmallocFree_spec hg hgrant.pos hgrant.heldOnce hgrant.hdr c
  by_contra hle
  rw [if_neg (show ¬ Block.pages ⟨r,size⟩≤128 from hle),hfree] at hspec
  cases hspec

lemma kmalloc_of_reserved {t : Heap} {r : ℕ} (hg : Good L h.mem) (hsize : size<wordMod)
    (hpos : size≠0) (heq : reserveSpan L h c (kmallocPages size)=some (some r,t)) :
    ∃ r' t',kmalloc L h c size=some (some (Block.ptr ⟨r',size⟩),t') ∧ Good L t'.mem ∧ Granted h ⟨r',size⟩ t' := by
  obtain ⟨res,t',heq',hg',-,hsome⟩:=kmalloc_spec hg c hsize
  cases res with
  | none =>
    rw [kmalloc,if_neg hpos,heq,bind_some,openSpan] at heq'
    split_ifs at heq'
    cases heq'
  | some ptr =>
    obtain ⟨-,r',rfl,hgrant⟩:=hsome ptr rfl
    exact ⟨r',t',heq',hg',hgrant⟩

end

lemma kalloc_early {L : Layout} {m : State} (c : Fin ncpu) (h : Good L m) (hlock : m.useLock=false)
    (hne : m.freelist≠[]) : ∃ r m',kalloc L m c=some (some r,m') := by
  obtain ⟨r,rest,hfl⟩:=exists_cons_of_ne_nil hne
  obtain ⟨hv,-,hmf⟩:=h.inv.freelist_valid r (by simp [hfl])
  rw [Bool.and_eq_true] at hmf
  have hr:=h.inv.lt_npages hmf.1
  have hleg : kallocLegacyPage L m c =
      some (some r,markAllocated {m with freelist := rest,freePages := m.freePages-1} r) := by
    rw [kallocLegacyPage,if_pos (by rw [hlock]; decide),hfl]
    simp [hv,hmf.1,kaddrWritable_meta (L := L) (s := m) hr]
  obtain ⟨k,d,hmark,-⟩ := markAllocated_setPage {m with freelist := rest,freePages := m.freePages-1} r
  rw [hmark] at hleg
  refine ⟨r,setPage {m with freelist := rest,freePages := m.freePages-1} r k d,?_⟩
  rw [kalloc,hleg]
  exact if_neg fun hc => hc.2 ⟨h.inv.online hc.1,hr⟩

lemma kmalloc_boot (bytes : Bytes) (size : ℕ) (hsize : size<wordMod) (hn : 2≤kmallocPages size)
    (hroom : kmallocPages size≤npages-earlyFrames) : ∃ h : Heap,Good layout h.mem ∧
      h.bytes=bytes ∧ ∃ r t, kmalloc layout h bootCpu size=some (some (Block.ptr ⟨r,size⟩),t) ∧
      Good layout t.mem ∧ Granted h ⟨r,size⟩ t := by
  obtain ⟨m,rest,-,hg,hlock,hfl⟩:=boot_full layout
  obtain ⟨res,m',heq,hiff,-,-⟩:=kalloc_contiguous_finds layout m bootCpu (kmallocPages size)
    hg.wellFormed hn
  obtain ⟨base,rfl⟩:=isSome_iff_exists.mp (hiff.mpr ⟨hlock,hfl ▸ holdsRun_range' hroom rest⟩)
  have hres : reserveSpan layout ⟨m,bytes⟩ bootCpu (kmallocPages size)=some (some base,⟨m',
      zeroBytes bytes (p2v (base*pgsize)) (kmallocPages size*pgsize)⟩) := by
    rw [reserveSpan,if_neg (by omega),heq]
    rfl
  refine ⟨⟨m,bytes⟩,hg,rfl,kmalloc_of_reserved hg hsize ?_ hres⟩
  rintro rfl
  exact absurd hn (by decide)

theorem kmalloc_blocks_usable_limit : ∃ s : Sys,∃ b∈s.live,b.size=524276 ∧ Usable layout s.heap b := by
  obtain ⟨h,hg,-,r,t,heq,-,-⟩:=kmalloc_boot (fun _ => 0) 524276 (by decide) (by decide) (by decide)
  have hstep : Transition.run (kstep layout) ⟨h,[]⟩ [.kmalloc bootCpu 524276] =
      some ⟨t,[blockAt (Block.ptr ⟨r,524276⟩) 524276]⟩ := by
    rw [Transition.run,kstep,heq]
    rfl
  have hall:=(kmalloc_blocks_usable layout _ ⟨h,[]⟩ _ hg rfl hstep
    ⟨(by decide : RequestFits 524276),fun _ _ => trivial⟩).1
  exact ⟨_,_,mem_singleton_self _,rfl,hall _ (mem_singleton_self _)⟩

theorem kmalloc_misfits : (∃ h ptr t,Good layout h.mem ∧ kmalloc layout h bootCpu 524277=some (some ptr,t) ∧
      ∀ c,kmallocFree layout t c ptr=none) ∧
    ∃ h ptr t,Good layout h.mem ∧ kmalloc layout h bootCpu (2^32-1)=some (some ptr,t) ∧ kmallocPages (2^32-1)=1 := by
  constructor
  · obtain ⟨h,hg,-,r,t,heq,hg',hgrant⟩ := kmalloc_boot (fun _ => 0) 524277 (by decide) (by decide) (by decide)
    refine ⟨h,_,t,hg,heq,fun c => ?_⟩
    have hspec:=kmallocFree_spec hg' hgrant.pos hgrant.heldOnce hgrant.hdr c
    rwa [if_neg (show ¬ Block.pages ⟨r,524277⟩≤128 from (by decide : ¬ kmallocPages 524277≤128))] at hspec
  obtain ⟨m,-,hok,hfl⟩:=kinit1_spec layout
  have hg:=hok.good Stage.noConfusion
  have hne : m.freelist≠[] := by
    rw [hfl,Ne,reverse_eq_nil_iff,range'_eq_nil_iff]
    decide
  obtain ⟨r,m',heq⟩:=kalloc_early bootCpu hg (hok.useLock.mpr (by simp)) hne
  have hpages : kmallocPages (2^32-1)=1 := by decide
  have hres : reserveSpan layout ⟨m,fun _ => 0⟩ bootCpu (kmallocPages (2^32-1)) = some (some r,⟨m',fun _ => 0⟩) := by
    rw [hpages,reserveSpan,if_pos rfl,heq]
    rfl
  obtain ⟨r',t,heq',-,-⟩:=kmalloc_of_reserved hg (by decide) (by decide) hres
  exact ⟨_,_,t,hg,heq',hpages⟩

end Auxv6.Mem
