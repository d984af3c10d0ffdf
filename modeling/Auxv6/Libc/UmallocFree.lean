import Auxv6.Lib.FreeList
import Auxv6.Libc.Umalloc

/-!
# The free list in memory, and `free`

`HeapInv`: the headers from `base` on form the circular list of the free blocks `fs`, and these and the
blocks in `live` share no byte.
-/

namespace Auxv6.Libc
open Machine Lib.ByteMemory Lib.FreeList Function List Nat Prod

def Off (p q : ℕ) : Prop := p+unit≤q ∨ q+unit≤p

structure Frame (h h' : Heap) (hs : List ℕ) : Prop where
  brk : h'.brk=h.brk
  mem : ∀ x,(∀ q∈hs,x<q ∨ q+unit≤x) → h'.mem x=h.mem x

section

variable {h h' h'' : Heap} {p q v : ℕ} {hs hs' : List ℕ}

lemma Off.symm (hoff : Off p q) : Off q p := hoff.elim .inr .inl
lemma Frame.trans (h1 : Frame h h' hs) (h2 : Frame h' h'' hs) : Frame h h'' hs :=
  ⟨h2.brk.trans h1.brk,fun x hx => (h2.mem x hx).trans (h1.mem x hx)⟩

section
variable (hf : Frame h h' hs)
include hf

lemma Frame.mono (hsub : hs ⊆ hs') : Frame h h' hs' := ⟨hf.brk,fun x hx => hf.mem x fun q hq => hx q (hsub hq)⟩

lemma Frame.load32 (hoff : ∀ q∈hs,Off p q) {k : ℕ} (hk : k≤4) : load32 h'.mem (p+k)=load32 h.mem (p+k) :=
  load32_congr fun x h1 h2 => hf.mem x fun q hq => by
    have := hoff q hq
    simp only [Off,unit] at *
    omega

lemma Frame.ptr (hoff : ∀ q∈hs,Off p q) : h'.ptr p=h.ptr p := hf.load32 hoff (zero_le 4)
lemma Frame.size (hoff : ∀ q∈hs,Off p q) : h'.size p=h.size p := hf.load32 hoff le_rfl

end

lemma frame_store32 {k : ℕ} (hk : k≤4) : Frame h {h with mem := store32 h.mem (p+k) v} [p] :=
  ⟨rfl,fun x hx => store32_of_apart (by
    have := hx p (mem_singleton_self p)
    simp only [unit] at this
    omega)⟩
lemma frame_setPtr (h : Heap) (p v : ℕ) : Frame h (h.setPtr p v) [p] := frame_store32 (zero_le 4)
lemma frame_setSize (h : Heap) (p v : ℕ) : Frame h (h.setSize p v) [p] := frame_store32 le_rfl
lemma ptr_setPtr (hv : v<wordMod) : (h.setPtr p v).ptr p=v := load32_store32 hv
lemma size_setSize (hv : v<wordMod) : (h.setSize p v).size p=v := load32_store32 hv
lemma size_setPtr : (h.setPtr p v).size p=h.size p := load32_store32_of_apart (by omega)
lemma ptr_setSize : (h.setSize p v).ptr p=h.ptr p := load32_store32_of_apart (by omega)
lemma ptr_lt (h : Heap) (p : ℕ) : h.ptr p<wordMod := load32_lt h.mem p
lemma size_lt (h : Heap) (p : ℕ) : h.size p<wordMod := load32_lt h.mem (p+4)
lemma headerAdd_of_lt {n : ℕ} (hlt : p+unit*n<kernbase) : headerAdd p n=p+unit*n :=
  mod_eq_of_lt (hlt.trans (by decide))

end

def Heap.block (h : Heap) (p : ℕ) : Block := (p,unit*h.size p)
def Heap.heldBlock (h : Heap) (x : ℕ × ℕ) : Block := h.block (x.1-unit)

/-- The free blocks are `fs`, and the program holds the pointers `live`, each with the number of
bytes it asked for; `start` is where the heap begins. -/
structure HeapInv (base start : ℕ) (h : Heap) (fs : List Block) (live : List (ℕ × ℕ)) : Prop where
  links : Links h.ptr base (fs.map (·.1)) base
  sentinel : h.size base=0
  sizes : ∀ x∈fs,x=h.block x.1
  freep : h.freep∈base::fs.map (·.1)
  gapped : Gapped fs
  within : ∀ x∈fs,start≤x.1 ∧ 0<x.2 ∧ x.1+x.2≤h.brk
  held : ∀ x∈live,start+unit≤x.1 ∧ x.2+unit≤(h.heldBlock x).2 ∧ (h.heldBlock x).1+(h.heldBlock x).2≤h.brk
  apart : live.Pairwise fun x y => Apart (h.heldBlock x) (h.heldBlock y)
  free : ∀ x∈fs,∀ y∈live,Apart x (h.heldBlock y)

structure Place (base start : ℕ) (h : Heap) : Prop where
  pos : 0<base
  below : base+unit ≤ start
  brk : start≤h.brk
  top : h.brk<kernbase

section

variable {base start p a n : ℕ} {h h' : Heap} {fs xs ys zs : List Block} {live : List (ℕ × ℕ)}

lemma Place.base_lt (hp : Place base start h) (ha : start≤a) : base<a := by
  have := hp.below
  simp only [unit] at this
  omega
lemma node_mem {x : Block} (hx : x∈fs) : x.1∈base::fs.map (·.1) := mem_cons_of_mem _ (mem_map_of_mem hx)

section
variable (hi : HeapInv base start h fs live)
include hi

lemma HeapInv.iterate_mem {q : ℕ} (hq : q∈base::fs.map (·.1)) (j : ℕ) : h.ptr^[j] q∈base::fs.map (·.1) := by
  induction j with
  | zero => exact hq
  | succ j ih =>
    rw [iterate_succ_apply']
    have := hi.links.next_mem ih
    rw [mem_append,mem_singleton] at this
    exact this.elim (mem_cons_of_mem _) fun he => he ▸ mem_cons_self ..

lemma HeapInv.length : ∀ x∈fs,unit≤x.2 := by
  intro x hx
  have hsize:=congrArg snd (hi.sizes x hx)
  have hpos:=(hi.within x hx).2.1
  simp only [Heap.block,unit] at *
  omega

lemma HeapInv.sorted (hp : Place base start h) : (base::fs.map (·.1)).Pairwise (· < ·) := by
  refine pairwise_cons.mpr ⟨fun a ha => ?_,hi.gapped.sorted⟩
  obtain ⟨x,hx,rfl⟩:=mem_map.mp ha
  exact hp.base_lt (hi.within x hx).1

lemma HeapInv.count_lt (hp : Place base start h) : 8*(fs.length+1)<loopFuel := by
  have hlen : unit*fs.length+start≤h.brk := hi.gapped.length_le hp.brk
    fun x hx => ⟨(hi.within x hx).1,hi.length x hx,(hi.within x hx).2.2⟩
  have h1:=hp.top
  have h2:=hp.below
  simp only [unit,kernbase,loopFuel] at *
  omega

lemma HeapInv.off (hp : Place base start h) {q : ℕ}
    (hmem : p∈base::fs.map (·.1)) (hmem' : q∈base::fs.map (·.1)) (hne : p≠q) : Off p q := by
  have hlow : ∀ x∈fs,base+unit≤x.1 := fun x hx => hp.below.trans (hi.within x hx).1
  rw [mem_cons] at hmem hmem'
  rcases hmem with he | hmem <;> rcases hmem' with he' | hmem'
  · exact absurd (he.trans he'.symm) hne
  · obtain ⟨y,hy,rfl⟩:=mem_map.mp hmem'
    rw [he]
    exact .inl (hlow y hy)
  · obtain ⟨x,hx,rfl⟩:=mem_map.mp hmem
    rw [he']
    exact .inr (hlow x hx)
  obtain ⟨x,hx,rfl⟩:=mem_map.mp hmem
  obtain ⟨y,hy,rfl⟩:=mem_map.mp hmem'
  have hgap:=hi.gapped.gap hx hy fun he => hne (by rw [he])
  have h1:=hi.length x hx
  have h2:=hi.length y hy
  unfold Off
  omega

lemma HeapInv.off_held (hp : Place base start h) {y : ℕ × ℕ} (hy : y∈live) (hpos : 0<h.size a)
    (hlive : Apart (h.block a) (h.heldBlock y)) : ∀ q∈a::base::fs.map (·.1),Off (y.1-unit) q := by
  obtain ⟨hlow,hroom,-⟩:=hi.held y hy
  intro q hq
  have hbelow:=hp.below
  rcases mem_cons.mp hq with rfl | hq
  · simp only [Apart,Off,Heap.block,Heap.heldBlock,unit] at *
    omega
  rcases mem_cons.mp hq with rfl | hq
  · right
    omega
  obtain ⟨x,hx,rfl⟩:=mem_map.mp hq
  have hap:=hi.free x hx y hy
  have hlen:=hi.length x hx
  simp only [Apart,Off,Heap.block,Heap.heldBlock,unit] at *
  omega

end

lemma freeLoop_spec {bp fuel k : ℕ} (hk : k<fuel) (hstop : Stops h.ptr bp (h.ptr^[k] p))
    (hno : ∀ j<k,¬ Stops h.ptr bp (h.ptr^[j] p)) : freeLoop h bp fuel p=some (h.ptr^[k] p) := by
  induction fuel generalizing p k with
  | zero => omega
  | succ fuel ih =>
    rw [freeLoop]
    cases k with
    | zero =>
      rw [iterate_zero_apply] at hstop ⊢
      rcases hstop with h1 | h2
      · rw [if_pos h1]
      · rw [if_pos h2]
        split <;> rfl
    | succ k =>
      have h0 : ¬ Stops h.ptr bp p := hno 0 (succ_pos k)
      rw [Stops,not_or] at h0
      rw [if_neg h0.1,if_neg h0.2,iterate_succ_apply]
      refine ih (by omega) (by rwa [iterate_succ_apply] at hstop) fun j hj => ?_
      have := hno (j+1) (by omega)
      rwa [iterate_succ_apply] at this

lemma HeapInv.freeLoop (hi : HeapInv base start h (xs++ys) live) (hp : Place base start h)
    (ha : start≤a) (hxs : ∀ x∈xs,x.1+x.2≤a) (hys : ∀ y∈ys,a<y.1) :
    freeLoop h a loopFuel h.freep=some ((xs.map (·.1)).getLastD base) := by
  have hlinks:=hi.links
  have hsorted:=hi.sorted hp
  have hnodes:=hi.freep
  have hcount:=hi.count_lt hp
  rw [map_append] at hlinks hsorted hnodes
  have hiff:=fun q hq => hlinks.stops_iff hsorted (b := a) (hp.base_lt ha) (fun n hn => by
        obtain ⟨x,hx,rfl⟩:=mem_map.mp hn
        have := hxs x hx
        have := (hi.within x (mem_append_left _ hx)).2.1
        omega) (fun n hn => by
        obtain ⟨y,hy,rfl⟩:=mem_map.mp hn
        exact hys y hy) (p := q) hq
  have hlast : (xs.map (·.1)).getLastD base∈base::(xs.map (·.1)++ys.map (·.1)) := by
    rcases mem_cons.mp (getLastD_mem_cons (l := xs.map (·.1)) (a := base)) with he | hmem
    · rw [he]
      exact mem_cons_self ..
    · exact mem_cons_of_mem _ (mem_append_left _ hmem)
  obtain ⟨d,hd,hreach⟩:=hlinks.reach hnodes hlast
  obtain ⟨k,hk,hstop,hno⟩:=exists_first (Stops h.ptr a) (p := h.freep) (d := d)
    (by rw [hreach]; exact (hiff _ hlast).mpr rfl)
  have hmem:=fun j => hi.iterate_mem hi.freep j
  rw [map_append] at hmem
  have hlen : (xs.map (·.1)++ys.map (·.1)).length=(xs++ys).length := by simp
  rw [freeLoop_spec (by omega) hstop hno,(hiff _ (hmem k)).mp hstop]

lemma linkRight_spec (hpa : Off p a) (hbase : base<a) (htop : h.brk<kernbase)
    (hend : a+unit*h.size a≤h.brk) (hnext : h.ptr p=(ys.map (·.1)).headD base)
    (hlinks : ∀ c l,ys.map (·.1)=c::l → Links h.ptr c l base)
    (hys : ∀ y∈ys,y=h.block y.1 ∧ y.1+y.2≤h.brk ∧ Off y.1 a) :
    ∃ n zs,joinRight (h.block a) ys=(a,n)::zs ∧ unit*(linkRight h a p).size a=n ∧
      (linkRight h a p).ptr a=(zs.map (·.1)).headD base ∧ Frame h (linkRight h a p) [a] := by
  have hadd : headerAdd a (h.size a)=a+unit*h.size a := headerAdd_of_lt (hend.trans_lt htop)
  have hskip : ∀ zs : List Block,headerAdd a (h.size a)≠h.ptr p → h.ptr p=(zs.map (·.1)).headD base →
      unit*(linkRight h a p).size a=unit*h.size a ∧
        (linkRight h a p).ptr a=(zs.map (·.1)).headD base ∧ Frame h (linkRight h a p) [a] := by
    intro zs hne hz
    rw [linkRight,if_neg hne,size_setPtr,ptr_setPtr (ptr_lt h p),hz]
    exact ⟨rfl,rfl,hz ▸ frame_setPtr h a _⟩
  cases ys with
  | nil =>
    refine ⟨_,[],rfl,hskip [] ?_ hnext⟩
    rw [hadd,hnext]
    simp only [map_nil,headD_nil]
    omega
  | cons y ys =>
    obtain ⟨hsize,hyend,hoff⟩:=hys y (mem_cons_self ..)
    have hnext' : h.ptr p=y.1 := hnext
    rw [joinRight]
    by_cases htouch : (h.block a).1+(h.block a).2=y.1
    · rw [if_pos htouch]
      have htouch' : a+unit*h.size a=y.1 := htouch
      have hy2 : y.2=unit*h.size y.1 := congrArg snd hsize
      have hsum : uintAdd (h.size a) (h.size y.1)=h.size a+h.size y.1 := uintAdd_of_lt (by
        simp only [kernbase,wordMod,unit] at *
        omega)
      have hlt : h.size a+h.size y.1<wordMod := by
        rw [← hsum]
        exact mod_lt _ (by decide)
      have hf:=frame_setSize h a (h.size a+h.size y.1)
      have hp' : (h.setSize a (h.size a+h.size y.1)).ptr p=y.1 := by
        rw [hf.ptr (by simpa using hpa),hnext']
      have hy' : (h.setSize a (h.size a+h.size y.1)).ptr y.1=(ys.map (·.1)).headD base := by
        rw [hf.ptr (by simpa using hoff)]
        exact (hlinks y.1 (ys.map (·.1)) rfl).next_eq
      have heq : linkRight h a p = (h.setSize a (h.size a+h.size y.1)).setPtr a ((ys.map (·.1)).headD base) := by
        rw [linkRight,if_pos (by rw [hadd,hnext',htouch']),hnext',hsum]
        dsimp only
        rw [hp',hy']
      have hhead : (ys.map (·.1)).headD base<wordMod := by
        rw [← hy']
        exact ptr_lt _ _
      refine ⟨(h.block a).2+y.2,ys,rfl,?_,?_,?_⟩
      · rw [heq,size_setPtr,size_setSize hlt,hy2,mul_add]
        rfl
      · rw [heq,ptr_setPtr hhead]
      · rw [heq]
        exact hf.trans (frame_setPtr _ a _)
    · rw [if_neg htouch]
      refine ⟨_,y::ys,rfl,hskip (y::ys) ?_ hnext⟩
      rw [hadd,hnext']
      exact htouch

lemma linkLeft_spec (hpa : Off p a) (hend : p+unit*h.size p≤a) (htop : a+unit*h.size a<kernbase) :
    Frame h (linkLeft h a p) [p] ∧ (p+unit*h.size p=a → (linkLeft h a p).size p=h.size p+h.size a ∧
        (linkLeft h a p).ptr p=h.ptr a) ∧
      (p+unit*h.size p≠a → (linkLeft h a p).size p=h.size p ∧ (linkLeft h a p).ptr p=a) := by
  have hadd : headerAdd p (h.size p)=p+unit*h.size p := headerAdd_of_lt (by omega)
  have ha : a<wordMod := by
    simp only [kernbase,wordMod,unit] at *
    omega
  by_cases htouch : p+unit*h.size p=a
  · have hsum : uintAdd (h.size p) (h.size a)=h.size p+h.size a := uintAdd_of_lt (by
      simp only [kernbase,wordMod,unit] at *
      omega)
    have hlt : h.size p+h.size a<wordMod := by
      rw [← hsum]
      exact mod_lt _ (by decide)
    have hf:=frame_setSize h p (h.size p+h.size a)
    have ha' : (h.setSize p (h.size p+h.size a)).ptr a=h.ptr a := hf.ptr (by simpa using hpa.symm)
    have heq : linkLeft h a p=(h.setSize p (h.size p+h.size a)).setPtr p (h.ptr a) := by
      rw [linkLeft,if_pos (hadd.trans htouch),hsum]
      dsimp only
      rw [ha']
    rw [heq]
    refine ⟨hf.trans (frame_setPtr _ p _),fun _ => ?_,fun hne => absurd htouch hne⟩
    rw [size_setPtr,size_setSize hlt,ptr_setPtr (ptr_lt h a)]
    exact ⟨rfl,rfl⟩
  · rw [linkLeft,if_neg (by rw [hadd]; exact htouch)]
    refine ⟨frame_setPtr h p a,fun he => absurd he htouch,fun _ => ?_⟩
    rw [size_setPtr,ptr_setPtr ha]
    exact ⟨rfl,rfl⟩

/-- The memory after `free` of the block at `a`, which lies between `xs` and `ys`: `p` is the node
before it, `n` its length and `zs` the blocks after it once it has joined its right neighbour. -/
structure LinkedIn (base a : ℕ) (h h' : Heap) (xs ys : List Block) (p n : ℕ) (zs : List Block) : Prop where
  pred : p=(xs.map (·.1)).getLastD base
  joined : joinRight (h.block a) ys=(a,n)::zs
  frame : Frame h h' [a,p]
  freep : h'.freep=p
  ptr : h'.ptr a=(zs.map (·.1)).headD base
  left : (p+unit*h.size p=a ∧ unit*h'.size p=unit*h.size p+n ∧ h'.ptr p=(zs.map (·.1)).headD base) ∨
    (p+unit*h.size p≠a ∧ h'.size p=h.size p ∧ unit*h'.size a=n ∧ h'.ptr p=a)

lemma HeapInv.pred_le (hi : HeapInv base start h (xs++ys) live) (hp : Place base start h)
    (ha : start≤a) (hxs : ∀ x∈xs,x.1+x.2≤a) : let p:=(xs.map (·.1)).getLastD base
    p+unit≤a ∧ p+unit*h.size p≤a := by
  intro p
  have hbelow:=hp.below
  have hmem : p∈base::xs.map (·.1) := getLastD_mem_cons
  rcases mem_cons.mp hmem with he | hmem
  · rw [he,hi.sentinel]
    omega
  obtain ⟨x,hx,he⟩:=mem_map.mp hmem
  have hx':=mem_append_left ys hx
  have hsize : x.2=unit*h.size x.1 := congrArg snd (hi.sizes x hx')
  have := hi.length x hx'
  have := hxs x hx
  rw [← he,← hsize]
  omega

lemma HeapInv.free_run (hi : HeapInv base start h (xs++ys) live) (hp : Place base start h)
    (ha : start≤a) (hpos : 0<h.size a) (hend : a+unit*h.size a≤h.brk)
    (hxs : ∀ x∈xs,x.1+x.2≤a) (hys : ∀ y∈ys,a+unit*h.size a≤y.1) :
    ∃ h' p n zs,Libc.free h (a+unit)=some h' ∧ LinkedIn base a h h' xs ys p n zs ∧ a+n≤h.brk := by
  obtain ⟨hpa,hpend⟩:=hi.pred_le hp ha hxs
  have hys' : ∀ y∈ys,a+unit≤y.1 := fun y hy => by
    have := hys y hy
    simp only [unit] at *
    omega
  obtain ⟨hlow,hhigh⟩:=links_append_headD.mp (map_append ▸ hi.links)
  have hnext:=hlow.next_getLastD
  have hloop:=hi.freeLoop hp ha hxs fun y hy => by
    have := hys' y hy
    simp only [unit] at *
    omega
  generalize hpdef : (xs.map (·.1)).getLastD base=p at *
  have hbase:=hp.base_lt ha
  obtain ⟨n,zs,hjoin,hsize1,hptr1,hf1⟩:=linkRight_spec (.inl hpa) hbase hp.top hend hnext hhigh
    fun y hy => ⟨hi.sizes y (mem_append_right _ hy),(hi.within y (mem_append_right _ hy)).2.2,.inr (hys' y hy)⟩
  have hn : a+n≤h.brk := by
    have := forall_joinRight (b := h.block a) joins_within ⟨ha,Nat.mul_pos (by decide) hpos,hend⟩
      (fun y hy => hi.within y (mem_append_right _ hy)) (a,n) (hjoin ▸ mem_cons_self ..)
    exact this.2.2
  have hsub : uintSub (a+unit) unit=a := by
    have := hp.top
    rw [uintSub_of_le (by omega) (by simp only [kernbase,wordMod,unit] at *; omega),Nat.add_sub_cancel]
  have hrun : Libc.free h (a+unit)=some {linkLeft (linkRight h a p) a p with freep := p} := by
    rw [Libc.free,if_neg (by simp only [unit]; omega),hsub]
    dsimp only
    rw [hloop,some_bind]
  have hoffp : ∀ q ∈ [a],Off p q := fun q hq => mem_singleton.mp hq ▸ .inl hpa
  have hoffa : ∀ q ∈ [p],Off a q := fun q hq => mem_singleton.mp hq ▸ .inr hpa
  obtain ⟨hf2,htouch,hgap⟩:=linkLeft_spec (h := linkRight h a p) (.inl hpa)
    (by rw [hf1.size hoffp]; exact hpend) (by have := hp.top; rw [hsize1]; omega)
  rw [hf1.size hoffp] at htouch hgap
  generalize linkLeft (linkRight h a p) a p=h2 at hrun hf2 htouch hgap
  generalize linkRight h a p=h1 at hsize1 hptr1 hf1 hf2 htouch hgap
  have hframe:=(hf1.mono (show [a] ⊆ [a,p] by simp)).trans (hf2.mono (show [p] ⊆ [a,p] by simp))
  have hsize2 : unit*h2.size a=n := by rw [hf2.size hoffa,hsize1]
  have hptr2 : h2.ptr a=(zs.map (·.1)).headD base := by rw [hf2.ptr hoffa,hptr1]
  refine ⟨{h2 with freep := p},p,n,zs,hrun,⟨hpdef.symm,hjoin,⟨hframe.brk,hframe.mem⟩,rfl,hptr2,?_⟩,hn⟩
  by_cases htest : p+unit*h.size p=a
  · obtain ⟨hs,hptr⟩:=htouch htest
    have hs' : unit*h2.size p=unit*h.size p+n := by rw [hs,Nat.mul_add,hsize1]
    exact .inl ⟨htest,hs',hptr.trans hptr1⟩
  · obtain ⟨hs,hptr⟩:=hgap htest
    exact .inr ⟨htest,hs,hsize2,hptr⟩

section
variable (hl : LinkedIn base a h h' xs ys p n zs)
include hl

lemma LinkedIn.shape (hi : HeapInv base start h (xs++ys) live) (hbase : base<a) :
    (p+unit*h.size p=a ∧ ∃ xs' q,xs=xs'++[q] ∧ q.1=p ∧ q.2=unit*h.size p ∧
        insertAt xs (h.block a) ys=xs'++(p,q.2+n)::zs) ∨
      (p+unit*h.size p≠a ∧ insertAt xs (h.block a) ys=xs++(a,n)::zs) := by
  have hpred:=hl.pred
  rcases eq_nil_or_concat xs with rfl | ⟨xs',q,rfl⟩
  · rw [map_nil,getLastD_nil] at hpred
    rw [hpred,hi.sentinel,insertAt_nil,hl.joined]
    exact .inr ⟨by omega,rfl⟩
  have hqp : p=q.1 := by simpa using hpred
  have hq2 : q.2=unit*h.size p := hqp ▸ congrArg snd (hi.sizes q (mem_append_left _ (by simp)))
  rw [concat_eq_append,insertAt_concat]
  by_cases htouch : q.1+q.2=(h.block a).1
  · rw [if_pos htouch,joinRight_shift htouch hl.joined,← hqp]
    rw [← hqp,hq2] at htouch
    exact .inl ⟨htouch,xs',q,rfl,hqp.symm,hq2,rfl⟩
  · rw [if_neg htouch,hl.joined]
    rw [← hqp,hq2] at htouch
    exact .inr ⟨htouch,by simp⟩

lemma LinkedIn.keep {q : ℕ} (ha : Off q a) (hp : Off q p) : h'.ptr q=h.ptr q ∧ h'.size q=h.size q := by
  have hoff : ∀ c ∈ [a,p],Off q c := by
    intro c hc
    rcases mem_cons.mp hc with rfl | hc
    · exact ha
    · exact mem_singleton.mp hc ▸ hp
  exact ⟨hl.frame.ptr hoff,hl.frame.size hoff⟩

lemma LinkedIn.frame_list : Frame h h' (a::base::(xs++ys).map (·.1)) := by
  have hpmem : p∈base::xs.map (·.1) := hl.pred ▸ getLastD_mem_cons
  refine hl.frame.mono fun c hc => ?_
  rcases mem_cons.mp hc with rfl | hc
  · exact mem_cons_self ..
  · rw [mem_singleton.mp hc,map_append]
    exact mem_cons_of_mem _ (cons_subset_cons _ (subset_append_left ..) hpmem)

lemma LinkedIn.inv (hi : HeapInv base start h (xs++ys) live) (hp : Place base start h) (ha : start≤a)
    (hpos : 0<h.size a) (hend : a+unit*h.size a≤h.brk) (hxs : ∀ x∈xs,x.1+x.2≤a)
    (hys : ∀ y∈ys,a+unit*h.size a≤y.1) (hlive : ∀ y∈live,Apart (h.block a) (h.heldBlock y)) :
      HeapInv base start h' (insertAt xs (h.block a) ys) live := by
  obtain ⟨hpa,hpend⟩:=hl.pred ▸ hi.pred_le hp ha hxs
  have hbase:=hp.base_lt ha
  have hpmem : p∈base::xs.map (·.1) := hl.pred ▸ getLastD_mem_cons
  obtain ⟨hsuffix,-⟩:=joinRight_suffix hl.joined
  -- the nodes that keep their headers
  have hzoff : ∀ z∈zs,Off z.1 a ∧ Off z.1 p := by
    intro z hz
    have := hys z (hsuffix.subset hz)
    simp only [Off,unit] at *
    omega
  have hxoff : ∀ q∈base::xs.map (·.1),q≠p → Off q a ∧ Off q p := by
    intro q hq hne
    have hsub : base::xs.map (·.1) ⊆ base::(xs++ys).map (·.1) := by
      rw [map_append]
      exact cons_subset_cons _ (subset_append_left ..)
    refine ⟨.inl ?_,hi.off hp (hsub hq) (hsub hpmem) hne⟩
    rcases mem_cons.mp hq with rfl | hmem
    · exact hp.below.trans ha
    obtain ⟨x,hx,rfl⟩:=mem_map.mp hmem
    have := hi.length x (mem_append_left _ hx)
    have := hxs x hx
    omega
  have hheld : ∀ y∈live,h'.heldBlock y=h.heldBlock y := by
    intro y hy
    rw [Heap.heldBlock,Heap.heldBlock,Heap.block,Heap.block,hl.frame_list.size (hi.off_held hp hy hpos (hlive y hy))]
  obtain ⟨hlow,hhigh⟩:=links_append_headD.mp (map_append ▸ hi.links)
  have htail : ∀ c l,zs.map (·.1)=c::l → Links h'.ptr c l base := by
    intro c l hzl
    obtain ⟨us,hus⟩:=hsuffix
    have hlinks:=hi.links
    rw [← hus,map_append,map_append,← append_assoc,hzl] at hlinks
    refine (links_append.mp hlinks).2.congr fun q hq => ?_
    rw [← hzl] at hq
    obtain ⟨z,hz,rfl⟩:=mem_map.mp hq
    exact (hl.keep (hzoff z hz).1 (hzoff z hz).2).1
  have hnodup : (base::xs.map (·.1)).Nodup := by
    have hs:=hi.sorted hp
    rw [map_append,← cons_append] at hs
    exact (pairwise_append.mp hs).1.imp fun h => ne_of_lt h
  have hhead : Links h'.ptr base (xs.map (·.1)) (h'.ptr p) := by
    refine hlow.relink hnodup (fun q hq hne => ?_) (by rw [← hl.pred])
    rw [← hl.pred] at hne
    obtain ⟨h1,h2⟩:=hxoff q hq hne
    exact (hl.keep h1 h2).1
  have hkeepx : ∀ x∈xs,x.1≠p → x=h'.block x.1 := by
    intro x hx hne
    obtain ⟨h1,h2⟩:=hxoff x.1 (node_mem hx) hne
    rw [Heap.block,(hl.keep h1 h2).2]
    exact hi.sizes x (mem_append_left _ hx)
  have hkeepz : ∀ z∈zs,z=h'.block z.1 := by
    intro z hz
    rw [Heap.block,(hl.keep (hzoff z hz).1 (hzoff z hz).2).2]
    exact hi.sizes z (mem_append_right _ (hsuffix.subset hz))
  have hwithin : ∀ z∈insertAt xs (h.block a) ys,start≤z.1 ∧ 0<z.2 ∧ z.1+z.2≤h'.brk := by
    rw [hl.frame.brk]
    exact forall_insertAt joins_within (fun x hx => hi.within x (mem_append_left _ hx))
      ⟨ha,mul_pos (by decide) hpos,hend⟩ fun y hy => hi.within y (mem_append_right _ hy)
  have hsentinel : h'.size base=0 := by
    by_cases hbp : base=p
    · rcases hl.left with ⟨htouch,-,-⟩ | ⟨-,hs,-,-⟩
      · rw [← hbp,hi.sentinel] at htouch
        omega
      · rw [hbp,hs,← hbp,hi.sentinel]
    · obtain ⟨h1,h2⟩:=hxoff base (mem_cons_self ..) hbp
      rw [(hl.keep h1 h2).2,hi.sentinel]
  have hnodes : (insertAt xs (h.block a) ys).map (·.1)=xs.map (·.1) ++
        (if p+unit*h.size p=a then zs.map (·.1) else a::zs.map (·.1)) ∧
      ∀ x∈insertAt xs (h.block a) ys,x=h'.block x.1 := by
    rcases hl.shape hi hbase with ⟨htouch,xs',q,rfl,hqp,hq2,heq⟩ | ⟨hgap,heq⟩
    · rw [heq,if_pos htouch]
      refine ⟨by simp [hqp],fun x hx => ?_⟩
      rcases mem_append.mp hx with hx | hx
      · refine hkeepx x (mem_append_left _ hx) fun hxp => ?_
        rw [map_append,← cons_append,nodup_append] at hnodup
        exact hnodup.2.2 x.1 (node_mem hx) q.1 (by simp) (hxp.trans hqp.symm)
      rcases mem_cons.mp hx with rfl | hx
      · rcases hl.left with ⟨-,hs,-⟩ | ⟨hgap,-⟩
        · rw [Heap.block,hs,hq2]
        · exact absurd htouch hgap
      · exact hkeepz x hx
    rw [heq,if_neg hgap]
    obtain ⟨-,hs,hsa,-⟩:=hl.left.resolve_left fun h1 => hgap h1.1
    refine ⟨by simp,fun x hx => ?_⟩
    rcases mem_append.mp hx with hx | hx
    · by_cases hxp : x.1=p
      · rw [Heap.block,hxp,hs,← hxp]
        exact hi.sizes x (mem_append_left _ hx)
      · exact hkeepx x hx hxp
    rcases mem_cons.mp hx with rfl | hx
    · rw [Heap.block,hsa]
    · exact hkeepz x hx
  refine ⟨?_,hsentinel,hnodes.2,?_,gapped_insertAt hi.gapped hxs hys,hwithin,fun y hy => ?_,?_,fun x hx y hy => ?_⟩
  · rw [hnodes.1,links_append_headD]
    rcases hl.left with ⟨htouch,-,hptr⟩ | ⟨hgap,-,-,hptr⟩
    · rw [if_pos htouch,← hptr]
      exact ⟨hhead,htail⟩
    rw [if_neg hgap]
    refine ⟨by rw [headD_cons,← hptr]; exact hhead,fun c l he => ?_⟩
    rw [List.cons.injEq] at he
    rw [← he.1,← he.2,← nil_append (zs.map (·.1)),links_append_headD]
    exact ⟨hl.ptr,htail⟩
  · rw [hl.freep,hnodes.1]
    exact cons_subset_cons _ (subset_append_left ..) hpmem
  · rw [hheld y hy,hl.frame.brk]
    exact hi.held y hy
  · exact hi.apart.imp_of_mem fun hx hy hap => by rw [hheld _ hx,hheld _ hy]; exact hap
  · rw [hheld y hy]
    have hlen : 0<(h.heldBlock y).2 := by
      have := (hi.held y hy).2.1
      simp only [unit] at this
      omega
    exact forall_insertAt (fun _ _ _ _ _ => by unfold Apart at *; omega)
      (fun x hx => hi.free x (mem_append_left _ hx) y hy) (hlive y hy)
      (fun x hx => hi.free x (mem_append_right _ hx) y hy) x hx

end

end

end Auxv6.Libc
