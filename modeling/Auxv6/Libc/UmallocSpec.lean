import Auxv6.Libc.UmallocFree

/-!
# `malloc`

A new block from `sbrk` is put into the list by `free`, so that the second scan ends there at the latest.
-/

namespace Auxv6.Libc
open Machine Lib.ByteMemory Lib.FreeList Function List Nat Prod

def KeepsHeld (h h' : Heap) (live : List (ℕ × ℕ)) : Prop :=
  ∀ y∈live,h'.heldBlock y=h.heldBlock y ∧
    ∀ x,(h.heldBlock y).1≤x → x<(h.heldBlock y).1+(h.heldBlock y).2 → h'.mem x=h.mem x

structure Spare (start : ℕ) (h : Heap) (fs : List Block) (live : List (ℕ × ℕ)) (a : ℕ) : Prop where
  low : start≤a
  pos : 0<h.size a
  top : a+unit*h.size a≤h.brk
  free : ∀ x∈fs,Apart x (h.block a)
  held : ∀ y∈live,Apart (h.block a) (h.heldBlock y)

section

variable {base start a p q n : ℕ} {h h' h'' : Heap} {fs xs ys : List Block} {live : List (ℕ × ℕ)}

lemma KeepsHeld.refl (h : Heap) (live : List (ℕ × ℕ)) : KeepsHeld h h live := fun _ _ => ⟨rfl,fun _ _ _ => rfl⟩

lemma KeepsHeld.trans (h1 : KeepsHeld h h' live) (h2 : KeepsHeld h' h'' live) : KeepsHeld h h'' live := by
  intro y hy
  obtain ⟨hb1,hm1⟩:=h1 y hy
  obtain ⟨hb2,hm2⟩:=h2 y hy
  refine ⟨hb2.trans hb1,fun x hlo hhi => ?_⟩
  rw [hm2 x (hb1 ▸ hlo) (hb1 ▸ hhi),hm1 x hlo hhi]

lemma keepsHeld_of_mem (hroom : ∀ y∈live,unit≤(h.heldBlock y).2)
    (hmem : ∀ y∈live,∀ x,(h.heldBlock y).1≤x → x<(h.heldBlock y).1+(h.heldBlock y).2 →
      h'.mem x=h.mem x) : KeepsHeld h h' live := by
  intro y hy
  refine ⟨?_,hmem y hy⟩
  have hsize : h'.size (y.1-unit)=h.size (y.1-unit) := load32_congr fun x h1 h2 => by
    have hr:=hroom y hy
    refine hmem y hy x ?_ ?_ <;> simp only [Heap.heldBlock,Heap.block,unit] at * <;> omega
  rw [Heap.heldBlock,Heap.heldBlock,Heap.block,Heap.block,hsize]

section
variable (hi : HeapInv base start h fs live)
include hi

lemma HeapInv.heldRoom : ∀ y∈live,unit≤(h.heldBlock y).2 :=
  fun y hy => by
    have := (hi.held y hy).2.1
    omega

lemma HeapInv.congr (hnodes : ∀ q∈base::fs.map (·.1),h'.ptr q=h.ptr q ∧ h'.size q=h.size q)
    (hheld : ∀ y∈live,h'.heldBlock y=h.heldBlock y) (hfreep : h'.freep=h.freep) (hbrk : h.brk≤h'.brk) :
    HeapInv base start h' fs live := by
  refine ⟨hi.links.congr fun q hq => (hnodes q hq).1,?_,fun x hx => ?_,hfreep ▸ hi.freep,hi.gapped,
    fun x hx => ?_,fun y hy => ?_,?_,fun x hx y hy => ?_⟩
  · rw [(hnodes base (mem_cons_self ..)).2,hi.sentinel]
  · rw [Heap.block,(hnodes x.1 (node_mem hx)).2]
    exact hi.sizes x hx
  · obtain ⟨h1,h2,h3⟩:=hi.within x hx
    exact ⟨h1,h2,h3.trans hbrk⟩
  · rw [hheld y hy]
    obtain ⟨h1,h2,h3⟩:=hi.held y hy
    exact ⟨h1,h2,h3.trans hbrk⟩
  · exact hi.apart.imp_of_mem fun hx hy hap => by rw [hheld _ hx,hheld _ hy]; exact hap
  · rw [hheld y hy]
    exact hi.free x hx y hy

lemma HeapInv.hold (hs : Spare start h fs live a)
    (hn : n+unit≤unit*h.size a) : HeapInv base start h fs ((a+unit,n)::live) := by
  have hblock : h.heldBlock (a+unit,n)=h.block a := by
    rw [Heap.heldBlock,Nat.add_sub_cancel]
  refine ⟨hi.links,hi.sentinel,hi.sizes,hi.freep,hi.gapped,hi.within,fun y hy => ?_,?_,fun x hx y hy => ?_⟩
  · rcases mem_cons.mp hy with rfl | hy
    · rw [hblock]
      exact ⟨Nat.add_le_add_right hs.low _,hn,hs.top⟩
    · exact hi.held y hy
  · refine pairwise_cons.mpr ⟨fun y hy => ?_,hi.apart⟩
    exact hs.held y hy
  · rcases mem_cons.mp hy with rfl | hy
    · rw [hblock]
      exact hs.free x hx
    · exact hi.free x hx y hy

lemma HeapInv.release {live' : List (ℕ × ℕ)} (hsub : live'.Sublist live) : HeapInv base start h fs live' :=
  ⟨hi.links,hi.sentinel,hi.sizes,hi.freep,hi.gapped,hi.within,fun y hy => hi.held y (hsub.subset hy),
    hi.apart.sublist hsub,fun x hx y hy => hi.free x hx y (hsub.subset hy)⟩

end

lemma Frame.keepsHeld {hs : List ℕ} (hf : Frame h h' hs) (hi : HeapInv base start h fs live)
    (hs_apart : ∀ q∈hs,∀ y∈live,Apart (q,unit) (h.heldBlock y)) : KeepsHeld h h' live := by
  refine keepsHeld_of_mem hi.heldRoom fun y hy x hlo hhi => hf.mem x fun q hq => ?_
  have := hs_apart q hq y hy
  simp only [Apart] at this
  omega

lemma HeapInv.node_apart (hi : HeapInv base start h fs live) (hp : Place base start h)
    (hq : q∈base::fs.map (·.1)) : ∀ y∈live,Apart (q,unit) (h.heldBlock y) := by
  intro y hy
  rcases mem_cons.mp hq with rfl | hq
  · have := (hi.held y hy).1
    have := hp.below
    simp only [Apart,Heap.block,Heap.heldBlock]
    omega
  obtain ⟨z,hz,rfl⟩:=mem_map.mp hq
  have := hi.free z hz y hy
  have := hi.length z hz
  simp only [Apart] at *
  omega

lemma Spare.node_apart (hs : Spare start h fs live a) : ∀ y∈live,Apart (a,unit) (h.heldBlock y) := by
  intro y hy
  have := hs.held y hy
  have := hs.pos
  simp only [Apart,Heap.block,unit] at *
  omega

lemma HeapInv.free_spare (hi : HeapInv base start h fs live) (hp : Place base start h)
    (hs : Spare start h fs live a) :
    ∃ h' fs',Libc.free h (a+unit)=some h' ∧ HeapInv base start h' fs' live ∧ Place base start h' ∧
      KeepsHeld h h' live ∧ ∃ z∈fs',(h.block a).2≤z.2 := by
  obtain ⟨xs,ys,rfl,hxs,hys⟩:=exists_place hi.gapped hs.free
  obtain ⟨h',p,n,zs,hrun,hl,-⟩:=hi.free_run hp hs.low hs.pos hs.top hxs hys
  have hf:=hl.frame_list
  refine ⟨h',_,hrun,hl.inv hi hp hs.low hs.pos hs.top hxs hys hs.held,
    ⟨hp.pos,hp.below,hf.brk ▸ hp.brk,hf.brk ▸ hp.top⟩,
    hf.keepsHeld hi fun q hq => (mem_cons.mp hq).elim (fun he => he ▸ hs.node_apart) (hi.node_apart hp),?_⟩
  have hroom : (h.block a).2≤n := (joinRight_suffix hl.joined).2
  rcases hl.shape hi (hp.base_lt hs.low) with ⟨-,xs',q,-,-,-,heq⟩ | ⟨-,heq⟩
  · exact ⟨(p,q.2+n),by rw [heq]; simp,hroom.trans (Nat.le_add_left ..)⟩
  · exact ⟨(a,n),by rw [heq]; simp,hroom⟩

lemma HeapInv.nodup (hi : HeapInv base start h fs live) (hp : Place base start h) :
    (base::fs.map (·.1)).Nodup := (hi.sorted hp).imp fun hlt => ne_of_lt hlt

variable {z : Block}

lemma HeapInv.spare_of_node (hi : HeapInv base start h fs live) (hz : z∈fs) {fs' : List Block}
    (hrest : ∀ x∈fs',Apart x z) (hsize : h'.size z.1=h.size z.1) (hk : KeepsHeld h h' live)
    (hbrk : h'.brk=h.brk) : Spare start h' fs' live z.1 := by
  obtain ⟨h1,h₂,h3⟩:=hi.within z hz
  have hblock : h'.block z.1=z := by
    rw [Heap.block,hsize]
    exact (hi.sizes z hz).symm
  have h2 : z.2=unit*h.size z.1 := congrArg snd (hi.sizes z hz)
  refine ⟨h1,?_,?_,fun x hx => hblock ▸ hrest x hx,fun y hy => ?_⟩
  · rw [hsize]
    exact Nat.pos_of_mul_pos_left (h2 ▸ h₂)
  · rw [hsize,← h2,hbrk]
    exact h3
  · rw [hblock,(hk y hy).1]
    exact hi.free z hz y hy

lemma HeapInv.unlink (hi : HeapInv base start h (xs++z::ys) live) (hp : Place base start h)
    (hq : q∈base::(xs++z::ys).map (·.1)) (hnext : h.ptr q=z.1) (hf : Frame h h' [q])
    (hptr : h'.ptr q=h.ptr z.1) (hsize : h'.size q=h.size q) (hfreep : h'.freep=q) :
    HeapInv base start h' (xs++ys) live ∧ KeepsHeld h h' live ∧ Spare start h' (xs++ys) live z.1 := by
  have hk : KeepsHeld h h' live := hf.keepsHeld hi fun c hc => mem_singleton.mp hc ▸ hi.node_apart hp hq
  have hnodup:=hi.nodup hp
  have hlinks:=hi.links
  have hqmem:=hq
  rw [map_append,map_cons] at hnodup hlinks hqmem
  have hpred : q=(xs.map (·.1)).getLastD base := hlinks.pred_eq hnodup hqmem hnext
  obtain ⟨hfirst,hsecond⟩:=links_append.mp hlinks
  have hqx : q∈base::xs.map (·.1) := hpred ▸ getLastD_mem_cons
  have hkeep : ∀ c∈base::(xs++z::ys).map (·.1),c≠q → h'.ptr c=h.ptr c ∧ h'.size c=h.size c := by
    intro c hc hne
    have hoff : ∀ e ∈ [q],Off c e := fun e he => mem_singleton.mp he ▸ hi.off hp hc hq hne
    exact ⟨hf.ptr hoff,hf.size hoff⟩
  have hsizes : ∀ c∈base::(xs++z::ys).map (·.1),h'.size c=h.size c := by
    intro c hc
    by_cases hcq : c=q
    · rw [hcq,hsize]
    · exact (hkeep c hc hcq).2
  have hsub : ∀ x∈xs++ys,x∈xs++z::ys := fun x hx =>
    (mem_append.mp hx).elim (mem_append_left _) fun hy => mem_append_right _ (mem_cons_of_mem _ hy)
  have hxsub : base::xs.map (·.1) ⊆ base::(xs++z::ys).map (·.1) := by
    rw [map_append]
    exact cons_subset_cons _ (subset_append_left ..)
  have hrest : ∀ x∈xs++ys,Apart x z := by
    intro x hx
    have hgap:=hi.gapped
    rw [Gapped,pairwise_append,pairwise_cons] at hgap
    rcases mem_append.mp hx with hx | hx
    · exact .inl (hgap.2.2 x hx z (mem_cons_self ..)).le
    · exact .inr (hgap.2.1.1 x hx).le
  refine ⟨⟨?_,?_,fun x hx => ?_,?_,?_,fun x hx => ?_,fun y hy => ?_,?_,fun x hx y hy => ?_⟩,hk,
    hi.spare_of_node (by simp) hrest (hsizes z.1 (by simp)) hk hf.brk⟩
  · -- the node before leads to the node after
    rw [map_append,links_append_headD]
    refine ⟨hfirst.relink (hnodup.sublist (by simp)) (fun c hc hne => ?_) ?_,fun c l he => ?_⟩
    · rw [← hpred] at hne
      exact (hkeep c (hxsub hc) hne).1
    · rw [← hpred,hptr]
      exact hsecond.next_eq
    rw [he] at hsecond
    refine hsecond.2.congr fun e hmem => ?_
    have hys : e∈ys.map (·.1) := he ▸ hmem
    refine (hkeep e (by rw [map_append]; simp [hys]) ?_).1
    rintro rfl
    rw [← cons_append,nodup_append] at hnodup
    exact hnodup.2.2 e hqx e (mem_cons_of_mem _ hys) rfl
  · rw [hsizes base (mem_cons_self ..),hi.sentinel]
  · rw [Heap.block,hsizes x.1 (node_mem (hsub x hx))]
    exact hi.sizes x (hsub x hx)
  · rw [hfreep,map_append]
    exact cons_subset_cons _ (subset_append_left ..) hqx
  · exact hi.gapped.sublist (by simp)
  · rw [hf.brk]
    exact hi.within x (hsub x hx)
  · rw [(hk y hy).1,hf.brk]
    exact hi.held y hy
  · exact hi.apart.imp_of_mem fun hx hy hap => by rw [(hk _ hx).1,(hk _ hy).1]; exact hap
  · rw [(hk y hy).1]
    exact hi.free x (hsub x hx) y hy

lemma HeapInv.cut (hi : HeapInv base start h (xs++z::ys) live) (hp : Place base start h)
    (hn : 0<n) (hlt : n<h.size z.1) (ha : a=z.1+unit*(h.size z.1-n)) (hf : Frame h h' [z.1,a])
    (hptr : h'.ptr z.1=h.ptr z.1) (hsize : h'.size z.1=h.size z.1-n) (hsizea : h'.size a=n)
    (hq : h'.freep∈base::(xs++z::ys).map (·.1)) :
    HeapInv base start h' (xs++(z.1,z.2-unit*n)::ys) live ∧ KeepsHeld h h' live ∧
      Spare start h' (xs++(z.1,z.2-unit*n)::ys) live a := by
  have hz : z∈xs++z::ys := by simp
  have hz2 : z.2=unit*h.size z.1 := congrArg snd (hi.sizes z hz)
  obtain ⟨hzlow,-,hztop⟩:=hi.within z hz
  have hacut : a=z.1+(z.2-unit*n) ∧ a+unit*n=z.1+z.2 ∧ z.1+unit≤a := by
    simp only [unit] at *
    omega
  have hapart : ∀ y∈live,Apart (a,unit) (h.heldBlock y) := by
    intro y hy
    have := hi.free z hz y hy
    simp only [Apart,unit] at *
    omega
  have hk : KeepsHeld h h' live := hf.keepsHeld hi fun c hc => by
    rcases mem_cons.mp hc with rfl | hc
    · exact hi.node_apart hp (node_mem hz)
    · exact mem_singleton.mp hc ▸ hapart
  have hgap:=hi.gapped
  rw [Gapped,pairwise_append,pairwise_cons] at hgap
  obtain ⟨hgx,⟨hzy,hgy⟩,hxz⟩:=hgap
  -- the other nodes lie outside the block
  have hkeep : ∀ c∈base::(xs++z::ys).map (·.1),c≠z.1 → h'.ptr c=h.ptr c ∧ h'.size c=h.size c := by
    intro c hc hne
    have hoffa : Off c a := by
      rcases mem_cons.mp hc with rfl | hc
      · have := hp.below
        exact .inl (by omega)
      obtain ⟨x,hx,rfl⟩:=mem_map.mp hc
      have := hi.gapped.gap hx hz fun he => hne (by rw [he])
      simp only [Off,unit] at *
      omega
    have hoff : ∀ e ∈ [z.1,a],Off c e := by
      intro e he
      rcases mem_cons.mp he with rfl | he
      · exact hi.off hp hc (node_mem hz) hne
      · exact mem_singleton.mp he ▸ hoffa
    exact ⟨hf.ptr hoff,hf.size hoff⟩
  have hptrs : ∀ c∈base::(xs++z::ys).map (·.1),h'.ptr c=h.ptr c := by
    intro c hc
    by_cases hcz : c=z.1
    · rw [hcz,hptr]
    · exact (hkeep c hc hcz).1
  have hnodes : (xs++(z.1,z.2-unit*n)::ys).map (·.1)=(xs++z::ys).map (·.1) := by simp
  have hold : ∀ x∈xs++(z.1,z.2-unit*n)::ys, x=(z.1,z.2-unit*n) ∨ x∈xs++z::ys ∧ x.1≠z.1 := by
    intro x hx
    rcases mem_append.mp hx with hx | hx
    · have := hxz x hx z (mem_cons_self ..)
      exact .inr ⟨mem_append_left _ hx,by omega⟩
    rcases mem_cons.mp hx with rfl | hx
    · exact .inl rfl
    · have := hzy x hx
      exact .inr ⟨mem_append_right _ (mem_cons_of_mem _ hx),by omega⟩
  have hblock : h'.block a=(a,unit*n) := by rw [Heap.block,hsizea]
  refine ⟨⟨?_,?_,fun x hx => ?_,hnodes ▸ hq,?_,fun x hx => ?_,fun y hy => ?_,?_,fun x hx y hy => ?_⟩,hk,
    ⟨by omega,by omega,by rw [hsizea,hf.brk]; omega,fun x hx => ?_,fun y hy => ?_⟩⟩
  · rw [hnodes]
    exact hi.links.congr hptrs
  · rw [(hkeep base (mem_cons_self ..) (hp.base_lt hzlow).ne).2,hi.sentinel]
  · rcases hold x hx with rfl | ⟨hx,hne⟩
    · rw [Heap.block,hsize]
      rw [hz2,Nat.mul_sub]
    · rw [Heap.block,(hkeep x.1 (node_mem hx) hne).2]
      exact hi.sizes x hx
  · refine pairwise_append.mpr ⟨hgx,pairwise_cons.mpr ⟨fun y hy => ?_,hgy⟩,fun x hx y hy => ?_⟩
    · have := hzy y hy
      omega
    · rcases mem_cons.mp hy with rfl | hy
      · exact hxz x hx z (mem_cons_self ..)
      · exact hxz x hx y (mem_cons_of_mem _ hy)
  · rw [hf.brk]
    rcases hold x hx with rfl | ⟨hx,-⟩
    · simp only [unit] at *
      omega
    · exact hi.within x hx
  · rw [(hk y hy).1,hf.brk]
    exact hi.held y hy
  · exact hi.apart.imp_of_mem fun hx hy hap => by rw [(hk _ hx).1,(hk _ hy).1]; exact hap
  · rw [(hk y hy).1]
    rcases hold x hx with rfl | ⟨hx,-⟩
    · have := hi.free z hz y hy
      simp only [Apart] at *
      omega
    · exact hi.free x hx y hy
  · rw [hblock]
    rcases hold x hx with rfl | ⟨hx,hne⟩
    · exact .inl (by dsimp only; omega)
    · have := hi.gapped.gap hx hz fun he => hne (by rw [he])
      simp only [Apart]
      omega
  · rw [hblock,(hk y hy).1]
    have := hi.free z hz y hy
    simp only [Apart] at *
    omega

lemma HeapInv.takeBlock_spec (hi : HeapInv base start h fs live) (hp : Place base start h) (hn : 0<n)
    (hpmem : p∈base::fs.map (·.1)) (hq : q∈base::fs.map (·.1)) (hnext : h.ptr q=p) (hfit : n≤h.size p) :
    ∃ a h' fs',takeBlock h n q p=(a+unit,h') ∧ HeapInv base start h' fs' live ∧
      Place base start h' ∧ KeepsHeld h h' live ∧ Spare start h' fs' live a ∧ h'.size a=n := by
  have hne : p≠base := by
    rintro rfl
    rw [hi.sentinel] at hfit
    omega
  obtain ⟨z,hz,rfl⟩:=mem_map.mp ((mem_cons.mp hpmem).resolve_left hne)
  obtain ⟨xs,ys,rfl⟩:=append_of_mem hz
  have hz2 : z.2=unit*h.size z.1 := congrArg snd (hi.sizes z hz)
  obtain ⟨-,-,hztop⟩:=hi.within z hz
  have htop:=hp.top
  have hplace : ∀ h' : Heap,h'.brk=h.brk → Place base start h' := fun h' hb =>
    ⟨hp.pos,hp.below,hb ▸ hp.brk,hb ▸ hp.top⟩
  have hptr1 : headerAdd z.1 1=z.1+unit := by
    rw [headerAdd_of_lt (by simp only [unit] at *; omega),mul_one]
  by_cases hexact : h.size z.1=n
  · have hrun : takeBlock h n q z.1=(z.1+unit,{h.setPtr q (h.ptr z.1) with freep := q}) := by
      rw [takeBlock,if_pos hexact,hptr1]
    have hf:=frame_setPtr h q (h.ptr z.1)
    have h1 : (h.setPtr q (h.ptr z.1)).ptr q=h.ptr z.1 := ptr_setPtr (ptr_lt h z.1)
    have h2 : (h.setPtr q (h.ptr z.1)).size q=h.size q := size_setPtr
    generalize h.setPtr q (h.ptr z.1)=h1' at hrun hf h1 h2
    have hf' : Frame h {h1' with freep := q} [q] := ⟨hf.brk,hf.mem⟩
    obtain ⟨hi',hk,hs⟩:=hi.unlink hp hq hnext hf' h1 h2 rfl
    refine ⟨z.1,{h1' with freep := q},xs++ys,hrun,hi',hplace _ hf.brk,hk,hs,?_⟩
    by_cases hzq : z.1=q
    · rw [← hexact,hzq]
      exact h2
    · have hoff : ∀ e ∈ [q],Off z.1 e := fun e he =>
        mem_singleton.mp he ▸ hi.off hp hpmem hq hzq
      exact (hf'.size hoff).trans hexact
  have hlt : n<h.size z.1 := lt_of_le_of_ne hfit (Ne.symm hexact)
  generalize ha : z.1+unit*(h.size z.1-n)=a
  have haz : z.1+unit≤a ∧ a+unit*n=z.1+z.2 := by
    simp only [unit] at *
    omega
  have hf1:=frame_setSize h z.1 (h.size z.1-n)
  have hs1 : (h.setSize z.1 (h.size z.1-n)).size z.1=h.size z.1-n :=
    size_setSize ((sub_le ..).trans_lt (size_lt h z.1))
  have hp1 : (h.setSize z.1 (h.size z.1-n)).ptr z.1=h.ptr z.1 := ptr_setSize
  have hrun : takeBlock h n q z.1 = (a+unit,{ (h.setSize z.1 (h.size z.1-n)).setSize a n with freep := q }) := by
    have hadd : headerAdd z.1 (h.size z.1-n)=a := by
      rw [headerAdd_of_lt (by rw [ha]; simp only [unit] at *; omega),ha]
    have hadd1 : headerAdd a 1=a+unit := by
      rw [headerAdd_of_lt (by simp only [unit] at *; omega),mul_one]
    rw [takeBlock,if_neg hexact]
    dsimp only
    rw [hs1,hadd,hadd1]
  generalize h.setSize z.1 (h.size z.1-n)=h1 at hf1 hs1 hp1 hrun
  have hf2:=frame_setSize h1 a n
  have hs2 : (h1.setSize a n).size a=n := size_setSize (hlt.trans (size_lt h z.1))
  generalize h1.setSize a n=h2 at hf2 hs2 hrun
  have hoff : ∀ e ∈ [a],Off z.1 e := fun e he => mem_singleton.mp he ▸ .inl haz.1
  have hframe:=(hf1.mono (show [z.1] ⊆ [z.1,a] by simp)).trans (hf2.mono (show [a] ⊆ [z.1,a] by simp))
  have hf' : Frame h {h2 with freep := q} [z.1,a] := ⟨hframe.brk,hframe.mem⟩
  obtain ⟨hi',hk,hs⟩:=hi.cut hp hn hlt ha.symm hf' ((hf2.ptr hoff).trans hp1) ((hf2.size hoff).trans hs1)
    hs2 hq
  exact ⟨a,{h2 with freep := q},_,hrun,hi',hplace _ hframe.brk,hk,hs,hs2⟩

lemma sbrk_pos {sz k : ℕ} (hsz : sz<kernbase) (hk : 0<k) (hk' : k<2^31) (ok : Bool) :
    sbrk sz (k : ℤ) ok=(-1,sz) ∨ (sbrk sz (k : ℤ) ok=((sz : ℤ),sz+k) ∧ sz+k<kernbase) := by
  have hnew : Vm.uintAddInt sz (k : ℤ)=sz+k := by
    rw [Vm.uintAddInt]
    simp only [kernbase,wordMod] at *
    omega
  have hint : uintToInt sz=sz := uintToInt_of_lt hsz
  have hsbrk : sbrk sz (k : ℤ) ok =
      if allocSize sz (sz+k) ok=0 then (-1,sz) else ((sz : ℤ),allocSize sz (sz+k) ok) := by
    rw [sbrk,hnew,hint]
    exact if_pos (by omega)
  by_cases hbig : kernbase ≤ sz+k
  · have : allocSize sz (sz+k) ok=0 := if_pos hbig
    rw [hsbrk,this]
    exact .inl rfl
  have hsize : allocSize sz (sz+k) ok=if ok then sz+k else 0 := by
    rw [allocSize,if_neg hbig,if_neg (by omega)]
  rw [hsbrk,hsize]
  cases ok with
  | false => exact .inl rfl
  | true =>
    rw [if_pos rfl,if_neg (by omega)]
    exact .inr ⟨rfl,not_le.mp hbig⟩

def maxUnits : ℕ := 2^28-1

lemma HeapInv.morecore_spec (hi : HeapInv base start h fs live) (hp : Place base start h) (hn : 0<n)
    (hmax : n ≤ maxUnits) (ok : Bool) : morecore h n ok=some (none,h) ∨
      ∃ h' fs',morecore h n ok=some (some h'.freep,h') ∧ HeapInv base start h' fs' live ∧
      Place base start h' ∧ KeepsHeld h h' live ∧ ∃ z∈fs',n≤h'.size z.1 := by
  generalize hnu : (if n < morecoreMinHeaders then morecoreMinHeaders else n)=nu
  have hbounds : n≤nu ∧ nu ≤ maxUnits := by
    rw [← hnu]
    split <;> simp only [morecoreMinHeaders,maxUnits,unit] at * <;> omega
  have hbytes : nu*unit%wordMod=nu*unit := mod_eq_of_lt (by simp only [maxUnits,unit,wordMod] at *; omega)
  have hint : uintToInt (nu*unit)=((nu*unit : ℕ) : ℤ) := uintToInt_of_lt (by simp only [maxUnits,unit] at *; omega)
  rw [morecore,hnu]
  dsimp only
  rw [hbytes,hint]
  have hpos : 0<nu*unit ∧ nu*unit<2^31 := by
    simp only [maxUnits,unit] at *
    omega
  rcases sbrk_pos hp.top hpos.1 hpos.2 ok with heq | ⟨heq,hlt⟩
  · rw [heq]
    exact .inl rfl
  right
  rw [heq]
  have hbrk:=hp.brk
  have hcast : ((h.brk : ℤ)%wordMod).toNat=h.brk := by
    simp only [wordMod,kernbase] at *
    omega
  have hadd : headerAdd h.brk 1=h.brk+unit := by
    rw [headerAdd_of_lt (by simp only [unit] at *; omega),mul_one]
  rw [if_neg (by omega),hcast,hadd]
  -- the new block lies above everything
  have hnulog : nu<wordMod := by
    simp only [maxUnits,wordMod] at *
    omega
  have hs0 : (Heap.setSize {h with brk := h.brk+nu*unit} h.brk nu).size h.brk=nu := size_setSize hnulog
  have hf0:=frame_setSize {h with brk := h.brk+nu*unit} h.brk nu
  have hfreep : (Heap.setSize {h with brk := h.brk+nu*unit} h.brk nu).freep=h.freep := rfl
  generalize Heap.setSize {h with brk := h.brk+nu*unit} h.brk nu=h0 at hs0 hf0 hfreep ⊢
  have hbrk0 : h0.brk=h.brk+nu*unit := hf0.brk
  have hmem : ∀ x<h.brk,h0.mem x=h.mem x := fun x hx => hf0.mem x fun q hq => by
    rw [mem_singleton.mp hq]
    exact .inl hx
  have hk0 : KeepsHeld h h0 live := keepsHeld_of_mem hi.heldRoom fun y hy x _ hhi =>
    hmem x (hhi.trans_le (hi.held y hy).2.2)
  have hoff : ∀ q∈base::fs.map (·.1),∀ e ∈ [h.brk],Off q e := by
    intro q hq e he
    rw [mem_singleton.mp he]
    rcases mem_cons.mp hq with rfl | hq
    · exact .inl (hp.below.trans hbrk)
    obtain ⟨x,hx,rfl⟩:=mem_map.mp hq
    have := hi.length x hx
    have := (hi.within x hx).2.2
    exact .inl (by omega)
  have hi0 : HeapInv base start h0 fs live := hi.congr (fun q hq => ⟨hf0.ptr (hoff q hq),hf0.size (hoff q hq)⟩)
    (fun y hy => (hk0 y hy).1) hfreep (by omega)
  have hp0 : Place base start h0 := ⟨hp.pos,hp.below,by omega,by omega⟩
  have hspare : Spare start h0 fs live h.brk := by
    refine ⟨hbrk,by omega,by rw [hs0,hbrk0,mul_comm],fun x hx => ?_,fun y hy => ?_⟩
    · exact .inl (hi.within x hx).2.2
    · rw [(hk0 y hy).1]
      exact .inr (hi.held y hy).2.2
  obtain ⟨h',fs',hrun,hi',hp',hk',z,hz,hsize⟩:=hi0.free_spare hp0 hspare
  rw [hrun,some_bind]
  refine ⟨h',fs',rfl,hi',hp',hk0.trans hk',z,hz,?_⟩
  have hz2 : z.2=unit*h'.size z.1 := congrArg snd (hi'.sizes z hz)
  simp only [Heap.block,hs0,unit] at *
  omega

lemma mallocLoop_scan {sbrkOk : ℕ → Bool} (k fuel : ℕ)
    (hno : ∀ j<k,¬ n≤h.size (h.ptr^[j+1] p) ∧ h.ptr^[j+1] p≠h.freep) : mallocLoop n sbrkOk (fuel+k) p (h.ptr p) h =
      mallocLoop n sbrkOk fuel (h.ptr^[k] p) (h.ptr^[k+1] p) h := by
  induction k generalizing p with
  | zero => rfl
  | succ k ih =>
    have h1 : ¬ n≤h.size (h.ptr p) := (hno 0 (succ_pos k)).1
    have h2 : h.ptr p≠h.freep := (hno 0 (succ_pos k)).2
    rw [← add_assoc,mallocLoop,if_neg h1,if_neg h2]
    exact ih fun j hj => by
      have := hno (j+1) (by omega)
      rwa [iterate_succ_apply] at this

section
variable (hi : HeapInv base start h fs live)
include hi

lemma HeapInv.mallocLoop_fit (hq : q∈base::fs.map (·.1)) (hfit : n≤h.size q) (sbrkOk : ℕ → Bool)
    (fuel : ℕ) (hfuel : 2*(fs.length+1)<fuel) : ∃ e∈base::fs.map (·.1),n≤h.size (h.ptr e) ∧
      mallocLoop n sbrkOk fuel h.freep (h.ptr h.freep) h=some (takeBlock h n e (h.ptr e)) := by
  have hnext : h.ptr h.freep∈base::fs.map (·.1) := hi.iterate_mem hi.freep 1
  obtain ⟨d,hd,hreach⟩:=hi.links.reach hnext hq
  obtain ⟨k,hk,hkfit,hmin⟩:=exists_first (fun c => n≤h.size c) (p := h.ptr h.freep) (d := d)
    (by rw [hreach]; exact hfit)
  -- the scan comes back to `freep` only after it has seen every node
  have hno : ∀ j<k,¬ n≤h.size (h.ptr^[j+1] h.freep) ∧ h.ptr^[j+1] h.freep≠h.freep := by
    intro j hj
    refine ⟨by rw [iterate_succ_apply]; exact hmin j hj,fun hback => ?_⟩
    refine hmin (k-j-1) (by omega) ?_
    have hsplit : k+1=(k-j-1+1)+(j+1) := by omega
    rwa [← iterate_succ_apply,Nat.succ_eq_add_one,hsplit,iterate_add_apply,hback,iterate_succ_apply] at hkfit
  have hlen : (fs.map (·.1)).length=fs.length := length_map ..
  refine ⟨h.ptr^[k] h.freep,hi.iterate_mem hi.freep k,?_,?_⟩
  · rw [← iterate_succ_apply' h.ptr,iterate_succ_apply]
    exact hkfit
  · obtain ⟨m,rfl⟩:=Nat.exists_eq_add_of_le (show k+1≤fuel by omega)
    rw [show k+1+m=m+1+k by omega,mallocLoop_scan k (m+1) hno,mallocLoop,
      if_pos (by rw [iterate_succ_apply]; exact hkfit),iterate_succ_apply' h.ptr]

lemma HeapInv.mallocLoop_none (hsmall : ∀ q∈base::fs.map (·.1),¬ n≤h.size q) (sbrkOk : ℕ → Bool) (fuel : ℕ)
    (hfuel : 2*(fs.length+1)<fuel) :
    ∃ m,fuel ≤ m+1+2*(fs.length+1) ∧ mallocLoop n sbrkOk fuel h.freep (h.ptr h.freep) h =
      (morecore h n (sbrkOk m)).bind fun r => match r with
        | (none,h) => some (0,h) | (some q,h) => mallocLoop n sbrkOk m q (h.ptr q) h := by
  have hnext : h.ptr h.freep∈base::fs.map (·.1) := hi.iterate_mem hi.freep 1
  obtain ⟨d,hd,hreach⟩:=hi.links.reach hnext hi.freep
  obtain ⟨k,hk,hback,hmin⟩:=exists_first (fun c => c=h.freep) (p := h.ptr h.freep) (d := d) hreach
  have hno : ∀ j<k,¬ n≤h.size (h.ptr^[j+1] h.freep) ∧ h.ptr^[j+1] h.freep≠h.freep := fun j hj =>
    ⟨hsmall _ (hi.iterate_mem hi.freep (j+1)),by rw [iterate_succ_apply]; exact hmin j hj⟩
  have hlen : (fs.map (·.1)).length=fs.length := length_map ..
  obtain ⟨m,rfl⟩:=Nat.exists_eq_add_of_le (show k+1≤fuel by omega)
  refine ⟨m,by omega,?_⟩
  have hfreep : h.ptr^[k+1] h.freep=h.freep := by rw [iterate_succ_apply]; exact hback
  rw [show k+1+m=m+1+k by omega,mallocLoop_scan k (m+1) hno,mallocLoop,hfreep,if_neg (hsmall _ hi.freep),if_pos rfl]
  rfl

lemma HeapInv.mallocLoop_spec (hp : Place base start h) (hn : 0<n) (hmax : n ≤ maxUnits) (sbrkOk : ℕ → Bool) :
    ∃ r h' fs',mallocLoop n sbrkOk loopFuel h.freep (h.ptr h.freep) h=some (r,h') ∧
      HeapInv base start h' fs' live ∧ Place base start h' ∧ KeepsHeld h h' live ∧
      (r=0 ∨ ∃ a,r=a+unit ∧ Spare start h' fs' live a ∧ h'.size a=n) := by
  have hcount:=hi.count_lt hp
  by_cases hex : ∃ q∈base::fs.map (·.1),n≤h.size q
  · obtain ⟨q,hq,hfit⟩:=hex
    obtain ⟨e,he,hefit,hrun⟩:=hi.mallocLoop_fit hq hfit sbrkOk loopFuel (by omega)
    obtain ⟨a,h',fs',htake,hi',hp',hk,hs,hsize⟩ := hi.takeBlock_spec hp hn (hi.iterate_mem he 1) he rfl hefit
    refine ⟨a+unit,h',fs',?_,hi',hp',hk,.inr ⟨a,rfl,hs,hsize⟩⟩
    rw [hrun]
    exact congrArg some htake
  have hsmall : ∀ q∈base::fs.map (·.1),¬ n≤h.size q := fun q hq hfit => hex ⟨q,hq,hfit⟩
  obtain ⟨m,hm,hrun⟩:=hi.mallocLoop_none hsmall sbrkOk loopFuel (by omega)
  rcases hi.morecore_spec hp hn hmax (sbrkOk m) with hmore | ⟨h1,fs1,hmore,hi1,hp1,hk1,z,hz,hfit⟩
  · refine ⟨0,h,fs,?_,hi,hp,.refl h live,.inl rfl⟩
    rw [hrun,hmore]
    rfl
  -- the new block is in the list
  have hcount1:=hi1.count_lt hp1
  obtain ⟨e,he,hefit,hrun1⟩:=hi1.mallocLoop_fit (node_mem hz) hfit sbrkOk m (by omega)
  obtain ⟨a,h',fs',htake,hi',hp',hk,hs,hsize⟩ := hi1.takeBlock_spec hp1 hn (hi1.iterate_mem he 1) he rfl hefit
  refine ⟨a+unit,h',fs',?_,hi',hp',hk1.trans hk,.inr ⟨a,rfl,hs,hsize⟩⟩
  rw [hrun,hmore,Option.bind_some]
  exact hrun1.trans (congrArg some htake)

end

end

end Auxv6.Libc
