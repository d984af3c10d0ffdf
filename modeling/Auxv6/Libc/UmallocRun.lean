import Auxv6.Libc.UmallocSpec

/-!
# Programs that use the heap

Up to `maxRequest` bytes no size wraps.
-/

namespace Auxv6.Libc
open Machine Lib.ByteMemory Lib.FreeList Lib.Transition Function List Nat

def maxRequest : ℕ := 2^31-16
def HeapOk (base start : ℕ) (σ : Program) : Prop :=
  (σ.heap.freep=0 ∧ σ.live=[]) ∨ ∃ fs,HeapInv base start σ.heap fs σ.live

structure ProgramInv (base start : ℕ) (σ : Program) : Prop where
  place : Place base start σ.heap
  ok : HeapOk base start σ

section

variable {base start a p q n ap old : ℕ} {h h' h'' : Heap} {fs : List Block} {live : List (ℕ × ℕ)}

lemma unitsFor_eq (hn : n ≤ maxRequest) : n+unit≤unit*unitsFor n ∧ 0<unitsFor n ∧ unitsFor n ≤ maxUnits := by
  have hadd : uintAdd n unit=n+unit := uintAdd_of_lt (by
    simp only [maxRequest,unit,wordMod] at *
    omega)
  have hsub : uintSub (n+unit) 1=n+7 := by
    rw [uintSub_of_le (by simp only [unit]; omega) (by
      simp only [maxRequest,unit,wordMod] at *
      omega)]
    simp only [unit]
    omega
  rw [unitsFor,hadd,hsub]
  simp only [maxRequest,unit,maxUnits] at *
  omega

lemma HeapInv.freep_pos (hi : HeapInv base start h fs live) (hp : Place base start h) : h.freep≠0 := by
  have h1:=hp.pos
  have h2:=hp.below
  rcases mem_cons.mp hi.freep with he | hmem
  · omega
  · obtain ⟨x,hx,he⟩:=mem_map.mp hmem
    have := (hi.within x hx).1
    omega

lemma initList_inv (hp : Place base start h) (hfree : h.freep=0) :
    HeapInv base start (initList base h) [] [] ∧ Place base start (initList base h) := by
  have htop:=hp.top
  have hbelow:=hp.below
  have hbrk:=hp.brk
  have hbase : base<wordMod := by
    simp only [kernbase,wordMod,unit] at *
    omega
  have hptr : ((h.setPtr base base).setSize base 0).ptr base=base := by
    rw [ptr_setSize,ptr_setPtr hbase]
  have hsize : ((h.setPtr base base).setSize base 0).size base=0 := size_setSize (by decide)
  have heq : ((h.setPtr base base).setSize base 0).brk=h.brk := rfl
  rw [initList,if_pos hfree]
  refine ⟨⟨hptr,hsize,by simp,mem_singleton_self base,List.Pairwise.nil,by simp,by simp,
    List.Pairwise.nil,by simp⟩,hp.pos,hp.below,?_,?_⟩
  · exact heq ▸ hp.brk
  · exact heq ▸ hp.top

lemma malloc_spec (hp : Place base start h) (hok : HeapOk base start ⟨h,live⟩) (hn : n ≤ maxRequest)
    (sbrkOk : ℕ → Bool) : ∃ r h' fs',malloc base h n sbrkOk=some (r,h') ∧
      HeapInv base start h' fs' live ∧ Place base start h' ∧ KeepsHeld h h' live ∧
      (r=0 ∨ ∃ a,r=a+unit ∧ Spare start h' fs' live a ∧ h'.size a=unitsFor n) := by
  obtain ⟨-,hpos,hmax⟩:=unitsFor_eq hn
  rcases hok with ⟨hfree,hlive⟩ | ⟨fs,hi⟩
  · obtain rfl : live=[] := hlive
    obtain ⟨hi,hp'⟩:=initList_inv hp hfree
    obtain ⟨r,h',fs',hrun,hi',hp'',-,hr⟩:=hi.mallocLoop_spec hp' hpos hmax sbrkOk
    exact ⟨r,h',fs',hrun,hi',hp'',(fun y hy => by cases hy),hr⟩
  · have hinit : initList base h=h := if_neg (hi.freep_pos hp)
    rw [malloc,hinit]
    exact hi.mallocLoop_spec hp hpos hmax sbrkOk

variable {y : ℕ × ℕ}

lemma HeapInv.write (hi : HeapInv base start h fs live) (hp : Place base start h) (hy : y∈live)
    (hmem : ∀ x,x<y.1 ∨ y.1+y.2≤x → h'.mem x=h.mem x) (hfreep : h'.freep=h.freep)
    (hbrk : h'.brk=h.brk) : HeapInv base start h' fs live := by
  obtain ⟨hylow,hyroom,hytop⟩:=hi.held y hy
  have hkeep : ∀ c,Apart (c,unit) (y.1,y.2) → h'.ptr c=h.ptr c ∧ h'.size c=h.size c := by
    intro c hc
    simp only [Apart,unit] at hc
    exact ⟨load32_congr fun x _ _ => hmem x (by omega),load32_congr fun x _ _ => hmem x (by omega)⟩
  refine hi.congr (fun q hq => hkeep q ?_) (fun z hz => ?_) hfreep hbrk.ge
  · have := hi.node_apart hp hq y hy
    simp only [Apart,Heap.heldBlock,Heap.block,unit] at *
    omega
  rw [Heap.heldBlock,Heap.block,(hkeep (z.1-unit) ?_).2]
  · rfl
  by_cases hzy : z=y
  · rw [hzy]
    simp only [Apart,unit] at *
    omega
  have : Std.Symm fun x y : ℕ × ℕ => Apart (h.heldBlock x) (h.heldBlock y) := ⟨fun _ _ => Apart.symm⟩
  have hap:=hi.apart.forall hz hy hzy
  simp only [Apart,Heap.heldBlock,Heap.block,unit] at *
  omega

lemma memset_of_apart (m : Bytes) (v : UInt8) (k dst x : ℕ) (hlt : dst+k<wordMod)
    (hx : x<dst ∨ dst+k≤x) : memset m dst v k x=m x := by
  induction k generalizing m dst with
  | zero => rfl
  | succ k ih =>
    rw [memset,uintAdd_of_lt (by omega),ih _ _ (by omega) (by omega),update_of_ne (by omega)]

lemma memmove_of_apart (m : Bytes) (k dst src x : ℕ) (hlt : dst+k<wordMod) (hlt' : src+k<wordMod)
    (hx : x<dst ∨ dst+k≤x) : memmove m dst src k x=m x := by
  induction k generalizing m dst src with
  | zero => rfl
  | succ k ih =>
    rw [memmove,uintAdd_of_lt (by omega),uintAdd_of_lt (by omega),ih _ _ _ (by omega) (by omega) (by omega),
      update_of_ne (by omega)]

lemma memmove_copied (m : Bytes) (k dst src i : ℕ) (hlt : dst+k<wordMod) (hlt' : src+k<wordMod)
    (hap : dst+k ≤ src ∨ src+k≤dst) (hi : i<k) : memmove m dst src k (dst+i)=m (src+i) := by
  induction k generalizing m dst src i with
  | zero => omega
  | succ k ih =>
    rw [memmove,uintAdd_of_lt (by omega),uintAdd_of_lt (by omega)]
    cases i with
    | zero =>
      rw [memmove_of_apart _ _ _ _ _ (by omega) (by omega) (by omega),add_zero,update_self,add_zero]
    | succ i =>
      have hd : dst+(i+1)=dst+1+i := by omega
      rw [hd,ih _ _ _ _ (by omega) (by omega) (by omega) (by omega),update_of_ne (by omega)]
      congr 1
      omega

lemma mem_drop : y∈Program.drop live ap ↔ y∈live ∧ y.1≠ap := by
  rw [Program.drop,mem_filter,decide_eq_true_eq]

lemma HeapInv.free_held (hi : HeapInv base start h fs live) (hp : Place base start h) (hmem : (ap,old)∈live) :
    ∃ h' fs',Libc.free h ap=some h' ∧ HeapInv base start h' fs' (Program.drop live ap) ∧
      Place base start h' ∧ KeepsHeld h h' (Program.drop live ap) := by
  obtain ⟨hlow,hroom,htop⟩:=hi.held (ap,old) hmem
  have hap : ap-unit+unit=ap := Nat.sub_add_cancel (by
    omega)
  have hspare : Spare start h fs (Program.drop live ap) (ap-unit) := by
    refine ⟨by simp only at hlow; omega,?_,?_,fun x hx => hi.free x hx (ap,old) hmem,fun y hy => ?_⟩
    · simp only [Heap.heldBlock,Heap.block,unit] at *
      omega
    · rw [Heap.heldBlock,Heap.block] at htop
      exact htop
    · obtain ⟨hy,hne⟩:=mem_drop.mp hy
      have : Std.Symm fun x y : ℕ × ℕ => Apart (h.heldBlock x) (h.heldBlock y) := ⟨fun _ _ => Apart.symm⟩
      exact hi.apart.forall hmem hy fun he => hne (by rw [← he])
  obtain ⟨h',fs',hrun,hi',hp',hk,-⟩:=(hi.release (filter_sublist ..)).free_spare hp hspare
  exact ⟨h',fs',hap ▸ hrun,hi',hp',hk⟩

lemma realloc_spec (hp : Place base start h) (hi : HeapInv base start h fs live) (hmem : (ap,old)∈live)
    (hn : 0<n) (hmax : n ≤ maxRequest) (sbrkOk : ℕ → Bool) :
    ∃ r h' fs',realloc base h ap n sbrkOk=some (r,h') ∧ Place base start h' ∧
      ((r=0 ∧ HeapInv base start h' fs' live) ∨ (r≠0 ∧ HeapInv base start h' fs' ((r,n)::Program.drop live ap) ∧
          ∀ i < min old n,h'.mem (r+i)=h.mem (ap+i))) := by
  obtain ⟨hlow,hroom,htop⟩:=hi.held (ap,old) hmem
  have hap : ap≠0 := by
    simp only [unit] at hlow
    omega
  obtain ⟨hunits,-⟩:=unitsFor_eq hmax
  obtain ⟨r,h1,fs1,hmalloc,hi1,hp1,hk1,hr⟩:=malloc_spec hp (.inr ⟨fs,hi⟩) hmax sbrkOk
  rw [realloc,if_neg hap,if_neg (by omega)]
  dsimp only
  rw [hmalloc,some_bind]
  rcases hr with rfl | ⟨a,rfl,hs,hsize⟩
  · rw [if_pos rfl]
    exact ⟨0,h1,fs1,rfl,hp1,.inl ⟨rfl,hi1⟩⟩
  -- the size of the old block
  have hbp : uintSub ap unit=ap-unit := uintSub_of_le (by simp only at hlow; omega) (by
    have := hp.top
    simp only [kernbase,wordMod,unit,Heap.heldBlock,Heap.block] at *
    omega)
  have hold : uintSub (h.size (uintSub ap unit)) 1*unit%wordMod = unit*h.size (ap-unit)-unit := by
    have := hp.top
    have hpos : 1≤h.size (ap-unit) := by
      simp only [unit,Heap.heldBlock,Heap.block] at *
      omega
    rw [hbp,uintSub_of_le hpos (size_lt h _)]
    simp only [kernbase,wordMod,unit,Heap.heldBlock,Heap.block] at *
    omega
  rw [hold]
  generalize hkdef : (if unit*h.size (ap-unit)-unit<n then
    unit*h.size (ap-unit)-unit else n)=k
  have hkbounds : k≤n ∧ min old n≤k ∧ k+unit≤unit*h.size (ap-unit) := by
    split at hkdef <;> simp only [unit,Heap.heldBlock,Heap.block] at * <;> omega
  -- the copy goes into the new block
  have hi2:=hi1.hold hs (show n+unit≤unit*h1.size a by rw [hsize]; exact hunits)
  have hstop:=hs.top
  have hp1top:=hp1.top
  have happ:=hs.held _ hmem
  rw [(hk1 _ hmem).1] at happ
  have hranges : a+unit+k<wordMod ∧ ap+k<wordMod ∧ (a+unit+k≤ap ∨ ap+k≤a+unit) := by
    have := hp.top
    simp only [Apart,kernbase,wordMod,unit,Heap.heldBlock,Heap.block] at *
    omega
  have hmove : ∀ x,x<a+unit ∨ a+unit+n≤x → memmove h1.mem (a+unit) ap k x=h1.mem x := fun x hx =>
    memmove_of_apart _ _ _ _ _ hranges.1 hranges.2.1 (by omega)
  generalize hh2 : ({h1 with mem := memmove h1.mem (a+unit) ap k} : Heap)=h2
  have hp2 : Place base start h2 := hh2 ▸ ⟨hp1.pos,hp1.below,hp1.brk,hp1.top⟩
  have hi3 : HeapInv base start h2 fs1 ((a+unit,n)::live) := by
    refine hi2.write hp1 (mem_cons_self ..) (fun x hx => ?_) ?_ ?_
    · rw [← hh2]
      exact hmove x hx
    · rw [← hh2]
    · rw [← hh2]
  obtain ⟨h4,fs4,hfree,hi4,hp4,hk4⟩:=hi3.free_held hp2 (mem_cons_of_mem _ hmem)
  have hne : a+unit≠ap := by
    rintro rfl
    have hap:=hs.held _ hmem
    have hroom:=hi1.heldRoom _ hmem
    rw [Heap.heldBlock,Nat.add_sub_cancel] at hap hroom
    simp only [Apart,Heap.block,unit] at *
    omega
  have hdrop : Program.drop ((a+unit,n)::live) ap=(a+unit,n)::Program.drop live ap := by
    simp [Program.drop,hne]
  rw [hfree,some_bind]
  rw [hdrop] at hi4 hk4
  refine ⟨a+unit,h4,fs4,rfl,hp4,.inr ⟨by simp only [unit]; omega,hi4,fun i hlt => ?_⟩⟩
  have hblock : h2.heldBlock (a+unit,n)=(a,unit*unitsFor n) := by
    have hsize2 : h2.size a=h1.size a := by
      rw [← hh2]
      exact load32_congr fun x h1' h2' => hmove x (.inl (by simp only [unit]; omega))
    rw [Heap.heldBlock,Nat.add_sub_cancel,Heap.block,hsize2,hsize]
  have hkept:=(hk4 (a+unit,n) (mem_cons_self ..)).2 (a+unit+i)
  rw [hblock] at hkept
  rw [hkept (by omega) (by simp only [unit] at *; omega),← hh2]
  dsimp only
  rw [memmove_copied _ _ _ _ _ hranges.1 hranges.2.1 hranges.2.2 (by omega)]
  refine (hk1 _ hmem).2 (ap+i) ?_ ?_ <;> simp only [unit,Heap.heldBlock,Heap.block] at * <;> omega

lemma callocTotal_eq {nmemb size total : ℕ} (h : callocTotal nmemb size=some total) : total=nmemb*size := by
  unfold callocTotal at h
  split at h
  next hzero =>
    rcases hzero with rfl | rfl <;> simpa using h.symm
  rename_i hzero
  split at h
  · cases h
  rename_i hfit
  have hle : nmemb*size≤0xffffffff := (mul_le_mul_right size (not_lt.mp hfit)).trans (div_mul_le_self ..)
  rw [← Option.some.inj h,mod_eq_of_lt (by simp only [wordMod]; omega)]

lemma calloc_spec {nmemb size : ℕ} (hp : Place base start h) (hok : HeapOk base start ⟨h,live⟩)
    (hmax : ∀ total,callocTotal nmemb size=some total → total ≤ maxRequest) (sbrkOk : ℕ → Bool) :
    ∃ r h',calloc base h nmemb size sbrkOk=some (r,h') ∧ Place base start h' ∧
      HeapOk base start ⟨h',Program.hold live r (nmemb*size)⟩ := by
  rw [calloc]
  cases htotal : callocTotal nmemb size with
  | none => exact ⟨0,h,rfl,hp,hok⟩
  | some total =>
    obtain rfl:=callocTotal_eq htotal
    have htmax:=hmax _ htotal
    obtain ⟨hunits,-⟩:=unitsFor_eq htmax
    obtain ⟨r,h1,fs1,hmalloc,hi1,hp1,-,hr⟩:=malloc_spec hp hok htmax sbrkOk
    dsimp only
    rw [hmalloc,some_bind]
    rcases hr with rfl | ⟨a,rfl,hs,hsize⟩
    · exact ⟨0,h1,rfl,hp1,.inr ⟨fs1,hi1⟩⟩
    have hne : a+unit≠0 := by simp only [unit]; omega
    have hi2:=hi1.hold hs (show nmemb*size+unit≤unit*h1.size a by rw [hsize]; exact hunits)
    have hlt : a+unit+nmemb*size<wordMod := by
      have h1':=hs.top
      have h2':=hp1.top
      rw [hsize] at h1'
      simp only [kernbase,wordMod] at *
      omega
    refine ⟨a+unit,_,rfl,⟨hp1.pos,hp1.below,hp1.brk,hp1.top⟩,.inr ⟨fs1,?_⟩⟩
    exact hi2.write hp1 (mem_cons_self ..) (fun x hx => memset_of_apart _ _ _ _ _ hlt hx) rfl rfl

def HeapAction.Small : HeapAction → Prop
  | .malloc nbytes _ => nbytes ≤ maxRequest
  | .calloc nmemb size _ => ∀ total,callocTotal nmemb size=some total → total ≤ maxRequest
  | .realloc _ nbytes _ => nbytes ≤ maxRequest
  | _ => True
def HeapAction.Valid (σ : Program) : HeapAction → Prop
  | .realloc ap _ _ => ap=0 ∨ ap ∈ σ.live.map (·.1)
  | .free ap => ap=0 ∨ ap ∈ σ.live.map (·.1)
  | .store a _ => ∃ x ∈ σ.live,x.1≤a ∧ a<x.1+x.2
  | _ => True

variable {σ : Program} {act : HeapAction}

lemma heapStep_valid {σ' : Program} (hr : heapStep base σ act=some σ') : act.Valid σ := by
  have hiff : ∀ ap,¬ (ap≠0 ∧ ap ∉ σ.live.map (·.1)) → ap=0 ∨ ap ∈ σ.live.map (·.1) := fun ap h =>
    or_iff_not_imp_left.mpr fun h0 => not_not.mp fun h1 => h ⟨h0,h1⟩
  cases act with
  | malloc nbytes sbrkOk => trivial
  | calloc nmemb size sbrkOk => trivial
  | realloc ap nbytes sbrkOk =>
    rw [heapStep] at hr
    split at hr
    · cases hr
    next h => exact hiff ap h
  | free ap =>
    rw [heapStep] at hr
    split at hr
    · cases hr
    next h => exact hiff ap h
  | store a b =>
    rw [heapStep] at hr
    split at hr
    next h => exact h
    · cases hr

lemma HeapOk.inv_of_mem (hok : HeapOk base start σ) (hmem : ap ∈ σ.live.map (·.1)) :
    ∃ fs old,HeapInv base start σ.heap fs σ.live ∧ (ap,old) ∈ σ.live := by
  obtain ⟨⟨x,old⟩,hx,rfl⟩:=mem_map.mp hmem
  rcases hok with ⟨-,hnil⟩ | ⟨fs,hi⟩
  · rw [hnil] at hx
    cases hx
  · exact ⟨fs,old,hi,hx⟩

lemma HeapOk.zero_not_mem (hok : HeapOk base start σ) : Program.drop σ.live 0=σ.live := by
  rw [Program.drop,filter_eq_self]
  intro y hy
  obtain ⟨fs,old,hi,-⟩:=hok.inv_of_mem (mem_map_of_mem (f := Prod.fst) hy)
  have := (hi.held y hy).1
  simp only [unit] at this
  exact decide_eq_true (by omega)

lemma malloc_program (h : ProgramInv base start σ) (hn : n ≤ maxRequest) (sbrkOk : ℕ → Bool) :
    ∃ r h',malloc base σ.heap n sbrkOk=some (r,h') ∧ ProgramInv base start ⟨h',Program.hold σ.live r n⟩ := by
  obtain ⟨r,h',fs',hrun,hi,hp,-,hr⟩:=malloc_spec h.place h.ok hn sbrkOk
  refine ⟨r,h',hrun,hp,.inr ⟨fs',?_⟩⟩
  rcases hr with rfl | ⟨a,rfl,hs,hsize⟩
  · exact hi
  · rw [Program.hold,if_neg (by simp only [unit]; omega)]
    exact hi.hold hs (by rw [hsize]; exact (unitsFor_eq hn).1)

lemma heapStep_spec (h : ProgramInv base start σ) (hsmall : act.Small)
    (hvalid : act.Valid σ) : ∃ σ',heapStep base σ act=some σ' ∧ ProgramInv base start σ' := by
  cases act with
  | malloc nbytes sbrkOk =>
    obtain ⟨r,h',hrun,hinv⟩:=malloc_program h hsmall sbrkOk
    exact ⟨_,by rw [heapStep,hrun,some_bind],hinv⟩
  | calloc nmemb size sbrkOk =>
    obtain ⟨r,h',hrun,hp,hok⟩:=calloc_spec h.place h.ok hsmall sbrkOk
    exact ⟨_,by rw [heapStep,hrun,some_bind],hp,hok⟩
  | realloc ap nbytes sbrkOk =>
    by_cases hzero : ap=0
    · subst hzero
      obtain ⟨r,h',hrun,hinv⟩:=malloc_program h hsmall sbrkOk
      refine ⟨⟨h',Program.hold σ.live r nbytes⟩,?_,hinv⟩
      rw [heapStep,if_neg (by simp),realloc,if_pos rfl,hrun,some_bind]
      rw [h.ok.zero_not_mem,ite_self]
    have hmem:=hvalid.resolve_left hzero
    obtain ⟨fs,old,hi,hold⟩:=h.ok.inv_of_mem hmem
    rw [heapStep,if_neg (by simp [hmem])]
    by_cases hn : nbytes=0
    · obtain ⟨h',fs',hfree,hi',hp',-⟩:=hi.free_held h.place hold
      rw [realloc,if_neg hzero,if_pos hn,hfree]
      exact ⟨⟨h',Program.drop σ.live ap⟩,by simp [hn,Program.hold],hp',.inr ⟨fs',hi'⟩⟩
    obtain ⟨r,h',fs',hrun,hp',hcase⟩:=realloc_spec h.place hi hold (pos_of_ne_zero hn) hsmall sbrkOk
    rw [hrun,some_bind]
    rcases hcase with ⟨rfl,hi'⟩ | ⟨hr,hi',-⟩
    · exact ⟨⟨h',σ.live⟩,by simp [hn,Program.hold],hp',.inr ⟨fs',hi'⟩⟩
    · exact ⟨⟨h',(r,nbytes)::Program.drop σ.live ap⟩,by simp [hr,Program.hold],hp',.inr ⟨fs',hi'⟩⟩
  | free ap =>
    by_cases hzero : ap=0
    · subst hzero
      refine ⟨σ,?_,h⟩
      rw [heapStep,if_neg (by simp),free,if_pos rfl,some_bind,h.ok.zero_not_mem]
    have hmem:=hvalid.resolve_left hzero
    obtain ⟨fs,old,hi,hold⟩:=h.ok.inv_of_mem hmem
    obtain ⟨h',fs',hfree,hi',hp',-⟩:=hi.free_held h.place hold
    refine ⟨⟨h',Program.drop σ.live ap⟩,?_,hp',.inr ⟨fs',hi'⟩⟩
    rw [heapStep,if_neg (by simp [hmem]),hfree,some_bind]
  | store a b =>
    obtain ⟨y,hy,hlo,hhi⟩:=hvalid
    obtain ⟨fs,old,hi,-⟩:=h.ok.inv_of_mem (mem_map_of_mem (f := Prod.fst) hy)
    refine ⟨⟨{σ.heap with mem := update σ.heap.mem a b},σ.live⟩,?_,
      ⟨h.place.pos,h.place.below,h.place.brk,h.place.top⟩,
      .inr ⟨fs,hi.write h.place hy (fun x hx => update_of_ne (by omega) ..) rfl rfl⟩⟩
    rw [heapStep,if_pos ⟨y,hy,hlo,hhi⟩]

end

/-- In every run with requests of at most `maxRequest` bytes the heap is as `HeapOk` says, every
further such call returns, and `realloc` keeps the bytes. -/
theorem user_heap (base start : ℕ) (mem : Bytes) (hbase : 0<base) (hbelow : base+unit ≤ start)
    (htop : start<kernbase) (acts : List HeapAction) (hsmall : ∀ act∈acts,act.Small) (σ : Program)
    (hrun : run (heapStep base) (Program.start mem start) acts=some σ) : HeapOk base start σ ∧
    (∀ act : HeapAction,act.Small → act.Valid σ → (heapStep base σ act).isSome) ∧
    ∀ ap old n sbrkOk,(ap,old) ∈ σ.live → 0<n → n ≤ maxRequest → ∃ r h',realloc base σ.heap ap n sbrkOk=some (r,h') ∧
        (r≠0 → ∀ i < min old n,h'.mem (r+i)=σ.heap.mem (ap+i)) := by
  have h : ProgramInv base start σ := by
    refine run_guarded (fun σ act σ' h hsmall hr => ?_) ⟨⟨hbase,hbelow,le_rfl,htop⟩,.inl ⟨rfl,rfl⟩⟩
      (guarded_of_forall fun act hact _ => hsmall act hact) hrun
    obtain ⟨σ1,hr1,hinv⟩:=heapStep_spec h hsmall (heapStep_valid hr)
    exact Option.some.inj (hr1.symm.trans hr) ▸ hinv
  refine ⟨h.ok,fun act hact hvalid => ?_,fun ap old n sbrkOk hmem hn hmax => ?_⟩
  · obtain ⟨σ',hs,-⟩:=heapStep_spec h hact hvalid
    rw [hs]
    rfl
  rcases h.ok with ⟨-,hnil⟩ | ⟨fs,hi⟩
  · rw [hnil] at hmem
    cases hmem
  obtain ⟨r,h',fs',hr,-,hcase⟩:=realloc_spec h.place hi hmem hn hmax sbrkOk
  refine ⟨r,h',hr,fun hne => ?_⟩
  rcases hcase with ⟨hz,-⟩ | ⟨-,-,hbytes⟩
  · exact absurd hz hne
  · exact hbytes

abbrev heapRun : List HeapAction → Option Program := run (heapStep 16) (Program.start (fun _ => 0) 4096)

def sampleActions : List HeapAction := [.malloc 100 fun _ => true,.malloc 15 fun _ => true,.free 8088,.store 8064 7]

theorem user_heap_sample : ∃ σ,heapRun sampleActions=some σ ∧ σ.live=[(8064,15)] ∧
      HeapOk 16 4096 σ ∧ (heapStep 16 σ (.free 8064)).isSome ∧
      ∃ r h',realloc 16 σ.heap 8064 4000 (fun _ => true)=some (r,h') ∧
        (r≠0 → ∀ i<15,h'.mem (r+i)=σ.heap.mem (8064+i)) := by
  obtain ⟨σ,hrun,hlive⟩ : ∃ σ,heapRun sampleActions=some σ ∧ σ.live=[(8064,15)] := by
    decide +kernel
  have hsmall : ∀ act∈sampleActions,act.Small := by
    intro act hact
    simp only [sampleActions,mem_cons,not_mem_nil,or_false] at hact
    rcases hact with rfl | rfl | rfl | rfl
    · exact (by decide : 100 ≤ maxRequest)
    · exact (by decide : 15 ≤ maxRequest)
    · trivial
    · trivial
  obtain ⟨hok,hnext,hre⟩:=user_heap 16 4096 (fun _ => 0) (by decide) (by decide) (by decide) sampleActions
    hsmall σ hrun
  have hmem : (8064,15) ∈ σ.live := by rw [hlive]; exact mem_singleton_self _
  exact ⟨σ,hrun,hlive,hok,hnext (.free 8064) trivial (.inr (mem_map_of_mem (f := Prod.fst) hmem)),
    hre 8064 15 4000 _ hmem (by decide) (by decide)⟩

/-- The units of a request of `2 ^ 32 - 1` bytes wrap to one, which has no byte but its header;
for `2 ^ 31` bytes `sbrk` is asked for a negative amount, succeeds, and the block is taken to
begin at the end of memory. -/
theorem user_heap_wraps : (∃ σ,heapRun [.malloc (2^32-1) fun _ => true]=some σ ∧
      σ.live=[(8192,2^32-1)] ∧ σ.heap.brk=8192 ∧ ¬ HeapOk 16 4096 σ) ∧
    (∃ σ,heapRun [.malloc (2^31) fun _ => true]=some σ ∧
      σ.live=[(4104,2^31)] ∧ σ.heap.brk=4096 ∧ ¬ HeapOk 16 4096 σ) := by
  have hbad : ∀ {σ : Program} {ap n brk : ℕ},σ.live=[(ap,n)] → σ.heap.brk=brk → brk<ap+n →
      unit≤ap → ¬ HeapOk 16 4096 σ := by
    rintro σ ap n brk hlive hbrk hlt hle (⟨-,hnil⟩ | ⟨fs,hi⟩)
    · rw [hnil] at hlive
      cases hlive
    · have := hi.held (ap,n) (by rw [hlive]; exact mem_singleton_self _)
      simp only [Heap.heldBlock,Heap.block,unit,hbrk] at *
      omega
  have hruns : (∃ σ,heapRun [.malloc (2^32-1) fun _ => true]=some σ ∧ σ.live=[(8192,2^32-1)] ∧ σ.heap.brk=8192) ∧
    ∃ σ,heapRun [.malloc (2^31) fun _ => true]=some σ ∧ σ.live=[(4104,2^31)] ∧ σ.heap.brk=4096 := by
    decide +kernel
  obtain ⟨⟨σ,hrun,hlive,hbrk⟩,σ',hrun',hlive',hbrk'⟩:=hruns
  exact ⟨⟨σ,hrun,hlive,hbrk,hbad hlive hbrk (by decide) (by decide)⟩,
    σ',hrun',hlive',hbrk',hbad hlive' hbrk' (by decide) (by decide)⟩

end Auxv6.Libc
