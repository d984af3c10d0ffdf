import Auxv6.Mem.Kalloc

/-!
# The partition of the managed pages

`Inv L s out`: every managed page is listed once or, for those of `out`, taken off the lists and not yet
handed over. Every move of pages between the lists is a permutation (`Moves`).
-/

namespace Auxv6.Mem
open Machine Function List Finset

def occ (s : State) (p : ℕ) : ℕ := s.freelist.count p + ∑ c,(s.cache c).count p
def listed (s : State) : ℕ := s.freelist.length + ∑ c,(s.cache c).length

structure Inv (L : Layout) (s : State) (out : List ℕ) : Prop where
  managed_valid : ∀ p,(s.kmeta p).managed=true → kallocRunptrValid L p=true
  early : s.kpgdir=false → ∀ p,(s.kmeta p).managed=true → p<earlyFrames
  occ_eq : ∀ p,occ s p+out.count p = if (s.kmeta p).managed=true ∧ (s.kmeta p).free=true then 1 else 0
  free_iff : ∀ p,(s.kmeta p).managed=true → ((s.kmeta p).free=true ↔ kpageRefcount s p=0)
  desc : s.pgReady=true → ∀ p,(s.kmeta p).managed=true →
    (s.pgArray p).managed=true ∧ (s.pgArray p).free=(s.kmeta p).free
  cap : ∀ c,(s.cache c).length≤kallocCpuCache
  online : s.pageallocOnline=true → s.pgReady=true

def Counted (s : State) : Prop := s.freePages=listed s

variable {valid runptr : ℕ → Bool} {l fl out : List ℕ} {p : ℕ}

lemma popValid_all (h : ∀ r∈l,valid r=true) : popValid valid l=(l.head?,l.tail) := by
  cases l with
  | nil => rfl
  | cons r rest => simp [popValid,h r]

lemma takeBatch_all (h : ∀ r∈fl,valid r=true ∧ runptr r=true) (n : ℕ) :
    takeBatch valid runptr n fl=(fl.take n,fl.drop n) := by
  induction n generalizing fl with
  | zero => simp [takeBatch]
  | succ n ih =>
    cases fl with
    | nil => rfl
    | cons r rest =>
      have hr:=(h r (mem_cons_self ..)).1
      cases rest with
      | nil => simp [takeBatch,hr]
      | cons next rest =>
        have hnext:=(h next (by simp)).2
        have hrest:=@ih (next::rest) fun x hx => h x (mem_cons_of_mem _ hx)
        simp [takeBatch,hr,hnext,hrest]

lemma drainLoop_all {cache : List ℕ} (h : ∀ r∈cache,valid r=true) (n : ℕ) (fl : List ℕ) :
    drainLoop valid n cache fl=(cache.drop n,(cache.take n).reverse++fl) := by
  induction n generalizing cache fl with
  | zero => simp [drainLoop]
  | succ n ih =>
    cases cache with
    | nil => simp [drainLoop,popValid]
    | cons r rest =>
      have hr:=h r (mem_cons_self ..)
      have hrest:=@ih rest (fun x hx => h x (mem_cons_of_mem _ hx)) (r::fl)
      simp [drainLoop,popValid,hr,hrest]

lemma checkedFreelist_all {L : Layout} (h : ∀ r∈fl,kallocRunptrValid L r=true) : checkedFreelist L fl=fl := by
  cases fl with
  | nil => rfl
  | cons r rest => simp [checkedFreelist,h r]
lemma scanNext_all {rest : List ℕ} (h : ∀ r∈rest,runptr r=true) : scanNext runptr rest=rest := by
  cases rest with
  | nil => rfl
  | cons next rest => simp [scanNext,h next]

lemma joinRun_append (before run : List ℕ) (r : ℕ) :
    (joinRun before run r).1++(joinRun before run r).2=before++run++[r] := by
  simp only [joinRun]
  cases hl : run.getLast? with
  | none => simp [getLast?_eq_none_iff.mp hl]
  | some last =>
    simp only
    split_ifs <;> simp

lemma contigScan_all {isFree : ℕ → Bool} (npg : ℕ)
    (h : ∀ r∈fl,valid r=true ∧ runptr r=true ∧ isFree r=true) (before run : List ℕ) :
    (contigScan valid runptr isFree npg before run fl).1 ++ (contigScan valid runptr isFree npg before run fl).2.1 ++
      (contigScan valid runptr isFree npg before run fl).2.2=before++run++fl := by
  induction fl generalizing before run with
  | nil => simp [contigScan]
  | cons r rest ih =>
    obtain ⟨hv,_,hf⟩:=h r (mem_cons_self ..)
    have hrest:=fun x hx => h x (mem_cons_of_mem _ hx)
    have hnext : scanNext runptr rest=rest := scanNext_all fun x hx => (hrest x hx).2.1
    have hj:=joinRun_append before run r
    simp only [contigScan,hv,hf,hnext,not_true_eq_false,if_false,if_true]
    split_ifs
    · rw [hj]
      simp
    · rw [ih hrest,hj]
      simp

section

variable {L : Layout} {s : State}

lemma runptrValid_iff {r : ℕ} : kallocRunptrValid L r=true ↔ L.endAddr≤r*pgsize+kernbase ∧ r*pgsize<physTop := by
  rw [kallocRunptrValid,decide_eq_true_iff]
  rfl

lemma kaddrWritable_of_range {kva : ℕ} (hlo : L.data≤kva) (hhi : kva<kernbase+physTop)
    (hearly : s.kpgdir=false → kva<kernbase+bootEarlyPhystop) : kaddrWritable L s kva=true := by
  have hdata:=L.data_ge
  rw [kaddrWritable,if_neg (by omega)]
  split_ifs with hk
  · exact decide_eq_true (.inr (.inl ⟨hlo,hhi⟩))
  · exact decide_eq_true (hearly (by simpa using hk))

lemma Inv.lt_npages (h : Inv L s out) (hp : (s.kmeta p).managed=true) : p<npages := by
  have := (runptrValid_iff.mp (h.managed_valid p hp)).2
  simp only [pgsize,physTop,npages] at this ⊢
  omega

lemma kaddrWritable_meta (hp : p<npages) : kaddrWritable L s (metaAddr L p)=true := by
  have h2:=L.meta_ge
  have h3:=L.meta_end
  have h4:=L.end_le
  have hlt : metaAddr L p<kernbase+bootEarlyPhystop := by
    simp only [metaAddr]
    omega
  refine kaddrWritable_of_range ?_ ?_ fun _ => hlt
  · simp only [metaAddr]
    omega
  · have hwin : bootEarlyPhystop≤physTop := by decide
    omega

lemma Inv.kaddrWritable_page (h : Inv L s out) (hp : (s.kmeta p).managed=true) :
    kaddrWritable L s (p2v (p*pgsize))=true := by
  obtain ⟨hlo,hhi⟩:=runptrValid_iff.mp (h.managed_valid p hp)
  have h2:=L.meta_ge
  have h3:=L.meta_end
  refine kaddrWritable_of_range ?_ ?_ fun hk => ?_
  · simp only [p2v]
    omega
  · simp only [p2v]
    omega
  · have := h.early hk p hp
    simp only [p2v,earlyFrames,pgsize,kernbase,bootEarlyPhystop] at this ⊢
    omega

lemma Inv.freeRunValid (h : Inv L s out) (hm : (s.kmeta p).managed=true)
    (hf : (s.kmeta p).free=true) : kallocFreeRunValid L s p=true := by
  simp [kallocFreeRunValid,h.managed_valid p hm,kaddrWritable_meta (h.lt_npages hm),hm,hf,
    (h.free_iff p hm).mp hf,h.kaddrWritable_page hm]

lemma Inv.of_occ (h : Inv L s out) (hp : 0<occ s p+out.count p) :
    (s.kmeta p).managed=true ∧ (s.kmeta p).free=true ∧ occ s p+out.count p=1 := by
  have := h.occ_eq p
  split_ifs at this with hc
  · exact ⟨hc.1,hc.2,this⟩
  · omega

lemma occ_pos_of_mem_freelist (hp : p∈s.freelist) : 0<occ s p := by
  have := count_pos_iff.mpr hp
  simp only [occ]
  omega
lemma occ_pos_of_mem_cache {c : Fin ncpu} (hp : p∈s.cache c) : 0<occ s p := by
  have h1:=count_pos_iff.mpr hp
  have h2:=single_le_sum (f := fun c => (s.cache c).count p) (fun _ _ => Nat.zero_le _) (mem_univ c)
  simp only [occ] at *
  omega
lemma Inv.freelist_valid (h : Inv L s out) : ∀ r∈s.freelist,kallocFreeRunValid L s r=true ∧
    kallocRunptrValid L r=true ∧ ((s.kmeta r).managed && (s.kmeta r).free)=true := by
  intro r hr
  obtain ⟨hm,hf,_⟩:=h.of_occ (p := r) (by have := occ_pos_of_mem_freelist hr; omega)
  exact ⟨h.freeRunValid hm hf,h.managed_valid r hm,by simp [hm,hf]⟩
lemma Inv.cache_valid (h : Inv L s out) (c : Fin ncpu) : ∀ r∈s.cache c,kallocFreeRunValid L s r=true := by
  intro r hr
  obtain ⟨hm,hf,_⟩:=h.of_occ (p := r) (by have := occ_pos_of_mem_cache hr; omega)
  exact h.freeRunValid hm hf

lemma Inv.listed_le (h : Inv L s out) : listed s≤npages+256 := by
  have hnodup : s.freelist.Nodup := by
    rw [List.nodup_iff_count_le_one]
    intro p
    have := h.occ_eq p
    simp only [occ] at this
    split_ifs at this <;> omega
  have hsub : s.freelist ⊆ List.range npages := by
    intro p hp
    have := (h.freelist_valid p hp).2.2
    simp only [Bool.and_eq_true] at this
    exact List.mem_range.mpr (h.lt_npages this.1)
  have hlen:=(List.subperm_of_subset hnodup hsub).length_le
  have hcap : ∑ c,(s.cache c).length≤256 :=
    calc ∑ c,(s.cache c).length ≤ ∑ _c : Fin ncpu,kallocCpuCache := Finset.sum_le_sum fun c _ => h.cap c
      _ = 256 := by decide
  simp only [List.length_range] at hlen
  simp only [listed]
  omega

end

lemma sum_cache_update (f : List ℕ → ℕ) (cache : Fin ncpu → List ℕ) (c : Fin ncpu) (l : List ℕ) :
    (∑ i,f (update cache c l i))+f (cache c)=(∑ i,f (cache i))+f l := by
  have hrest : ∑ i∈univ.erase c,f (update cache c l i) = ∑ i∈univ.erase c,f (cache i) :=
    sum_congr rfl fun i hi => by rw [update_of_ne (ne_of_mem_erase hi)]
  rw [← add_sum_erase univ _ (mem_univ c),← add_sum_erase univ (fun i => f (cache i)) (mem_univ c),hrest,update_self]
  ring

structure Moves (s s' : State) : Prop where
  fields : ∃ fl ca,s' = {s with freelist := fl,cache := ca}
  occ : ∀ p,occ s' p=occ s p
  listed : listed s'=listed s
  cap : ∀ c,(s'.cache c).length≤kallocCpuCache

section

variable {L : Layout} {s s' s'' : State} {out : List ℕ}

lemma Moves.refl (h : Inv L s out) : Moves s s := ⟨⟨s.freelist,s.cache,rfl⟩,fun _ => rfl,rfl,h.cap⟩
lemma Moves.trans (h : Moves s s') (h' : Moves s' s'') : Moves s s'' := by
  obtain ⟨⟨fl,ca,rfl⟩,ho,hl,_⟩:=h
  obtain ⟨⟨fl',ca',rfl⟩,ho',hl',hc'⟩:=h'
  exact ⟨⟨fl',ca',rfl⟩,fun p => (ho' p).trans (ho p),hl'.trans hl,hc'⟩
lemma Moves.inv (hm : Moves s s') (h : Inv L s out) : Inv L s' out := by
  obtain ⟨⟨fl,ca,rfl⟩,ho,_,hc⟩:=hm
  exact ⟨h.managed_valid,h.early,fun p => by rw [ho]; exact h.occ_eq p,h.free_iff,h.desc,hc,h.online⟩
lemma Moves.counted (hm : Moves s s') (h : Counted s) : Counted s' := by
  have hl:=hm.listed
  obtain ⟨⟨fl,ca,rfl⟩,_,_,_⟩:=hm
  exact Eq.trans h hl.symm

lemma moves_of_perm {c : Fin ncpu} (h : Inv L s out) (hp : (fl++l).Perm (s.freelist++s.cache c))
    (hl : l.length≤kallocCpuCache) : Moves s (setCache {s with freelist := fl} c l) := by
  refine ⟨⟨fl,_,rfl⟩,fun p => ?_,?_,fun c' => ?_⟩
  · have hcount:=hp.count_eq p
    have hsum:=sum_cache_update (count p) s.cache c l
    simp only [count_append] at hcount
    simp only [occ,setCache]
    omega
  · have hlen:=hp.length_eq
    have hsum:=sum_cache_update length s.cache c l
    simp only [length_append] at hlen
    simp only [Auxv6.Mem.listed,setCache]
    omega
  · simp only [setCache]
    by_cases hc : c'=c
    · rw [hc,update_self]
      exact hl
    · rw [update_of_ne hc]
      exact h.cap c'

lemma kallocPickRefillGoal_le {n : ℕ} (hn : n<kallocPcpuLowWater) : kallocPickRefillGoal n+n≤kallocCpuCache := by
  simp only [kallocPickRefillGoal,kallocPcpuLowWater,kallocRefillBatch,kallocCpuCache] at *
  omega

section
variable (h : Inv L s out) (c : Fin ncpu)
include h

lemma kallocRefillLocal_moves : Moves s (kallocRefillLocal L s c).2 := by
  simp only [kallocRefillLocal]
  split_ifs with hlow
  · exact Moves.refl h
  rw [takeBatch_all fun r hr => ⟨(h.freelist_valid r hr).1,(h.freelist_valid r hr).2.1⟩]
  refine moves_of_perm h ?_ ?_
  · -- the pages taken move from the head of the freelist to the top of the cache
    rw [← append_assoc]
    refine List.Perm.append_right _ ?_
    refine perm_append_comm.trans ?_
    rw [take_append_drop]
  · have hgoal:=kallocPickRefillGoal_le (n := (s.cache c).length) (by omega)
    simp only [length_append,length_take]
    omega

lemma kallocDrainLocal_moves : Moves s (kallocDrainLocal L s c) := by
  simp only [kallocDrainLocal]
  split_ifs with hhigh hdrain
  · exact Moves.refl h
  · exact Moves.refl h
  rw [checkedFreelist_all fun r hr => (h.freelist_valid r hr).2.1,drainLoop_all (h.cache_valid c)]
  refine moves_of_perm h ?_ ?_
  · refine perm_append_comm.trans ?_
    rw [← append_assoc]
    refine List.Perm.trans ?_ perm_append_comm
    refine List.Perm.append_right _ ?_
    refine ((reverse_perm _).append_left _).trans ?_
    refine perm_append_comm.trans ?_
    rw [take_append_drop]
  · have := h.cap c
    simp only [length_drop]
    omega

lemma kallocCachePopValid_eq : kallocCachePopValid L s c=((s.cache c).head?,setCache s c (s.cache c).tail) := by
  simp only [kallocCachePopValid,popValid_all (h.cache_valid c)]

lemma kfreeEmergency_moves : Moves s (kfreeEmergency L s c) ∧
      ((kfreeEmergency L s c).cache c).length<kallocCpuCache := by
  simp only [kfreeEmergency]
  split_ifs with hfull
  · rw [checkedFreelist_all fun r hr => (h.freelist_valid r hr).2.1,kallocCachePopValid_eq h c]
    have hcap:=h.cap c
    cases hc : s.cache c with
    | nil => simp [hc,kallocCpuCache] at hfull
    | cons p rest =>
      rw [hc] at hcap
      simp only [length_cons] at hcap
      simp only [head?_cons,tail_cons]
      refine ⟨moves_of_perm h ?_ (by omega),?_⟩
      · rw [hc]
        exact perm_middle.symm
      · simp only [setCache,update_self]
        omega
  · exact ⟨Moves.refl h,by omega⟩

end

lemma kfreeInsert_spec {r : ℕ} (h : Inv L s (r::out)) (hs : Counted s) (c : Fin ncpu) :
    ∃ fl ca,kfreeInsert L s c r=some {s with freelist := fl,cache := ca,freePages := s.freePages+1} ∧
      Inv L {s with freelist := fl,cache := ca,freePages := s.freePages+1} out ∧
      Counted {s with freelist := fl,cache := ca,freePages := s.freePages+1} ∧
      (s.useLock=false → fl=r::s.freelist) := by
  obtain ⟨hm,_,hone⟩:=h.of_occ (p := r) (by simp)
  have hvalid:=h.managed_valid r hm
  have hfits : uintAdd s.freePages 1=s.freePages+1 := by
    have hle:=h.listed_le
    have heq : s.freePages=listed s := hs
    rw [npages_eq] at hle
    exact uintAdd_of_lt (by rw [wordMod]; omega)
  have hocc : ∀ p,count p (r::out)=(if r=p then 1 else 0)+out.count p := by
    intro p
    rw [count_cons]
    simp only [beq_iff_eq]
    omega
  by_cases hlock : s.useLock=true
  · have hd:=kallocDrainLocal_moves h c
    obtain ⟨he,hroom⟩:=kfreeEmergency_moves (hd.inv h) c
    have hmv:=hd.trans he
    have hinv:=hmv.inv h
    have hcnt:=hmv.counted hs
    generalize ht : kfreeEmergency L (kallocDrainLocal L s c) c=t at hmv hinv hcnt hroom
    obtain ⟨⟨fl,ca,rfl⟩,_,_,_⟩:=hmv
    refine ⟨fl,update ca c (r::ca c),?_,⟨h.managed_valid,h.early,?_,h.free_iff,h.desc,?_,h.online⟩,?_,by simp [hlock]⟩
    · simp only [kfreeInsert,hvalid,hlock,ht,not_true_eq_false,if_false]
      rw [if_neg (by simpa using hroom)]
      simp only [setCache,hfits]
    · intro p
      have hold:=hinv.occ_eq p
      have hsum:=sum_cache_update (count p) ca c (r::ca c)
      rw [hocc] at hold
      simp only [count_cons,beq_iff_eq] at hsum
      simp only [occ] at hold ⊢
      omega
    · intro c'
      simp only
      by_cases hc : c'=c
      · rw [hc,update_self]
        simpa using hroom
      · rw [update_of_ne hc]
        exact hinv.cap c'
    · have hsum:=sum_cache_update length ca c (r::ca c)
      simp only [Counted,listed,length_cons] at hcnt hsum ⊢
      omega
  · have hearly : s.useLock=false := by simpa using hlock
    have hfl : checkedFreelist L s.freelist=s.freelist := checkedFreelist_all fun x hx => (h.freelist_valid x hx).2.1
    refine ⟨r::s.freelist,s.cache,?_,⟨h.managed_valid,h.early,?_,h.free_iff,h.desc,h.cap,h.online⟩,?_,fun _ => rfl⟩
    · simp only [kfreeInsert,hvalid,hearly,not_true_eq_false,if_false,hfits,hfl]
      simp
    · intro p
      have hold:=h.occ_eq p
      simp only [occ,count_cons,beq_iff_eq] at hold ⊢
      omega
    · simp only [Counted,listed,length_cons] at hs ⊢
      omega

end

end Auxv6.Mem
