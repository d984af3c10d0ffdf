import Auxv6.Mem.KallocInvariant

/-!
# What each allocator call does

One specification for each call, from a state between calls.
-/

namespace Auxv6.Mem
open Machine Function List Nat

structure Good (L : Layout) (s : State) : Prop where
  inv : Inv L s []
  counted : Counted s

def setPage (s : State) (r : ℕ) (m : KpageMeta) (d : PageDescriptor) : State :=
  {s with kmeta := update s.kmeta r m,pgArray := update s.pgArray r d}

section

variable {L : Layout} {s : State} {out out' : List ℕ} {r p : ℕ} {m : KpageMeta} {d : PageDescriptor}

@[simp] lemma setPage_kmeta_self : (setPage s r m d).kmeta r=m := update_self ..
@[simp] lemma setPage_pgArray_self : (setPage s r m d).pgArray r=d := update_self ..
lemma setPage_kmeta_of_ne (hp : p≠r) : (setPage s r m d).kmeta p=s.kmeta p := update_of_ne hp ..
lemma setPage_pgArray_of_ne (hp : p≠r) : (setPage s r m d).pgArray p=s.pgArray p := update_of_ne hp ..
@[simp] lemma occ_setPage (p : ℕ) : occ (setPage s r m d) p=occ s p := rfl
lemma kpageRefcount_setPage_of_ne (hp : p≠r) : kpageRefcount (setPage s r m d) p=kpageRefcount s p := by
  simp only [kpageRefcount,pagedbRefcountPa,setPage_kmeta_of_ne hp,setPage_pgArray_of_ne hp]
  rfl
lemma kpageRefcount_setPage_self (hr : r<npages) (hm : m.managed=true) :
    kpageRefcount (setPage s r m d) r=if s.pgReady then d.refcount else m.refcount := by
  simp only [kpageRefcount,pagedbRefcountPa,setPage_kmeta_self,setPage_pgArray_self,hr,hm]
  cases hpg : s.pgReady <;> simp [setPage,hpg]
lemma lt_npages_of_valid (hr : kallocRunptrValid L r=true) : r<npages := by
  have := (runptrValid_iff.mp hr).2
  simp only [pgsize,physTop,npages] at this ⊢
  omega

lemma Inv.setPage (h : Inv L s out) (hv : kallocRunptrValid L r=true)
    (hearly : s.kpgdir=false → r<earlyFrames) (hm : m.managed=true)
    (hd : s.pgReady=true → d.managed=true ∧ d.free=m.free)
    (href : m.free=true ↔ (if s.pgReady then d.refcount else m.refcount)=0)
    (hout : ∀ p,p≠r → out'.count p=out.count p)
    (hocc : occ s r+out'.count r=if m.free=true then 1 else 0) : Inv L (setPage s r m d) out' := by
  refine ⟨fun p hp => ?_,fun hk p hp => ?_,fun p => ?_,fun p hp => ?_,fun hpg p hp => ?_,h.cap,
    h.online⟩ <;> by_cases hpr : p=r
  · exact hpr ▸ hv
  · rw [setPage_kmeta_of_ne hpr] at hp
    exact h.managed_valid p hp
  · exact hpr ▸ hearly hk
  · rw [setPage_kmeta_of_ne hpr] at hp
    exact h.early hk p hp
  · subst hpr
    simpa only [occ_setPage,setPage_kmeta_self,hm,true_and] using hocc
  · simp only [occ_setPage,setPage_kmeta_of_ne hpr,hout p hpr]
    exact h.occ_eq p
  · subst hpr
    rw [setPage_kmeta_self,kpageRefcount_setPage_self (lt_npages_of_valid hv) hm]
    exact href
  · rw [setPage_kmeta_of_ne hpr] at hp ⊢
    rw [kpageRefcount_setPage_of_ne hpr]
    exact h.free_iff p hp
  · subst hpr
    rw [setPage_kmeta_self,setPage_pgArray_self]
    exact hd hpg
  · rw [setPage_kmeta_of_ne hpr] at hp ⊢
    rw [setPage_pgArray_of_ne hpr]
    exact h.desc hpg p hp

lemma setMeta_pagedbUpdate (s : State) (r : ℕ) (m : KpageMeta) (f : PageDescriptor → PageDescriptor) :
    pagedbUpdate (setMeta s r m) r f =
      setPage s r m (if s.pgReady ∧ r<npages then f (s.pgArray r) else s.pgArray r) := by
  have hpg : (setMeta s r m).pgReady=s.pgReady := rfl
  by_cases hc : s.pgReady=true ∧ r<npages
  · rw [pagedbUpdate,hpg,if_pos hc,if_pos hc]
    rfl
  · rw [pagedbUpdate,hpg,if_neg hc,if_neg hc]
    simp [setMeta,Auxv6.Mem.setPage]

lemma pagedbUpdate_setPage (s : State) (r : ℕ) (m : KpageMeta) (d : PageDescriptor)
    (f : PageDescriptor → PageDescriptor) :
    pagedbUpdate (setPage s r m d) r f=setPage s r m (if s.pgReady ∧ r<npages then f d else d) := by
  have hpg : (Auxv6.Mem.setPage s r m d).pgReady=s.pgReady := rfl
  by_cases hc : s.pgReady=true ∧ r<npages
  · rw [pagedbUpdate,hpg,if_pos hc,if_pos hc,setPage_pgArray_self]
    simp [Auxv6.Mem.setPage]
  · rw [pagedbUpdate,hpg,if_neg hc,if_neg hc]

lemma setMeta_setPage (s : State) (r : ℕ) (m m' : KpageMeta) (d : PageDescriptor) :
    setMeta (setPage s r m d) r m'=setPage s r m' d := by
  simp [setMeta,Auxv6.Mem.setPage]

lemma markAllocated_eq (s : State) {r : ℕ} (hr : r<npages) : markAllocated s r=setPage s r
      ⟨if s.pgReady then (s.kmeta r).refcount else 1,(s.kmeta r).managed,false⟩
      (if s.pgReady then ⟨true,false,(s.pgArray r).reserved,1⟩ else s.pgArray r) := by
  simp only [markAllocated,pagedbMarkAllocatedPa,pagedbSetRefcountPa,setMeta_pagedbUpdate,
    pagedbUpdate_setPage,hr,and_true]
  split_ifs <;> rfl

lemma Inv.markAllocated (h : Inv L s (r::out)) : Inv L (markAllocated s r) out := by
  obtain ⟨hm,_,hone⟩:=h.of_occ (p := r) (by simp)
  rw [count_cons_self] at hone
  rw [markAllocated_eq s (h.lt_npages hm)]
  refine h.setPage (h.managed_valid r hm) (fun hk => h.early hk r hm) hm ?_ ?_ ?_ ?_
  · intro hpg
    simp [hpg]
  · cases s.pgReady <;> simp
  · intro p hp
    rw [count_cons_of_ne (Ne.symm hp)]
  · simp only [Bool.false_eq_true,if_false]
    omega

lemma kpageRefcount_markAllocated (h : Inv L s (r::out)) (p : ℕ) :
    kpageRefcount (markAllocated s r) p=if p=r then 1 else kpageRefcount s p := by
  obtain ⟨hm,_,_⟩:=h.of_occ (p := r) (by simp)
  rw [markAllocated_eq s (h.lt_npages hm)]
  by_cases hp : p=r
  · rw [if_pos hp,hp]
    refine Eq.trans (kpageRefcount_setPage_self (h.lt_npages hm) ?_) ?_
    · exact hm
    · cases s.pgReady <;> rfl
  · rw [if_neg hp,kpageRefcount_setPage_of_ne hp]

lemma markAllocated_setPage (s : State) (r : ℕ) :
    ∃ m d,markAllocated s r=setPage s r m d ∧ m.managed=(s.kmeta r).managed := by
  simp only [Auxv6.Mem.markAllocated,pagedbMarkAllocatedPa,pagedbSetRefcountPa,
    setMeta_pagedbUpdate,pagedbUpdate_setPage]
  exact ⟨_,_,rfl,rfl⟩

end

structure Hands (s : State) (run : List ℕ) (s' : State) : Prop where
  flags : s'.kpgdir=s.kpgdir ∧ s'.useLock=s.useLock ∧ s'.pgReady=s.pgReady ∧ s'.pageallocOnline=s.pageallocOnline
  managed : ∀ p,(s'.kmeta p).managed=(s.kmeta p).managed
  fresh : ∀ r∈run,(s.kmeta r).managed=true ∧ (s.kmeta r).free=true
  refs : ∀ p,kpageRefcount s' p=if p∈run then 1 else kpageRefcount s p

section

variable {L : Layout} {s s' s'' : State} {out run : List ℕ} {r refs v : ℕ} {c : Fin ncpu} {free : Bool}

lemma Moves.hands (hm : Moves s s') : Hands s [] s' := by
  obtain ⟨⟨fl,ca,rfl⟩,_,_,_⟩:=hm
  exact ⟨⟨rfl,rfl,rfl,rfl⟩,fun _ => rfl,by simp,fun p => by simp; rfl⟩
lemma Moves.trans_hands (hm : Moves s s') (h : Hands s' run s'') : Hands s run s'' := by
  obtain ⟨⟨fl,ca,rfl⟩,_,_,_⟩:=hm
  exact ⟨h.flags,h.managed,h.fresh,h.refs⟩

lemma foldl_markAllocated_lists (run : List ℕ) (s : State) : (run.foldl markAllocated s).freelist=s.freelist ∧
    (run.foldl markAllocated s).cache=s.cache ∧ (run.foldl markAllocated s).freePages=s.freePages := by
  induction run generalizing s with
  | nil => exact ⟨rfl,rfl,rfl⟩
  | cons r rest ih =>
    obtain ⟨m,d,heq,_⟩:=markAllocated_setPage s r
    rw [foldl_cons,heq]
    exact ih (setPage s r m d)

lemma foldl_markAllocated_freePages (run : List ℕ) (s : State) (n : ℕ) :
    {run.foldl markAllocated s with freePages := n} = run.foldl markAllocated {s with freePages := n} := by
  induction run generalizing s with
  | nil => rfl
  | cons r rest ih =>
    have hcomm : markAllocated {s with freePages := n} r = {markAllocated s r with freePages := n} := by
      simp only [markAllocated,pagedbMarkAllocatedPa,pagedbSetRefcountPa,setMeta_pagedbUpdate,pagedbUpdate_setPage]
      rfl
    rw [foldl_cons,foldl_cons,hcomm]
    exact ih _

lemma foldl_markAllocated_spec (run : List ℕ) (h : Inv L s run) :
    Inv L (run.foldl markAllocated s) [] ∧ Hands s run (run.foldl markAllocated s) := by
  induction run generalizing s with
  | nil => exact ⟨h,⟨rfl,rfl,rfl,rfl⟩,fun _ => rfl,by simp,fun p => by simp⟩
  | cons r rest ih =>
    obtain ⟨hm,hf,hone⟩:=h.of_occ (p := r) (by simp)
    rw [count_cons_self] at hone
    obtain ⟨hinv,hands⟩:=ih h.markAllocated
    have hrefs:=kpageRefcount_markAllocated h
    obtain ⟨m,d,heq,hmm⟩:=markAllocated_setPage s r
    refine ⟨hinv,?_,fun p => ?_,fun x hx => ?_,fun p => ?_⟩
    · have hflags:=hands.flags
      rw [heq] at hflags
      rw [foldl_cons,heq]
      exact hflags
    · rw [foldl_cons,hands.managed p,heq]
      by_cases hp : p=r
      · rw [hp,setPage_kmeta_self,hmm]
      · rw [setPage_kmeta_of_ne hp]
    · rcases mem_cons.mp hx with rfl | hrest
      · exact ⟨hm,hf⟩
      have hxr : x≠r := by
        rintro rfl
        have := count_pos_iff.mpr hrest
        omega
      have hfr:=hands.fresh x hrest
      rw [heq,setPage_kmeta_of_ne hxr] at hfr
      exact hfr
    · rw [foldl_cons,hands.refs p,hrefs p]
      by_cases hp : p=r <;> simp [hp]

lemma Inv.of_take {fl : List ℕ} {ca : Fin ncpu → List ℕ} {n : ℕ} (h : Inv L s [])
    (hocc : ∀ p,(fl.count p + ∑ c,(ca c).count p)+run.count p=occ s p) (hcap : ∀ c,(ca c).length≤kallocCpuCache) :
    Inv L {s with freelist := fl,cache := ca,freePages := n} run :=
  ⟨h.managed_valid,h.early,fun p => by
    have := h.occ_eq p
    simp only [count_nil,add_zero] at this
    rw [← this,← hocc p]
    rfl,h.free_iff,h.desc,hcap,h.online⟩

lemma Good.take (h : Good L s) (fl run : List ℕ) (ca : Fin ncpu → List ℕ)
    (hocc : ∀ p,(fl.count p + ∑ c,(ca c).count p)+run.count p=occ s p)
    (hlen : (fl.length + ∑ c,(ca c).length)+run.length=listed s) (hcap : ∀ c,(ca c).length≤kallocCpuCache) :
    Good L (run.foldl markAllocated {s with freelist := fl,cache := ca,freePages := s.freePages-run.length}) ∧
    Hands s run (run.foldl markAllocated
      {s with freelist := fl,cache := ca,freePages := s.freePages-run.length}) := by
  obtain ⟨hinv,hands⟩:=foldl_markAllocated_spec run (h.inv.of_take (n := s.freePages-run.length) hocc hcap)
  obtain ⟨hfl,hca,hfp⟩:=foldl_markAllocated_lists run
    {s with freelist := fl,cache := ca,freePages := s.freePages-run.length}
  refine ⟨⟨hinv,?_⟩,hands.flags,hands.managed,hands.fresh,hands.refs⟩
  have hc : s.freePages=listed s := h.counted
  simp only [Counted,listed,hfl,hca,hfp]
  omega

lemma Good.freePages_lt (h : Good L s) : s.freePages<wordMod := by
  have hle:=h.inv.listed_le
  have heq : s.freePages=listed s := h.counted
  rw [npages_eq] at hle
  rw [wordMod]
  omega

lemma kallocHandOut_spec {rest : List ℕ} (h : Good L s) (hc : s.cache c=r::rest) :
    ∃ s',kallocHandOut L (setCache s c rest) r=some (some r,s') ∧ Good L s' ∧ Hands s [r] s' := by
  obtain ⟨hm,_,_⟩:=h.inv.of_occ (p := r) (by
    have := occ_pos_of_mem_cache (s := s) (c := c) (p := r) (by simp [hc])
    omega)
  have hmem : r∈s.cache c := by simp [hc]
  have hpos : 0<s.freePages := by
    have heq : s.freePages=listed s := h.counted
    have hone:=Finset.single_le_sum (f := fun i => (s.cache i).length) (fun _ _ => zero_le _) (Finset.mem_univ c)
    have := length_pos_of_mem hmem
    simp only [listed] at *
    omega
  have htake:=h.take s.freelist [r] (update s.cache c rest) (fun p => ?_) ?_ ?_
  · refine ⟨_,?_,htake⟩
    have hw : kaddrWritable L (setCache s c rest) (metaAddr L r)=true := kaddrWritable_meta (h.inv.lt_npages hm)
    have hm' : ((setCache s c rest).kmeta r).managed=true := hm
    simp only [kallocHandOut,hw,hm',not_true_eq_false,or_self,if_false]
    have hsub : uintSub (setCache s c rest).freePages 1=s.freePages-1 := uintSub_of_le hpos h.freePages_lt
    rw [hsub]
    rfl
  · have hsum:=sum_cache_update (List.count p) s.cache c rest
    rw [hc,count_cons] at hsum
    simp only [occ,count_singleton]
    omega
  · have hsum:=sum_cache_update List.length s.cache c rest
    rw [hc,length_cons] at hsum
    simp only [listed,length_singleton]
    omega
  · intro c'
    by_cases hcc : c'=c
    · have := h.inv.cap c
      rw [hc,length_cons] at this
      rw [hcc,update_self]
      omega
    · rw [update_of_ne hcc]
      exact h.inv.cap c'

lemma Moves.good (hm : Moves s s') (h : Good L s) : Good L s' := ⟨hm.inv h.inv,hm.counted h.counted⟩

section
variable (h : Good L s) (c : Fin ncpu)
include h

lemma kallocPop_spec : (s.cache c=[] ∧ (kallocCachePopValid L s c).1=none ∧
      Moves s (kallocCachePopValid L s c).2 ∧ ((kallocCachePopValid L s c).2.cache c)=[]) ∨
    ∃ r s',(kallocCachePopValid L s c).1=some r ∧
      kallocHandOut L (kallocCachePopValid L s c).2 r=some (some r,s') ∧ Good L s' ∧ Hands s [r] s' := by
  rw [kallocCachePopValid_eq h.inv c]
  cases hc : s.cache c with
  | nil =>
    have hm : Moves s (setCache s c []) := moves_of_perm h.inv (by rw [hc]) (by simp)
    exact .inl ⟨rfl,rfl,hm,update_self ..⟩
  | cons r rest =>
    obtain ⟨s',ho,hg,hh⟩:=kallocHandOut_spec h hc
    exact .inr ⟨r,s',rfl,ho,hg,hh⟩

lemma kallocLegacyPage_spec : ∃ res s',kallocLegacyPage L s c=some (res,s') ∧ Good L s' ∧ Hands s res.toList s' := by
  by_cases hlock : s.useLock=true
  · simp only [kallocLegacyPage,hlock,not_true_eq_false,if_false]
    -- the refill before the first pop is a move, taken or not
    have hmv : Moves s (if (s.cache c).length≤kallocPcpuRefillTrigger then
        (kallocRefillLocal L s c).2 else s) := by
      split_ifs
      · exact kallocRefillLocal_moves h.inv c
      · exact Moves.refl h.inv
    generalize (if (s.cache c).length≤kallocPcpuRefillTrigger then
        (kallocRefillLocal L s c).2 else s)=s1 at hmv ⊢
    have hg1:=hmv.good h
    rcases hpop : kallocCachePopValid L s1 c with ⟨res,s2⟩
    have hspec:=kallocPop_spec hg1 c
    rw [hpop] at hspec
    rcases hspec with ⟨_,rfl,hmv2,_⟩ | ⟨r,s',rfl,ho,hg,hh⟩
    · -- the cache was empty: one more refill and pop
      have hg2:=hmv2.good hg1
      have hmv3:=kallocRefillLocal_moves hg2.inv c
      have hg3:=hmv3.good hg2
      have hmv0:=(hmv.trans hmv2).trans hmv3
      simp only
      split_ifs with hn
      · rcases hpop2 : kallocCachePopValid L (kallocRefillLocal L s2 c).2 c with ⟨res,s4⟩
        have hspec2:=kallocPop_spec hg3 c
        rw [hpop2] at hspec2
        rcases hspec2 with ⟨hempty,_⟩ | ⟨r,s',rfl,ho,hg,hh⟩
        · rw [hempty] at hn
          simp at hn
        · exact ⟨some r,s',ho,hg,hmv0.trans_hands hh⟩
      · exact ⟨none,_,rfl,hg3,hmv0.hands⟩
    · exact ⟨some r,s',ho,hg,hmv.trans_hands hh⟩
  · simp only [kallocLegacyPage]
    rw [if_pos hlock]
    cases hfl : s.freelist with
    | nil => exact ⟨none,s,rfl,h,(Moves.refl h.inv).hands⟩
    | cons r rest =>
      have hmem : r∈s.freelist := by simp [hfl]
      obtain ⟨hv,_,hmf⟩:=h.inv.freelist_valid r hmem
      simp only [Bool.and_eq_true] at hmf
      have htake:=h.take rest [r] s.cache (fun p => ?_) ?_ h.inv.cap
      · refine ⟨some r,_,?_,htake⟩
        simp [hv,hmf.1,kaddrWritable_meta (L := L) (s := s) (h.inv.lt_npages hmf.1)]
      · simp only [occ,hfl,count_cons,count_nil]
        omega
      · simp only [listed,hfl,length_cons,length_nil]
        omega

lemma kalloc_spec : ∃ res s',kalloc L s c=some (res,s') ∧ Good L s' ∧ Hands s res.toList s' := by
  obtain ⟨res,s',heq,hg,hh⟩:=kallocLegacyPage_spec h c
  refine ⟨res,s',?_,hg,hh⟩
  cases res with
  | none => simp [kalloc,heq]
  | some r =>
    have hr : r<npages := h.inv.lt_npages (hh.fresh r (by simp)).1
    have hpg : s.pageallocOnline=true → s'.pgReady=true := fun ho => by
      rw [hh.flags.2.2.1]
      exact h.inv.online ho
    simp only [kalloc,heq]
    rw [if_neg]
    rintro ⟨ho,hn⟩
    exact hn ⟨hpg ho,hr⟩

lemma kallocContiguous_spec (npg : ℕ) :
    ∃ res run s',kallocContiguous L s c npg=some (res,s') ∧ Good L s' ∧ Hands s run s' ∧
      res=run.getLast? ∧ (s.useLock=true → 1<npg → (contigParts L s npg).2.1.length=npg →
        run=(contigParts L s npg).2.1) := by
  have hscan:=contigScan_all npg (fun r hr => h.inv.freelist_valid r hr) [] []
  rw [← contigParts] at hscan
  simp only [kallocContiguous]
  generalize contigParts L s npg=t at hscan ⊢
  obtain ⟨before,run,rest⟩:=t
  simp only [nil_append] at hscan ⊢
  have hmem : ∀ r∈run,(s.kmeta r).managed=true := by
    intro r hr
    have := (h.inv.freelist_valid r (by rw [← hscan]; simp [hr])).2.2
    simp only [Bool.and_eq_true] at this
    exact this.1
  have hfp:=(foldl_markAllocated_lists run {s with freelist := before++rest}).2.2
  split_ifs with h0 h1 hlock hlen hall hle
  · exact ⟨none,[],s,rfl,h,(Moves.refl h.inv).hands,rfl,fun _ hn => by omega⟩
  · obtain ⟨res,s',heq,hg,hh⟩:=kallocLegacyPage_spec h c
    refine ⟨res,res.toList,s',heq,hg,hh,?_,fun _ hn => by omega⟩
    cases res <;> rfl
  · refine ⟨none,[],s,?_,h,(Moves.refl h.inv).hands,rfl,fun _ _ hn => absurd hn hlen⟩
    rw [hscan]
  · have htake:=h.take (before++rest) run s.cache (fun p => ?_) ?_ h.inv.cap
    · refine ⟨run.getLast?,run,_,?_,htake.1,htake.2,rfl,fun _ _ _ => rfl⟩
      rw [foldl_markAllocated_freePages,hfp,← not_not.mp hlen]
    · simp only [occ,← hscan,count_append]
      omega
    · simp only [listed,← hscan,length_append]
      omega
  · have heq : s.freePages=listed s := h.counted
    rw [hfp] at hle
    simp only [listed,← hscan,length_append] at heq hle
    omega
  · exact absurd (all_eq_true.mpr hmem) hall
  · exact ⟨none,[],s,rfl,h,(Moves.refl h.inv).hands,rfl,fun hu => absurd hu hlock⟩

end

def setRef (s : State) (r refs : ℕ) (free : Bool) : State :=
  setPage s r ⟨if s.pgReady then (s.kmeta r).refcount else refs,(s.kmeta r).managed,free⟩
    (if s.pgReady then ⟨(s.pgArray r).managed,free,(s.pgArray r).reserved,refs⟩
      else s.pgArray r)

structure Refs (s : State) (r refs : ℕ) (s' : State) : Prop where
  flags : s'.kpgdir=s.kpgdir ∧ s'.useLock=s.useLock ∧ s'.pgReady=s.pgReady ∧ s'.pageallocOnline=s.pageallocOnline
  managed : ∀ p,(s'.kmeta p).managed=(s.kmeta p).managed
  refs : ∀ p,kpageRefcount s' p=if p=r then refs else kpageRefcount s p

lemma setRef_refs (hr : r<npages) (hm : (s.kmeta r).managed=true) : Refs s r refs (setRef s r refs free) := by
  refine ⟨⟨rfl,rfl,rfl,rfl⟩,fun p => ?_,fun p => ?_⟩ <;> by_cases hp : p=r
  · rw [hp,setRef,setPage_kmeta_self]
  · rw [setRef,setPage_kmeta_of_ne hp]
  · rw [if_pos hp,hp]
    refine Eq.trans (kpageRefcount_setPage_self hr ?_) ?_
    · exact hm
    · cases s.pgReady <;> rfl
  · rw [if_neg hp]
    exact kpageRefcount_setPage_of_ne hp

lemma Inv.setRef {out' : List ℕ} (h : Inv L s out) (hm : (s.kmeta r).managed=true)
    (hfree : free=true ↔ refs=0) (hout : ∀ p,p≠r → out'.count p=out.count p)
    (hocc : occ s r+out'.count r=if free=true then 1 else 0) : Inv L (setRef s r refs free) out' := by
  refine h.setPage (h.managed_valid r hm) (fun hk => h.early hk r hm) hm ?_ ?_ hout hocc
  · intro hpg
    simp only [hpg,if_true]
    exact ⟨(h.desc hpg r hm).1,trivial⟩
  · cases s.pgReady <;> exact hfree

lemma kpageDropRef_eq (h : Inv L s out) (hm : (s.kmeta r).managed=true) (hpos : kpageRefcount s r≠0) :
    kpageDropRef s r=some (kpageRefcount s r-1,setRef s r (kpageRefcount s r-1) (s.kmeta r).free) := by
  have hr:=h.lt_npages hm
  have hman : kpageIsManaged s r=true := by simp [kpageIsManaged,hr,hm]
  simp only [kpageDropRef,hman,not_true_eq_false,if_false]
  cases hpg : s.pgReady with
  | true =>
    have href : pagedbRefcountPa s r=kpageRefcount s r := by simp [kpageRefcount,hpg]
    have hfree:=(h.desc hpg r hm).2
    rw [href,if_pos rfl,if_neg hpos]
    simp only [pagedbSetRefcountPa,pagedbUpdate,hpg,hr,and_self,if_true,setRef,
      Auxv6.Mem.setPage,← hfree,Option.some.injEq,Prod.mk.injEq,true_and]
    congr 1
    rw [hfree]
    exact (update_eq_self r s.kmeta).symm
  | false =>
    have href : (s.kmeta r).refcount=kpageRefcount s r := by simp [kpageRefcount,hpg,hr,hm]
    rw [href]
    simp only [Bool.false_eq_true,if_false,if_neg hpos,setRef,hpg,setMeta,Auxv6.Mem.setPage,update_eq_self]

lemma markFree_setRef (hr : r<npages) : pagedbMarkFreePa (setMeta (setRef s r refs free) r
      {(setRef s r refs free).kmeta r with free := true}) r=setRef s r refs true := by
  simp only [setRef,setPage_kmeta_self,setMeta_setPage,pagedbMarkFreePa,pagedbUpdate_setPage,hr,and_true]
  cases s.pgReady <;> rfl

lemma kfree_page (h : Good L s) (hm : (s.kmeta r).managed=true) (c : Fin ncpu) :
    ∃ s',kfree L s c (p2v (r*pgsize))=some s' ∧ Good L s' ∧ Refs s r (kpageRefcount s r-1) s' ∧
      (s.useLock=false → kpageRefcount s r=1 → s'.freelist=r::s.freelist) := by
  have hr:=h.inv.lt_npages hm
  obtain ⟨hlo,hhi⟩:=runptrValid_iff.mp (h.inv.managed_valid r hm)
  have hchk : ¬ (p2v (r*pgsize)%pgsize≠0 ∨ p2v (r*pgsize)<L.endAddr ∨ kernbase+physTop≤p2v (r*pgsize)) := by
    have hal : (r*pgsize+kernbase)%pgsize=0 := by
      simp only [pgsize,kernbase]
      omega
    simp only [p2v,hal]
    omega
  have hidx : (p2v (r*pgsize)-kernbase)/pgsize=r := by
    simp [p2v,pgsize]
  have hw : kaddrWritable L s (metaAddr L r)=true := kaddrWritable_meta hr
  simp only [kfree,if_neg hchk,hidx,hw,hm,not_true_eq_false,or_self,if_false]
  by_cases hz : kpageRefcount s r=0
  · rw [if_pos hz,if_pos ((h.inv.free_iff r hm).mpr hz)]
    refine ⟨s,rfl,h,⟨⟨rfl,rfl,rfl,rfl⟩,fun _ => rfl,fun p => ?_⟩,fun _ h1 => by omega⟩
    by_cases hp : p=r <;> simp [hp,hz]
  have hused : (s.kmeta r).free=false := by
    cases hf : (s.kmeta r).free with
    | false => rfl
    | true => exact absurd ((h.inv.free_iff r hm).mp hf) hz
  have hocc : occ s r=0 := by
    have := h.inv.occ_eq r
    simpa [hused] using this
  rw [if_neg hz,kpageDropRef_eq h.inv hm hz,hused]
  simp only
  by_cases hlast : 0<kpageRefcount s r-1
  · rw [if_pos hlast]
    refine ⟨_,rfl,⟨?_,h.counted⟩,setRef_refs hr hm,fun _ h1 => by omega⟩
    exact h.inv.setRef hm (by simp; omega) (fun _ _ => rfl) (by simpa using hocc)
  rw [if_neg hlast,markFree_setRef hr]
  have hinv : Inv L (setRef s r (kpageRefcount s r-1) true) [r] := by
    refine h.inv.setRef hm (by simp; omega) (fun p hp => ?_) (by simp [hocc])
    rw [count_cons_of_ne (Ne.symm hp)]
  obtain ⟨fl,ca,heq,hi,hc,hearly⟩:=kfreeInsert_spec hinv h.counted c
  have hrefs : Refs s r (kpageRefcount s r-1) (setRef s r (kpageRefcount s r-1) true) := setRef_refs hr hm
  exact ⟨_,heq,⟨hi,hc⟩,⟨hrefs.flags,hrefs.managed,hrefs.refs⟩,fun hu _ => hearly hu⟩

lemma eq_p2v_of_aligned (hal : v%pgsize=0) (hge : kernbase≤v) : v=p2v ((v-kernbase)/pgsize*pgsize) := by
  have hbase : kernbase%pgsize=0 := rfl
  have hdvd : pgsize ∣ v-kernbase := Nat.dvd_sub (Nat.dvd_of_mod_eq_zero hal) (Nat.dvd_of_mod_eq_zero hbase)
  rw [p2v,Nat.div_mul_cancel hdvd]
  omega

lemma kfree_managed (hs : kfree L s c v=some s') : ∃ r,v=p2v (r*pgsize) ∧ (s.kmeta r).managed=true := by
  have hend:=L.meta_end
  have hmeta:=L.meta_ge
  have hdata:=L.data_ge
  simp only [kfree] at hs
  split_ifs at hs with hchk hm
  all_goals
    push Not at hchk hm
    exact ⟨(v-kernbase)/pgsize,eq_p2v_of_aligned hchk.1 (by omega),hm.2⟩

lemma kfree_spec (h : Good L s) (hs : kfree L s c v=some s') : Good L s' ∧
      ∃ r,(s.kmeta r).managed=true ∧ v=p2v (r*pgsize) ∧ Refs s r (kpageRefcount s r-1) s' := by
  obtain ⟨r,hv,hm⟩:=kfree_managed hs
  obtain ⟨t,ht,hg,hr,_⟩:=kfree_page h hm c
  rw [hv,ht] at hs
  cases hs
  exact ⟨hg,r,hm,hv,hr⟩

lemma kpageIncref_eq (h : Inv L s out) (hm : (s.kmeta r).managed=true) (hpos : kpageRefcount s r≠0) :
    kpageIncref s r=some (setRef s r (uintAdd (kpageRefcount s r) 1) false) := by
  have hr:=h.lt_npages hm
  have hman : kpageIsManaged s r=true := by simp [kpageIsManaged,hr,hm]
  have hused : (s.kmeta r).free=false := by
    cases hf : (s.kmeta r).free with
    | false => rfl
    | true => exact absurd ((h.free_iff r hm).mp hf) hpos
  simp only [kpageIncref,hman,not_true_eq_false,if_false,if_neg hpos,Option.some.injEq]
  cases hpg : s.pgReady with
  | true =>
    have hfree:=(h.desc hpg r hm).2
    rw [hused] at hfree
    simp only [pagedbSetRefcountPa,pagedbUpdate,hpg,hr,and_self,if_true,setRef,setMeta,Auxv6.Mem.setPage,hfree]
  | false =>
    simp only [Bool.false_eq_true,if_false,setRef,hpg,setMeta,Auxv6.Mem.setPage,
      update_self,update_idem,update_eq_self]

lemma kpageIncref_spec (h : Good L s) (hs : kpageIncref s r=some s') (hfits : kpageRefcount s r+1<wordMod) :
    Good L s' ∧ (s.kmeta r).managed=true ∧ 0<kpageRefcount s r ∧ Refs s r (kpageRefcount s r+1) s' := by
  have hman : kpageIsManaged s r=true ∧ kpageRefcount s r≠0 := by
    simp only [kpageIncref] at hs
    split_ifs at hs with h1 h2 <;> exact ⟨by simpa using h1,h2⟩
  have hm : (s.kmeta r).managed=true := by
    have := hman.1
    simp only [kpageIsManaged,Bool.and_eq_true] at this
    exact this.2
  have hocc : occ s r=0 := by
    have hfr:=h.inv.free_iff r hm
    have := h.inv.occ_eq r
    simp only [count_nil,add_zero,hfr,hman.2,and_false,if_false] at this
    exact this
  rw [kpageIncref_eq h.inv hm hman.2,uintAdd_of_lt hfits] at hs
  cases hs
  refine ⟨⟨?_,h.counted⟩,hm,pos_of_ne_zero hman.2,setRef_refs (h.inv.lt_npages hm) hm⟩
  exact h.inv.setRef hm (by simp) (fun _ _ => rfl) (by simpa using hocc)

end

end Auxv6.Mem
