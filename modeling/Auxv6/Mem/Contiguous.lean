import Auxv6.Mem.KallocRun

/-!
# Contiguous allocation

`Scanned` is what the one pass over the freelist keeps.
-/

namespace Auxv6.Mem
open Machine List Option

def Descending (run : List ℕ) : Prop := run.IsChain fun a b => b+1=a
def HoldsRun (fl : List ℕ) (n : ℕ) : Prop := ∃ run,run <:+: fl ∧ run.length=n ∧ Descending run

structure WellFormed (L : Layout) (s : State) : Prop where
  valid : ∀ r∈s.freelist,kallocFreeRunValid L s r=true
  nodup : s.freelist.Nodup
  counted : s.freelist.length ≤ s.freePages

section

variable {before run : List ℕ} {n : ℕ}

def Broken (before run : List ℕ) : Prop := ∀ p∈before.getLast?,∀ r∈run.head?,r+1≠p

structure Scanned (n : ℕ) (before run : List ℕ) : Prop where
  start : run=[] → before=[]
  desc : Descending run
  short : run.length<n
  broken : Broken before run
  unheld : ¬ HoldsRun (before++run) n

lemma scanned_nil (hn : 0<n) : Scanned n [] [] := by
  refine ⟨fun _ => rfl,isChain_nil,hn,by simp [Broken],?_⟩
  rintro ⟨w,hw,hlen,-⟩
  rw [append_nil,infix_nil] at hw
  rw [hw,length_nil] at hlen
  omega

lemma length_le_of_suffix {w : List ℕ} (hb : Broken before run) (hne : run≠[])
    (hw : w <:+ before++run) (hdesc : Descending w) : w.length≤run.length := by
  rcases suffix_or_suffix_of_suffix hw (suffix_append before run) with hsub | ⟨u,rfl⟩
  · exact hsub.length_le
  rcases eq_nil_or_concat u with rfl | ⟨u',p,rfl⟩
  · exact le_rfl
  -- a longer window would join the run to the page before it
  obtain ⟨v,hv⟩:=suffix_append_self_iff.mp hw
  obtain ⟨r,rest,rfl⟩:=exists_cons_of_ne_nil hne
  have hp : p∈before.getLast? := by
    rw [← hv]
    simp
  exact absurd ((isChain_append.mp hdesc).2.2 p (by simp) r rfl) (hb p hp r rfl)

lemma joinRun_cases (h : Scanned n before run) (r : ℕ) :
    joinRun before run r=(before,run++[r]) ∧ Descending (run++[r]) ∧ Broken before (run++[r]) ∨
      joinRun before run r=(before++run,[r]) ∧ Broken (before++run) [r] := by
  simp only [joinRun]
  cases hl : run.getLast? with
  | none =>
    obtain rfl:=getLast?_eq_none_iff.mp hl
    obtain rfl:=h.start rfl
    exact .inl ⟨rfl,isChain_singleton r,by simp [Broken]⟩
  | some last =>
    by_cases hadj : r+1=last
    · refine .inl ⟨if_pos hadj,?_,fun p hp x hx => ?_⟩
      · refine isChain_append.mpr ⟨h.desc,isChain_singleton r,fun x hx y hy => ?_⟩
        rw [hl,mem_some_iff] at hx
        rw [head?_singleton,mem_some_iff] at hy
        rw [← hx,← hy,hadj]
      · obtain ⟨first,rest,rfl⟩ : ∃ a l,run=a::l := exists_cons_of_ne_nil fun hnil => by simp [hnil] at hl
        exact h.broken p hp x hx
    · refine .inr ⟨if_neg hadj,fun p hp x hx => ?_⟩
      rw [getLast?_append,hl,some_or,mem_some_iff] at hp
      rw [head?_singleton,mem_some_iff] at hx
      rwa [← hp,← hx]

lemma joinRun_scanned (h : Scanned n before run) (hn : 1<n) (r : ℕ) : Descending (joinRun before run r).2 ∧
      ((joinRun before run r).2.length≠n → Scanned n (joinRun before run r).1 (joinRun before run r).2) := by
  have happ:=joinRun_append before run r
  have hshort:=h.short
  generalize hj : joinRun before run r=t at happ ⊢
  obtain ⟨b,w⟩:=t
  have hw : Descending w ∧ w≠[] ∧ w.length≤n ∧ Broken b w := by
    rcases joinRun_cases h r with ⟨heq,hd,hb⟩ | ⟨heq,hb⟩ <;> rw [heq] at hj <;> cases hj
    · refine ⟨hd,by simp,?_,hb⟩
      rw [length_append,length_singleton]
      omega
    · exact ⟨isChain_singleton r,by simp,hn.le,hb⟩
  obtain ⟨hd,hne,hle,hb⟩:=hw
  dsimp only at happ ⊢
  refine ⟨hd,fun hlen => ⟨fun hnil => absurd hnil hne,hd,by omega,hb,?_⟩⟩
  rintro ⟨u,hu,hulen,hud⟩
  rcases infix_concat_iff.mp (happ ▸ hu) with hsuf | hinf
  · have := length_le_of_suffix hb hne (happ ▸ hsuf) hud
    omega
  · exact h.unheld ⟨u,hinf,hulen,hud⟩

lemma contigScan_finds {valid runptr isFree : ℕ → Bool} {fl : List ℕ} (hn : 1<n)
    (hall : ∀ r∈fl,valid r=true ∧ runptr r=true ∧ isFree r=true) (h : Scanned n before run) :
    let t:=contigScan valid runptr isFree n before run fl
    Descending t.2.1 ∧ (t.2.1.length≠n → ¬ HoldsRun (before++run++fl) n) := by
  induction fl generalizing before run with
  | nil =>
    rw [append_nil]
    exact ⟨h.desc,fun _ => h.unheld⟩
  | cons r rest ih =>
    obtain ⟨hv,_,hf⟩:=hall r (mem_cons_self ..)
    have hrest:=fun x hx => hall x (mem_cons_of_mem _ hx)
    have hnext : scanNext runptr rest=rest := scanNext_all fun x hx => (hrest x hx).2.1
    have happ : before++run++r::rest=(joinRun before run r).1++(joinRun before run r).2++rest := by
      rw [joinRun_append]
      simp
    obtain ⟨hd,hscan⟩:=joinRun_scanned h hn r
    simp only [contigScan,hv,hf,hnext,not_true_eq_false,if_false,if_true]
    rw [happ]
    split_ifs with hend
    · refine ⟨hd,fun hlen => ?_⟩
      rw [hend.resolve_left hlen,append_nil]
      exact (hscan hlen).unheld
    · exact ih hrest (hscan fun hlen => hend (.inl hlen))

end

section

variable {L : Layout} {s : State} {base : ℕ}

lemma Good.wellFormed (h : Good L s) : WellFormed L s := by
  refine ⟨fun r hr => (h.inv.freelist_valid r hr).1,nodup_iff_count_le_one.mpr fun r => ?_,?_⟩
  · have hocc:=h.inv.occ_eq r
    simp only [occ,count_nil] at hocc
    split_ifs at hocc <;> omega
  · rw [show s.freePages=listed s from h.counted,listed]
    omega

lemma WellFormed.all (h : WellFormed L s) : ∀ r∈s.freelist,kallocFreeRunValid L s r=true ∧
    kallocRunptrValid L r=true ∧ ((s.kmeta r).managed && (s.kmeta r).free)=true := by
  intro r hr
  have hv:=h.valid r hr
  refine ⟨hv,?_⟩
  simp only [kallocFreeRunValid,Bool.and_eq_true] at hv ⊢
  exact ⟨hv.1.1.1.1.1,hv.1.1.1.2,hv.1.1.2⟩

lemma Descending.eq_range' {run : List ℕ} (h : Descending run)
    (hlast : run.getLast? = some base) : run=(range' base run.length).reverse := by
  induction run with
  | nil => cases hlast
  | cons r rest ih =>
    cases rest with
    | nil =>
      cases hlast
      rfl
    | cons next rest =>
      obtain ⟨hadj,htail⟩:=isChain_cons_cons.mp h
      have htl:=ih htail hlast
      have hhead : next=base+1*rest.length := by
        rw [length_cons,range'_concat,reverse_append] at htl
        exact (cons.inj htl).1
      have hlen : (r::next::rest).length=(next::rest).length+1 := rfl
      rw [hlen,range'_concat,reverse_append,← htl]
      exact congrArg (· :: next::rest) (by rw [length_cons]; omega)

lemma foldl_markAllocated_pages (run : List ℕ) (s : State) (hrun : ∀ r∈run,r<npages) :
    let t:=run.foldl markAllocated s
    (∀ r∈run,(s.kmeta r).managed=true → (t.kmeta r).managed=true ∧ (t.kmeta r).free=false ∧ kpageRefcount t r=1) ∧
    (∀ r,r∉run → t.kmeta r=s.kmeta r ∧ t.pgArray r=s.pgArray r) ∧
    t = {s with kmeta := t.kmeta,pgArray := t.pgArray} := by
  induction run generalizing s with
  | nil => exact ⟨by simp,fun _ _ => ⟨rfl,rfl⟩,rfl⟩
  | cons r rest ih =>
    have hr:=hrun r (mem_cons_self ..)
    obtain ⟨hin,hout,hrest⟩:=ih (markAllocated s r) fun x hx => hrun x (mem_cons_of_mem _ hx)
    rw [foldl_cons]
    obtain ⟨m,d,hmark,hmm⟩:=markAllocated_setPage s r
    have hother : ∀ x,x≠r → (markAllocated s r).kmeta x=s.kmeta x ∧
        (markAllocated s r).pgArray x=s.pgArray x := fun x hx => by
      rw [hmark]
      exact ⟨setPage_kmeta_of_ne hx,setPage_pgArray_of_ne hx⟩
    refine ⟨fun x hx hm => ?_,fun x hx => ?_,?_⟩
    · by_cases hxr : x∈rest
      · refine hin x hxr ?_
        by_cases heq : x=r
        · rw [heq,hmark,setPage_kmeta_self,hmm,← heq,hm]
        · rw [(hother x heq).1,hm]
      obtain rfl:=(mem_cons.mp hx).resolve_right hxr
      obtain ⟨hk,hd⟩:=hout x hxr
      have hpg : (rest.foldl markAllocated (markAllocated s x)).pgReady=(markAllocated s x).pgReady := by
        rw [hrest]
      rw [kpageRefcount,pagedbRefcountPa,hk,hd,hpg,markAllocated_eq s hr,setPage_kmeta_self,setPage_pgArray_self]
      cases hready : s.pgReady <;> simp [setPage,hready,hr,hm]
    · rw [mem_cons,not_or] at hx
      obtain ⟨hk,hd⟩:=hout x hx.2
      rw [hk,hd]
      exact hother x hx.1
    · rw [hrest,hmark]
      rfl

structure TakesRun (s : State) (base n : ℕ) (s' : State) : Prop where
  freelist : ∃ pre post,s.freelist=pre++(range' base n).reverse++post ∧ s'.freelist=pre++post
  allocated : ∀ r,base≤r → r<base+n → (s'.kmeta r).managed=true ∧ (s'.kmeta r).free=false ∧ kpageRefcount s' r=1
  others : ∀ r,¬ (base≤r ∧ r<base+n) → s'.kmeta r=s.kmeta r ∧ s'.pgArray r=s.pgArray r
  freePages : s'.freePages+n=s.freePages
  caches : s'.cache=s.cache
  flags : s'.kpgdir=s.kpgdir ∧ s'.useLock=s.useLock ∧ s'.pgReady=s.pgReady ∧
    s'.totalPages=s.totalPages ∧ s'.pageallocOnline=s.pageallocOnline

lemma takesRun {pre run post : List ℕ} (h : WellFormed L s) (happ : pre++run++post=s.freelist)
    (hdesc : Descending run) (hbase : run.getLast? = some base) : TakesRun s base run.length
      { run.foldl markAllocated {s with freelist := pre++post} with freePages := s.freePages-run.length } := by
  have hmem : ∀ r∈run,r∈s.freelist := fun r hr => by
    rw [← happ]
    simp [hr]
  have hrange:=hdesc.eq_range' hbase
  have hin : ∀ r,r∈run ↔ base≤r ∧ r<base+run.length := fun r => by
    rw [hrange,mem_reverse,mem_range'_1,length_reverse,length_range']
  have hlen : run.length ≤ s.freePages := by
    refine le_trans ?_ h.counted
    rw [← happ,length_append,length_append]
    omega
  obtain ⟨hmark,hother,hrest⟩:=foldl_markAllocated_pages run {s with freelist := pre++post}
    fun r hr => lt_npages_of_valid (h.all r (hmem r hr)).2.1
  refine ⟨⟨pre,post,?_,?_⟩,fun r hlo hhi => ?_,fun r hr => hother r (mt (hin r).mp hr),?_,?_,?_⟩
  · rw [← hrange,happ]
  · rw [hrest]
  · have hr:=(hin r).mpr ⟨hlo,hhi⟩
    have hm:=(h.all r (hmem r hr)).2.2
    rw [Bool.and_eq_true] at hm
    exact hmark r hr hm.1
  · exact Nat.sub_add_cancel hlen
  · rw [hrest]
  · rw [hrest]
    exact ⟨rfl,rfl,rfl,rfl,rfl⟩

/-- `kalloc_contiguous` finds a run exactly when the freelist holds one, once boot is
past `kinit2`; it takes that run alone, and a failed call changes nothing. -/
theorem kalloc_contiguous_finds (L : Layout) (s : State) (c : Fin ncpu) (n : ℕ) (h : WellFormed L s) (hn : 2≤n) :
    ∃ res s',kallocContiguous L s c n=some (res,s') ∧ (res.isSome ↔ s.useLock=true ∧ HoldsRun s.freelist n) ∧
      (∀ base,res=some base → TakesRun s base n s') ∧ (res=none → s'=s) := by
  have happ:=contigScan_all n h.all [] []
  have hfinds:=contigScan_finds (by omega : 1<n) h.all (scanned_nil (by omega))
  rw [← contigParts] at happ hfinds
  rw [kallocContiguous,if_neg (by omega),if_neg (by omega)]
  by_cases hlock : s.useLock=true
  · rw [if_neg (not_not.mpr hlock)]
    generalize contigParts L s n=t at happ hfinds ⊢
    obtain ⟨pre,run,post⟩:=t
    simp only [nil_append] at happ hfinds ⊢
    obtain ⟨hdesc,hnone⟩:=hfinds
    by_cases hlen : run.length=n
    · have hne : run≠[] := fun hnil => by
        rw [hnil,length_nil] at hlen
        omega
      have hbase:=getLast?_eq_some_getLast hne
      generalize run.getLast hne=base at hbase
      have hall : run.all (fun r => (s.kmeta r).managed)=true := all_eq_true.mpr fun r hr => by
        have hm:=(h.all r (by rw [← happ]; simp [hr])).2.2
        rw [Bool.and_eq_true] at hm
        exact hm.1
      have htakes:=takesRun h happ hdesc hbase
      have hfp:=(foldl_markAllocated_lists run {s with freelist := pre++post}).2.2
      have hle : n ≤ s.freePages := by
        have := htakes.freePages
        omega
      rw [if_neg (not_not.mpr hlen),if_neg (not_not.mpr hall),hbase,hfp,if_pos hle]
      rw [hlen] at htakes
      refine ⟨some base,_,rfl,⟨fun _ => ⟨hlock,run,⟨pre,post,happ⟩,hlen,hdesc⟩,fun _ => rfl⟩,?_,
        (fun hc => by cases hc)⟩
      intro b hb
      cases hb
      exact htakes
    · rw [if_pos hlen]
      refine ⟨none,_,rfl,?_,(fun _ hc => by cases hc),fun _ => by rw [happ]⟩
      exact ⟨fun hc => Bool.noConfusion hc,fun hc => absurd hc.2 (hnone hlen)⟩
  · rw [if_pos hlock]
    exact ⟨none,s,rfl,⟨fun hc => Bool.noConfusion hc,fun hc => absurd hc.1 hlock⟩,
      (fun _ hc => by cases hc),fun _ => rfl⟩

lemma TakesRun.hands {s' : State} {n : ℕ} (h : WellFormed L s) (ht : TakesRun s base n s') :
    Hands s (range' base n) s' := by
  obtain ⟨pre,post,hfl,-⟩:=ht.freelist
  obtain ⟨hk,hu,hpg,-,ho⟩:=ht.flags
  have hfresh : ∀ r∈range' base n,(s.kmeta r).managed=true ∧ (s.kmeta r).free=true := by
    intro r hr
    have hmem : r∈s.freelist := by
      rw [hfl]
      simp only [mem_append,mem_reverse]
      exact .inl (.inr hr)
    simpa only [Bool.and_eq_true] using (h.all r hmem).2.2
  refine ⟨⟨hk,hu,hpg,ho⟩,fun p => ?_,hfresh,fun p => ?_⟩ <;> by_cases hp : p∈range' base n
  · obtain ⟨hlo,hhi⟩:=mem_range'_1.mp hp
    rw [(hfresh p hp).1,(ht.allocated p hlo hhi).1]
  · rw [(ht.others p (mt mem_range'_1.mpr hp)).1]
  · obtain ⟨hlo,hhi⟩:=mem_range'_1.mp hp
    rw [if_pos hp,(ht.allocated p hlo hhi).2.2]
  · obtain ⟨hm,hd⟩:=ht.others p (mt mem_range'_1.mpr hp)
    rw [if_neg hp,kpageRefcount,kpageRefcount,pagedbRefcountPa,pagedbRefcountPa,hm,hd,hpg]

end

lemma holdsRun_range' {first m n : ℕ} (hn : n ≤ m) (rest : List ℕ) : HoldsRun ((range' first m).reverse++rest) n := by
  refine ⟨(range' first m).reverse.take n,?_,?_,(range'_reverse_isChain first m).take n⟩
  · exact ( take_prefix n _).isInfix.trans (prefix_append _ rest).isInfix
  · rw [length_take,length_reverse,length_range']
    omega

lemma boot_full (L : Layout) : ∃ s rest,
    Lib.Transition.run (bootStep L) Boot.start [.kinit1,.kvmalloc,.kinit2]=some ⟨.full,s⟩ ∧
      Good L s ∧ s.useLock=true ∧ s.freelist=(range' earlyFrames (npages-earlyFrames)).reverse++rest := by
  obtain ⟨s1,h1,hok1,_⟩:=kinit1_spec L
  obtain ⟨s,h3,hok3,hfl⟩:=kinit2_spec (kvmalloc_stageOk hok1)
  refine ⟨s,_,?_,hok3.good Stage.noConfusion,?_,hfl⟩
  · simp only [Lib.Transition.run,bootStep,Boot.start,h1,h3,map_some,bind_some]
  · rw [← Bool.not_eq_false,hok3.useLock]
    simp

theorem kalloc_contiguous_finds_boot : ∃ s base s',
    Lib.Transition.run (bootStep layout) Boot.start [.kinit1,.kvmalloc,.kinit2]=some ⟨.full,s⟩ ∧
      kallocContiguous layout s bootCpu 2=some (some base,s') ∧ TakesRun s base 2 s' := by
  obtain ⟨s,rest,hrun,hg,hlock,hfl⟩:=boot_full layout
  have hroom : 2≤npages-earlyFrames := by decide
  obtain ⟨res,s',heq,hiff,htakes,_⟩:=kalloc_contiguous_finds layout s bootCpu 2 hg.wellFormed le_rfl
  obtain ⟨base,rfl⟩:=Option.isSome_iff_exists.mp (hiff.mpr ⟨hlock,hfl ▸ holdsRun_range' hroom rest⟩)
  exact ⟨s,base,s',hrun,heq,htakes base rfl⟩

theorem kalloc_contiguous_refuses_early : ∃ s,kinit1 layout bootCpu State.reset=some s ∧
    WellFormed layout s ∧ HoldsRun s.freelist 2 ∧ kallocContiguous layout s bootCpu 2=some (none,s) := by
  obtain ⟨s,h1,hok,hfl⟩:=kinit1_spec layout
  have hroom : 2≤earlyFrames-layout.firstFrame := by decide
  refine ⟨s,h1,(hok.good Stage.noConfusion).wellFormed,?_,?_⟩
  · rw [hfl,← append_nil (reverse _)]
    exact holdsRun_range' hroom []
  · have hlock : s.useLock=false := hok.useLock.mpr (by simp)
    rw [kallocContiguous,if_neg (by decide),if_neg (by decide),hlock,if_pos (by decide)]

end Auxv6.Mem
