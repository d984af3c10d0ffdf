import Auxv6.Lib.Transition
import Auxv6.Mem.KallocSpec

/-!
# The allocator from boot on

`main` brings the allocator up in stages (`main.c:20-64`). Between and after them any CPU may make any call;
a panic ends the run.
-/

namespace Auxv6.Mem
open Machine Lib.Transition List Option Finset

inductive Stage where
  | reset
  | early
  | kvm
  | full
  | ready
  deriving DecidableEq

structure Boot where
  stage : Stage
  mem : State

inductive Action where
  | kinit1
  | kvmalloc
  | kinit2
  | pagedbInit
  | pageallocInit
  | kalloc (c : Fin ncpu)
  | kallocContiguous (c : Fin ncpu) (npg : ℕ)
  | incref (pa : ℕ)
  | kfree (c : Fin ncpu) (v : ℕ)

def callStep (L : Layout) (s : State) : Action → Option State
  | .kalloc c => (kalloc L s c).map Prod.snd
  | .kallocContiguous c npg => (kallocContiguous L s c npg).map Prod.snd
  | .incref pa => kpageIncref s (pa/pgsize)
  | .kfree c v => kfree L s c v
  | _ => none

def bootStep (L : Layout) (b : Boot) (a : Action) : Option Boot :=
  match b.stage, a with
  | .reset, .kinit1 => (kinit1 L bootCpu b.mem).map (Boot.mk .early)
  | .early, .kvmalloc => some ⟨.kvm,{b.mem with kpgdir := true}⟩
  | .kvm, .kinit2 => (kinit2 L bootCpu b.mem).map (Boot.mk .full)
  | .full, .pagedbInit => (pagedbInit L bootCpu b.mem).map (Boot.mk .ready)
  | .ready, .pageallocInit => some ⟨.ready,{b.mem with pageallocOnline := true}⟩
  | .reset, _ => none
  | stage, a => (callStep L b.mem a).map (Boot.mk stage)

def Boot.start : Boot := ⟨.reset,State.reset⟩

/-- The reference count of a page is a `uint`: one more reference than it can hold
would wrap it to 0. -/
def RefFits (b : Boot) : Action → Prop
  | .incref pa => kpageRefcount b.mem (pa/pgsize)+1<wordMod
  | _ => True

structure Partition (s : State) : Prop where
  place : ∀ p,(s.kmeta p).managed=true → (s.freelist.count p=1 ∧ (∀ c,p∉s.cache c) ∧ kpageRefcount s p=0) ∨
    (p∉s.freelist ∧ (∃ c,(s.cache c).count p=1 ∧ ∀ c',c'≠c → p∉s.cache c') ∧ kpageRefcount s p=0) ∨
    (p∉s.freelist ∧ (∀ c,p∉s.cache c) ∧ 1≤kpageRefcount s p)
  marks : ∀ p,(s.kmeta p).managed=true → ((s.kmeta p).free=true ↔ kpageRefcount s p=0) ∧
    ((s.pgArray p).free=true ↔ kpageRefcount s p=0)
  count : s.freePages=s.freelist.length + ∑ c,(s.cache c).length
  cap : ∀ c,(s.cache c).length≤kallocCpuCache

lemma exists_of_sum_eq_one {f : Fin ncpu → ℕ} (h : ∑ c,f c=1) : ∃ c,f c=1 ∧ ∀ c',c'≠c → f c'=0 := by
  obtain ⟨c,_,hc⟩:=exists_ne_zero_of_sum_ne_zero (show ∑ c,f c≠0 by omega)
  rw [← add_sum_erase univ f (mem_univ c)] at h
  have hrest : ∑ i∈univ.erase c,f i=0 := by omega
  refine ⟨c,by omega,fun c' hc' => ?_⟩
  exact sum_eq_zero_iff.mp hrest c' (mem_erase.mpr ⟨hc',mem_univ _⟩)

variable {L : Layout} {s s' : State} {r : ℕ}

lemma Good.partition (h : Good L s) (hpg : s.pgReady=true) : Partition s := by
  refine ⟨fun p hm => ?_,fun p hm => ?_,h.counted,h.inv.cap⟩
  · have hocc:=h.inv.occ_eq p
    have hfree:=h.inv.free_iff p hm
    simp only [occ,count_nil,add_zero,hm,true_and] at hocc
    by_cases hf : (s.kmeta p).free=true
    · rw [if_pos hf] at hocc
      by_cases hfl : s.freelist.count p=0
      · obtain ⟨c,hone,hothers⟩:=exists_of_sum_eq_one (show ∑ c,(s.cache c).count p=1 by omega)
        exact .inr (.inl ⟨count_eq_zero.mp hfl,⟨c,hone,fun c' hc' => count_eq_zero.mp (hothers c' hc')⟩,hfree.mp hf⟩)
      · have hsum : ∑ c,(s.cache c).count p=0 := by omega
        refine .inl ⟨by omega,fun c => ?_,hfree.mp hf⟩
        exact count_eq_zero.mp (sum_eq_zero_iff.mp hsum c (mem_univ c))
    · rw [if_neg hf] at hocc
      have hsum : ∑ c,(s.cache c).count p=0 := by omega
      refine .inr (.inr ⟨count_eq_zero.mp (by omega),fun c => ?_,?_⟩)
      · exact count_eq_zero.mp (sum_eq_zero_iff.mp hsum c (mem_univ c))
      · have := mt hfree.mpr hf
        omega
  · rw [(h.inv.desc hpg p hm).2]
    exact ⟨h.inv.free_iff p hm,h.inv.free_iff p hm⟩

/-- What holds at each stage, besides `Good`: which frames are managed, and the
switches of the allocator. -/
structure StageOk (L : Layout) (b : Boot) : Prop where
  reset : b.stage=.reset → b.mem=State.reset
  good : b.stage≠.reset → Good L b.mem
  kpgdir : b.stage≠.reset → (b.mem.kpgdir=false ↔ b.stage=.early)
  useLock : b.mem.useLock=false ↔ b.stage=.reset ∨ b.stage=.early ∨ b.stage=.kvm
  pgReady : b.mem.pgReady=true ↔ b.stage=.ready
  managed : b.stage≠.reset → ∀ p,(b.mem.kmeta p).managed=true ↔
    L.firstFrame≤p ∧ p < if b.stage=.early ∨ b.stage=.kvm then earlyFrames else npages

lemma StageOk.same {stage : Stage} (h : StageOk L ⟨stage,s⟩) (hst : stage≠.reset) (hg : Good L s')
    (hflags : s'.kpgdir=s.kpgdir ∧ s'.useLock=s.useLock ∧ s'.pgReady=s.pgReady)
    (hman : ∀ p,(s'.kmeta p).managed=(s.kmeta p).managed) : StageOk L ⟨stage,s'⟩ := by
  obtain ⟨hk,hu,hp⟩:=hflags
  refine ⟨fun hr => absurd hr hst,fun _ => hg,fun _ => ?_,?_,?_,fun _ p => ?_⟩
  · rw [hk]
    exact h.kpgdir hst
  · rw [hu]
    exact h.useLock
  · rw [hp]
    exact h.pgReady
  · rw [hman]
    exact h.managed hst p

lemma callStep_stageOk {stage : Stage} {a : Action} (h : StageOk L ⟨stage,s⟩) (hst : stage≠.reset)
    (hfits : RefFits ⟨stage,s⟩ a) (hs : callStep L s a=some s') : StageOk L ⟨stage,s'⟩ := by
  have hg : Good L s := h.good hst
  cases a with
  | kalloc c =>
    obtain ⟨res,t,heq,hgt,hh⟩:=kalloc_spec hg c
    simp only [callStep,heq,map_some] at hs
    cases hs
    exact h.same hst hgt ⟨hh.flags.1,hh.flags.2.1,hh.flags.2.2.1⟩ hh.managed
  | kallocContiguous c npg =>
    obtain ⟨res,run,t,heq,hgt,hh,_⟩:=kallocContiguous_spec hg c npg
    simp only [callStep,heq,map_some] at hs
    cases hs
    exact h.same hst hgt ⟨hh.flags.1,hh.flags.2.1,hh.flags.2.2.1⟩ hh.managed
  | incref pa =>
    obtain ⟨hgt,_,_,hr⟩:=kpageIncref_spec hg hs hfits
    exact h.same hst hgt ⟨hr.flags.1,hr.flags.2.1,hr.flags.2.2.1⟩ hr.managed
  | kfree c v =>
    obtain ⟨hgt,r,_,_,hr⟩:=kfree_spec hg hs
    exact h.same hst hgt ⟨hr.flags.1,hr.flags.2.1,hr.flags.2.2.1⟩ hr.managed
  | kinit1 => simp [callStep] at hs
  | kvmalloc => simp [callStep] at hs
  | kinit2 => simp [callStep] at hs
  | pagedbInit => simp [callStep] at hs
  | pageallocInit => simp [callStep] at hs

lemma freerange_turn (c : Fin ncpu) (h : Good L s) (hu : s.useLock=false) (hpg : s.pgReady=false)
    (hv : kallocRunptrValid L r=true) (hearly : s.kpgdir=false → r<earlyFrames)
    (hm : (s.kmeta r).managed=false) : ∃ s1 s2,kpageMarkManaged s r=some s1 ∧
      kfree L {s1 with totalPages := s1.totalPages+1} c (p2v (r*pgsize))=some s2 ∧ Good L s2 ∧
      s2.kpgdir=s.kpgdir ∧ s2.useLock=false ∧ s2.pgReady=false ∧
      (∀ p,(s2.kmeta p).managed=true ↔ (s.kmeta p).managed=true ∨ p=r) ∧ s2.freelist=r::s.freelist := by
  have hr:=lt_npages_of_valid hv
  have hmeta : setMeta s r ⟨1,true,false⟩=setPage s r ⟨1,true,false⟩ (s.pgArray r) := by
    simp [setMeta,setPage]
  have hocc : occ s r=0 := by
    have := h.inv.occ_eq r
    simpa [hm] using this
  have hinv : Inv L (setPage s r ⟨1,true,false⟩ (s.pgArray r)) [] :=
    h.inv.setPage hv hearly rfl (by simp [hpg]) (by simp [hpg]) (fun _ _ => rfl) (by simpa using hocc)
  let s1 : State:={ setPage s r ⟨1,true,false⟩ (s.pgArray r) with
    totalPages := s.totalPages+1 }
  have hg1 : Good L s1 := ⟨⟨hinv.managed_valid,hinv.early,hinv.occ_eq,hinv.free_iff,hinv.desc,
    hinv.cap,hinv.online⟩,h.counted⟩
  have hm1 : (s1.kmeta r).managed=true := by
    simp [s1]
  have href : kpageRefcount s1 r=1 := by
    simp [s1,kpageRefcount,setPage,hpg,hr]
  obtain ⟨s2,heq,hg2,hrefs,hfl⟩:=kfree_page hg1 hm1 c
  refine ⟨setMeta s r ⟨1,true,false⟩,s2,by simp [kpageMarkManaged,hr,pagedbMarkManagedPa,
    pagedbMarkAllocatedPa,pagedbSetRefcountPa,pagedbUpdate,setMeta,hpg],?_,hg2,
    hrefs.flags.1,hrefs.flags.2.1.trans hu,hrefs.flags.2.2.1.trans hpg,fun p => ?_,hfl hu href⟩
  · rw [hmeta]
    exact heq
  rw [hrefs.managed p]
  by_cases hp : p=r
  · simp [hp,s1]
  · simp [hp,s1,setPage_kmeta_of_ne hp]

lemma freerange_spec (c : Fin ncpu) (n first : ℕ) (h : Good L s) (hu : s.useLock=false)
    (hpg : s.pgReady=false) (hv : ∀ r,first≤r → r<first+n → kallocRunptrValid L r=true)
    (hearly : s.kpgdir=false → first+n≤earlyFrames)
    (hm : ∀ r,first≤r → r<first+n → (s.kmeta r).managed=false) : ∃ s',freerange L c first n s=some s' ∧
      Good L s' ∧ s'.kpgdir=s.kpgdir ∧ s'.useLock=false ∧ s'.pgReady=false ∧
      (∀ p,(s'.kmeta p).managed=true ↔ (s.kmeta p).managed=true ∨ (first≤p ∧ p<first+n)) ∧
      s'.freelist=(range' first n).reverse++s.freelist := by
  induction n generalizing first s with
  | zero =>
    exact ⟨s,rfl,h,rfl,hu,hpg,fun p => ⟨.inl,fun hp => hp.resolve_right (by omega)⟩,rfl⟩
  | succ n ih =>
    obtain ⟨s1,s2,h1,h2,hg2,hk2,hu2,hpg2,hman2,hfl2⟩:=freerange_turn c h hu hpg
      (hv first le_rfl (by omega)) (fun hk => by have := hearly hk; omega)
      (hm first le_rfl (by omega))
    obtain ⟨s',heq,hg',hk',hu',hpg',hman',hfl'⟩:=ih (first+1) hg2 hu2 hpg2 (fun r h1 h2 => hv r (by omega) (by omega))
      (fun hk => by have := hearly (hk2 ▸ hk); omega)
      (fun r h1 h2 => by
        have hold:=hm r (by omega) (by omega)
        cases hmr : (s2.kmeta r).managed with
        | false => rfl
        | true =>
          rcases (hman2 r).mp hmr with hmr | hmr
          · simp [hold] at hmr
          · omega)
    refine ⟨s',?_,hg',hk'.trans hk2,hu',hpg',fun p => ?_,?_⟩
    · rw [freerange,h1,some_bind,h2]
      exact heq
    · rw [hman' p,hman2 p]
      constructor
      · rintro ((hp | hp) | hp)
        · exact .inl hp
        · exact .inr (by omega)
        · exact .inr (by omega)
      rintro (hp | hp)
      · exact .inl (.inl hp)
      · by_cases hpf : p=first
        · exact .inl (.inr hpf)
        · exact .inr (by omega)
    · rw [hfl',hfl2,range'_succ]
      simp

lemma firstFrame_le (L : Layout) : L.firstFrame≤earlyFrames := by
  have h:=L.end_le
  simp only [Layout.firstFrame,earlyFrames,pgsize,bootEarlyPhystop] at h ⊢
  omega

lemma valid_of_frame (hlo : L.firstFrame≤r) (hhi : r<npages) : kallocRunptrValid L r=true := by
  refine runptrValid_iff.mpr ⟨?_,?_⟩
  · simp only [Layout.firstFrame,pgsize] at hlo ⊢
    omega
  · simp only [npages,physTop,pgsize] at hhi ⊢
    omega

lemma earlyFrames_le : earlyFrames≤npages := by decide
lemma reset_good (L : Layout) : Good L State.reset :=
  ⟨⟨by simp [State.reset],by simp [State.reset],by simp [State.reset,occ],
    by simp [State.reset],by simp [State.reset],by simp [State.reset],by simp [State.reset]⟩,
    by simp [Counted,listed,State.reset]⟩

lemma kinit1_spec (L : Layout) : ∃ s,kinit1 L bootCpu State.reset=some s ∧ StageOk L ⟨.early,s⟩ ∧
      s.freelist=(range' L.firstFrame (earlyFrames-L.firstFrame)).reverse := by
  have hle:=firstFrame_le L
  have hfit:=earlyFrames_le
  obtain ⟨s,heq,hg,hk,hu,hpg,hman,hfl⟩:=freerange_spec bootCpu
    (earlyFrames-L.firstFrame) L.firstFrame (reset_good L) rfl rfl
    (fun r h1 h2 => valid_of_frame h1 (by omega)) (fun _ => by omega) (fun _ _ _ => rfl)
  refine ⟨s,heq,⟨by simp,fun _ => hg,?_,by simp [hu],by simp [hpg],fun _ p => ?_⟩,hfl.trans (append_nil _)⟩
  · intro _
    rw [hk]
    simp [State.reset]
  · rw [hman p]
    simp [State.reset]
    omega

lemma kinit2_spec (h : StageOk L ⟨.kvm,s⟩) : ∃ s',kinit2 L bootCpu s=some s' ∧ StageOk L ⟨.full,s'⟩ ∧
      s'.freelist=(range' earlyFrames (npages-earlyFrames)).reverse++s.freelist := by
  have hle:=firstFrame_le L
  have hfit:=earlyFrames_le
  have hst : Stage.kvm≠Stage.reset := by decide
  have hkp : s.kpgdir≠false := fun hf => by simpa using (h.kpgdir hst).mp hf
  have hman:=h.managed hst
  obtain ⟨s',heq,hg,hk,hu,hpg,hman',hfl⟩:=freerange_spec bootCpu
    (npages-earlyFrames) earlyFrames (h.good hst) (h.useLock.mpr (by simp))
    (by
      have := h.pgReady
      simpa using this)
    (fun r h1 h2 => valid_of_frame (by omega) (by omega)) (fun hf => absurd hf hkp)
    (fun r h1 h2 => by
      have := (hman r).mp
      simp only [or_true,if_true] at this
      cases hm : (s.kmeta r).managed with
      | false => rfl
      | true =>
        have := this hm
        omega)
  refine ⟨{s' with useLock := true},by simp [kinit2,heq],
    ⟨by simp,fun _ => ⟨⟨hg.inv.managed_valid,hg.inv.early,hg.inv.occ_eq,hg.inv.free_iff,
      hg.inv.desc,hg.inv.cap,hg.inv.online⟩,hg.counted⟩,fun _ => ?_,by simp,by simp [hpg],fun _ p => ?_⟩,hfl⟩
  · simp only [hk]
    simpa using hkp
  · simp only [hman' p,hman p]
    simp
    omega

lemma pagedbInit_stageOk (h : StageOk L ⟨.full,s⟩) (hs : pagedbInit L bootCpu s=some s') : StageOk L ⟨.ready,s'⟩ := by
  have hst : Stage.full≠Stage.reset := by decide
  have hg:=h.good hst
  have hpg : s.pgReady=false := by simpa using h.pgReady
  obtain ⟨res,run,t,heq,hgt,hh,_⟩:=kallocContiguous_spec hg bootCpu pgNpages
  simp only [pagedbInit,hpg,heq] at hs
  cases res with
  | none => simp at hs
  | some base =>
    simp only [Bool.false_eq_true,if_false,some.injEq] at hs
    have hmeta : s'.kmeta=t.kmeta := by rw [← hs]
    have hman : ∀ p,(s'.kmeta p).managed=(s.kmeta p).managed := fun p => by
      rw [hmeta]
      exact hh.managed p
    have hdesc : ∀ p,(t.kmeta p).managed=true → s'.pgArray p =
        ⟨true,decide (kpageRefcount t p=0),decide (base≤p ∧ p<base+pgNpages),kpageRefcount t p⟩ := by
      intro p hp
      rw [← hs]
      simp [pagedbDesc,kpageIsManaged,hp,hgt.inv.lt_npages hp]
    have href : ∀ p,(t.kmeta p).managed=true → kpageRefcount s' p=kpageRefcount t p := by
      intro p hp
      have hready : s'.pgReady=true := by rw [← hs]
      simp only [kpageRefcount,pagedbRefcountPa,hready,hgt.inv.lt_npages hp,and_self,if_true,hdesc p hp]
    have hinv : Inv L s' [] := by
      have hi:=hgt.inv
      refine ⟨?_,?_,?_,?_,?_,?_,?_⟩
      · rw [hmeta]
        exact hi.managed_valid
      · rw [hmeta,← hs]
        exact hi.early
      · rw [← hs]
        exact hi.occ_eq
      · intro p hp
        rw [hmeta] at hp ⊢
        rw [href p hp]
        exact hi.free_iff p hp
      · intro _ p hp
        rw [hmeta] at hp ⊢
        rw [hdesc p hp]
        refine ⟨rfl,?_⟩
        have := hi.free_iff p hp
        simp only [← this,Bool.decide_eq_true]
      · rw [← hs]
        exact hi.cap
      · rw [← hs]
        intro _
        rfl
    refine ⟨by simp,fun _ => ⟨hinv,?_⟩,fun _ => ?_,?_,?_,fun _ p => ?_⟩
    · rw [← hs]
      exact hgt.counted
    · have hkp:=h.kpgdir hst
      simp only [← hs,hh.flags.1] at hkp ⊢
      simpa using hkp
    · have hu:=h.useLock
      simp only [← hs,hh.flags.2.1] at hu ⊢
      simpa using hu
    · simp [← hs]
    · rw [hman]
      simpa using h.managed hst p

lemma bootStep_cases {b b' : Boot} {a : Action} (h : bootStep L b a=some b') :
    (b.stage=.reset ∧ ∃ s,kinit1 L bootCpu b.mem=some s ∧ b'=⟨.early,s⟩) ∨
    (b.stage=.early ∧ b'=⟨.kvm,{b.mem with kpgdir := true}⟩) ∨
    (b.stage=.kvm ∧ ∃ s,kinit2 L bootCpu b.mem=some s ∧ b'=⟨.full,s⟩) ∨
    (b.stage=.full ∧ ∃ s,pagedbInit L bootCpu b.mem=some s ∧ b'=⟨.ready,s⟩) ∨
    (b.stage=.ready ∧ b'=⟨.ready,{b.mem with pageallocOnline := true}⟩) ∨
    (b.stage≠.reset ∧ ∃ s,callStep L b.mem a=some s ∧ b'=⟨b.stage,s⟩) := by
  obtain ⟨stage,s⟩:=b
  have hmap : ∀ {o : Option State} {st : Stage},o.map (Boot.mk st)=some b' → ∃ t,o=some t ∧ b'=⟨st,t⟩ := by
    intro o st ho
    obtain ⟨t,ht,rfl⟩:=map_eq_some_iff.mp ho
    exact ⟨t,ht,rfl⟩
  cases stage with
  | reset =>
    cases a with
    | kinit1 => exact .inl ⟨rfl,hmap h⟩
    | _ => simp [bootStep] at h
  | early =>
    cases a with
    | kvmalloc =>
      simp only [bootStep,some.injEq] at h
      exact .inr (.inl ⟨rfl,h.symm⟩)
    | _ => exact .inr (.inr (.inr (.inr (.inr ⟨by simp,hmap h⟩))))
  | kvm =>
    cases a with
    | kinit2 => exact .inr (.inr (.inl ⟨rfl,hmap h⟩))
    | _ => exact .inr (.inr (.inr (.inr (.inr ⟨by simp,hmap h⟩))))
  | full =>
    cases a with
    | pagedbInit => exact .inr (.inr (.inr (.inl ⟨rfl,hmap h⟩)))
    | _ => exact .inr (.inr (.inr (.inr (.inr ⟨by simp,hmap h⟩))))
  | ready =>
    cases a with
    | pageallocInit =>
      simp only [bootStep,some.injEq] at h
      exact .inr (.inr (.inr (.inr (.inl ⟨rfl,h.symm⟩))))
    | _ => exact .inr (.inr (.inr (.inr (.inr ⟨by simp,hmap h⟩))))

lemma kvmalloc_stageOk (h : StageOk L ⟨.early,s⟩) : StageOk L ⟨.kvm,{s with kpgdir := true}⟩ := by
  have hst : Stage.early≠Stage.reset := by decide
  have hg:=h.good hst
  have hu:=h.useLock
  have hpg:=h.pgReady
  have hman:=h.managed hst
  refine ⟨by simp,fun _ => ⟨⟨hg.inv.managed_valid,by simp,hg.inv.occ_eq,hg.inv.free_iff,
    hg.inv.desc,hg.inv.cap,hg.inv.online⟩,hg.counted⟩,by simp,?_,?_,fun _ p => ?_⟩
  · simpa using hu
  · simpa using hpg
  · simpa using hman p

lemma bootStep_stageOk (L : Layout) (b : Boot) (a : Action) (b' : Boot) (h : StageOk L b)
    (hfits : RefFits b a) (hs : bootStep L b a=some b') : StageOk L b' := by
  obtain ⟨stage,s⟩:=b
  rcases bootStep_cases hs with ⟨hst,t,ht,rfl⟩ | ⟨hst,rfl⟩ | ⟨hst,t,ht,rfl⟩ |
    ⟨hst,t,ht,rfl⟩ | ⟨hst,rfl⟩ | ⟨hst,t,ht,rfl⟩
  · obtain rfl : s=State.reset := h.reset hst
    obtain ⟨t',ht',hok,_⟩:=kinit1_spec L
    rw [ht',some.injEq] at ht
    exact ht ▸ hok
  · obtain rfl : stage=.early := hst
    exact kvmalloc_stageOk h
  · obtain rfl : stage=.kvm := hst
    obtain ⟨t',ht',hok,_⟩:=kinit2_spec h
    rw [ht',some.injEq] at ht
    exact ht ▸ hok
  · obtain rfl : stage=.full := hst
    exact pagedbInit_stageOk h ht
  · obtain rfl : stage=.ready := hst
    have hne : Stage.ready≠Stage.reset := by decide
    have hi:=(h.good hne).inv
    exact h.same hne ⟨⟨hi.managed_valid,hi.early,hi.occ_eq,hi.free_iff,hi.desc,hi.cap,
      fun _ => h.pgReady.mpr rfl⟩,(h.good hne).counted⟩ ⟨rfl,rfl,rfl⟩ fun _ => rfl
  · exact callStep_stageOk h hst hfits ht

/-- In every run from reset in which no reference count is pushed past the largest
`uint`, the managed pages are partitioned once the page database is up. -/
theorem kalloc_partition (L : Layout) (as : List Action) (b : Boot) (h : run (bootStep L) Boot.start as=some b)
    (hfits : Guarded (bootStep L) RefFits Boot.start as) (hready : b.stage=.ready) :
    Partition b.mem ∧ ∀ p,(b.mem.kmeta p).managed=true ↔ L.firstFrame≤p ∧ p<npages := by
  have hok:=run_guarded (bootStep_stageOk L) ⟨fun _ => rfl,by simp [Boot.start],by simp [Boot.start],
    by simp [Boot.start,State.reset],by simp [Boot.start,State.reset],by simp [Boot.start]⟩ hfits h
  have hst : b.stage≠.reset := by simp [hready]
  refine ⟨(hok.good hst).partition (hok.pgReady.mpr hready),fun p => ?_⟩
  simpa [hready] using hok.managed hst p

lemma contigScan_descending {valid runptr isFree : ℕ → Bool} {npg : ℕ} (l rest run before : List ℕ)
    (h : ∀ r∈l++rest,valid r=true ∧ runptr r=true ∧ isFree r=true) (hl : l≠[])
    (hlen : run.length+l.length=npg) (hdesc : (run++l).IsChain fun a b => b+1=a) :
    contigScan valid runptr isFree npg before run (l++rest)=(before,run++l,rest) := by
  induction l generalizing run with
  | nil => exact absurd rfl hl
  | cons r l ih =>
    obtain ⟨hv,_,hf⟩:=h r (by simp)
    have hrest : ∀ x∈l++rest,valid x=true ∧ runptr x=true ∧ isFree x=true := fun x hx => h x (mem_cons_of_mem _ hx)
    have hnext : scanNext runptr (l++rest)=l++rest := scanNext_all fun x hx => (hrest x hx).2.1
    have hjoin : joinRun before run r=(before,run++[r]) := by
      simp only [joinRun]
      cases hlast : run.getLast? with
      | none => simp [getLast?_eq_none_iff.mp hlast]
      | some last =>
        have hadj:=(isChain_append.mp hdesc).2.2 last hlast r (by simp)
        simp [hadj]
    simp only [cons_append,contigScan,hv,hf,hnext,hjoin,not_true_eq_false,if_false,if_true]
    cases l with
    | nil =>
      rw [if_pos (.inl (by simpa using hlen))]
      rfl
    | cons next l =>
      rw [if_neg (by simp only [length_append,length_cons,length_nil] at hlen ⊢
                     simp
                     omega),ih (run++[r]) hrest (by simp) (by simp at hlen ⊢; omega) (by simpa using hdesc)]
      simp

lemma range'_reverse_isChain (first n : ℕ) : (range' first n).reverse.IsChain fun a b => b+1=a := by
  rw [isChain_reverse]
  exact (isChain_range' first n 1).imp fun a b hab => hab.symm
lemma pgNpages_eq : pgNpages=384 := rfl

lemma pagedbInit_descending {l rest : List ℕ} (h : StageOk L ⟨.full,s⟩)
    (hfl : s.freelist=l++rest) (hlen : l.length=pgNpages) (hdesc : l.IsChain fun a b => b+1=a) :
    ∃ s' r,pagedbInit L bootCpu s=some s' ∧ (s'.kmeta r).managed=true ∧ kpageRefcount s' r=1 := by
  have hst : Stage.full≠Stage.reset := by decide
  have hg:=h.good hst
  have hu : s.useLock=true := by simpa using h.useLock
  have hpg : s.pgReady=false := by simpa using h.pgReady
  have hne : l≠[] := by
    rintro rfl
    rw [pgNpages_eq] at hlen
    simp at hlen
  have hparts : contigParts L s pgNpages=([],l,rest) := by
    have hvalid:=hg.inv.freelist_valid
    rw [contigParts]
    rw [hfl] at hvalid ⊢
    exact contigScan_descending _ _ [] [] hvalid hne (by simpa using hlen) hdesc
  obtain ⟨res,run,t,heq,hgt,hh,hres,hrun⟩:=kallocContiguous_spec hg bootCpu pgNpages
  rw [hparts] at hrun
  obtain rfl : run=l := hrun hu (by rw [pgNpages_eq]; omega) hlen
  obtain ⟨base,hbase⟩ : ∃ base,res=some base := by
    rw [hres,getLast?_eq_some_getLast hne]
    exact ⟨_,rfl⟩
  have hmem : base∈run := mem_of_getLast? (by rw [← hres,hbase])
  have hm : (t.kmeta base).managed=true := by
    rw [hh.managed base]
    exact (hh.fresh base hmem).1
  have hman : kpageIsManaged t base=true := by simp [kpageIsManaged,hm,hgt.inv.lt_npages hm]
  have href : kpageRefcount t base=1 := by
    rw [hh.refs base,if_pos hmem]
  refine ⟨{t with pgArray := pagedbDesc t base,pgReady := true},base,?_,hm,?_⟩
  · simp [pagedbInit,hpg,heq,hbase]
  · rw [kpageRefcount,if_pos rfl,pagedbRefcountPa,if_pos ⟨rfl,hgt.inv.lt_npages hm⟩]
    simp only [pagedbDesc,hman,if_true]
    exact href

lemma boot_ready (L : Layout) :
      ∃ s r,run (bootStep L) Boot.start [.kinit1,.kvmalloc,.kinit2,.pagedbInit] = some ⟨.ready,s⟩ ∧
      StageOk L ⟨.ready,s⟩ ∧ (s.kmeta r).managed=true ∧ kpageRefcount s r=1 := by
  obtain ⟨s1,h1,hok1,_⟩:=kinit1_spec L
  have hok2:=kvmalloc_stageOk hok1
  obtain ⟨s3,h3,hok3,hfl⟩:=kinit2_spec hok2
  generalize hn : npages-earlyFrames=n at hfl
  have hroom : pgNpages≤n := by
    rw [← hn]
    decide
  rw [← take_append_drop pgNpages (range' earlyFrames n).reverse,append_assoc] at hfl
  obtain ⟨s4,r,h4,hm,href⟩:=pagedbInit_descending hok3 hfl
    (by simp only [length_take,length_reverse,length_range']; omega)
    ((range'_reverse_isChain _ _).take _)
  refine ⟨s4,r,?_,pagedbInit_stageOk hok3 h4,hm,href⟩
  simp only [run,bootStep,Boot.start,h1,h3,h4,map_some,bind_some]

def layout : Layout where
  data := kernbase+extmem
  kpageMeta := kernbase+extmem
  endAddr := kernbase+extmem+8*npages
  data_ge := le_rfl
  meta_ge := le_rfl
  meta_end := le_rfl
  end_le := by decide

theorem kalloc_partition_at_boot :
    ∃ b,run (bootStep layout) Boot.start [.kinit1,.kvmalloc,.kinit2,.pagedbInit]=some b ∧
      b.stage=.ready ∧ Partition b.mem := by
  obtain ⟨s,_,hrun,_⟩:=boot_ready layout
  exact ⟨_,hrun,rfl,(kalloc_partition layout _ _ hrun
    ⟨trivial,fun _ _ => ⟨trivial,fun _ _ => ⟨trivial,fun _ _ => ⟨trivial,fun _ _ => trivial⟩⟩⟩⟩ rfl).1⟩

lemma run_increfs {k : ℕ} (n : ℕ) (h : StageOk L ⟨.ready,s⟩) (hm : (s.kmeta r).managed=true)
    (href : kpageRefcount s r=k) (hk : 0<k) (hfits : k+n<wordMod) :
      ∃ s',run (bootStep L) ⟨.ready,s⟩ (replicate n (.incref (r*pgsize))) = some ⟨.ready,s'⟩ ∧
      StageOk L ⟨.ready,s'⟩ ∧ (s'.kmeta r).managed=true ∧ kpageRefcount s' r=k+n := by
  induction n generalizing s k with
  | zero => exact ⟨s,rfl,h,hm,href⟩
  | succ n ih =>
    have hne : Stage.ready≠Stage.reset := by decide
    have hidx : r*pgsize/pgsize=r := Nat.mul_div_cancel r (by decide)
    have hstep : kpageIncref s r=some (setRef s r (uintAdd (kpageRefcount s r) 1) false) :=
      kpageIncref_eq (h.good hne).inv hm (by omega)
    obtain ⟨hg,_,_,hrefs⟩:=kpageIncref_spec (h.good hne) hstep (by simp only; omega)
    have hok:=h.same hne hg ⟨hrefs.flags.1,hrefs.flags.2.1,hrefs.flags.2.2.1⟩ hrefs.managed
    have hnext : kpageRefcount (setRef s r (uintAdd (kpageRefcount s r) 1) false) r=k+1 := by
      rw [hrefs.refs r,if_pos rfl,href]
    obtain ⟨s',hrun,hok',hm',href'⟩:=ih hok (by rw [hrefs.managed]; exact hm) hnext (by omega) (by omega)
    refine ⟨s',?_,hok',hm',by omega⟩
    rw [replicate_succ,run]
    have hb : bootStep L ⟨.ready,s⟩ (.incref (r*pgsize)) =
        some ⟨.ready,setRef s r (uintAdd (kpageRefcount s r) 1) false⟩ := by
      simp only [bootStep,callStep,hidx,hstep,map_some]
    rw [hb]
    exact hrun

/-- With `2^32 - 1` more references on a page that has one, its count wraps to 0 while
the page stays marked allocated: it is in none of the three places. -/
theorem kpage_incref_wraps : ∃ pa b,run (bootStep layout) Boot.start ([.kinit1,.kvmalloc,.kinit2,.pagedbInit] ++
        replicate (wordMod-2) (.incref pa)++[.incref pa])=some b ∧ b.stage=.ready ∧ ¬ Partition b.mem := by
  obtain ⟨s,r,hboot,hok,hm,href⟩:=boot_ready layout
  generalize hn : wordMod-2=n
  have hword : n+2=wordMod := by
    have htwo : 2≤wordMod := by decide
    omega
  obtain ⟨s',hincs,hok',hm',href'⟩:=run_increfs n hok hm href (by omega) (by omega)
  have hne : Stage.ready≠Stage.reset := by decide
  have hg:=hok'.good hne
  have hidx : r*pgsize/pgsize=r := Nat.mul_div_cancel r (by decide)
  have hwrap : uintAdd (kpageRefcount s' r) 1=0 := by
    have hfull : kpageRefcount s' r+1=wordMod := by omega
    rw [uintAdd,hfull,Nat.mod_self]
  have hstep : kpageIncref s' r=some (setRef s' r 0 false) := by
    rw [← hwrap]
    exact kpageIncref_eq hg.inv hm' (by omega)
  refine ⟨r*pgsize,⟨.ready,setRef s' r 0 false⟩,?_,rfl,fun hp => ?_⟩
  · rw [run_append,run_append,hboot,bind_some,hincs,bind_some,run]
    simp only [bootStep,callStep,hidx,hstep,map_some,bind_some,run]
  have hrefs : Refs s' r 0 (setRef s' r 0 false) := setRef_refs (hg.inv.lt_npages hm') hm'
  have hz : kpageRefcount (setRef s' r 0 false) r=0 := by rw [hrefs.refs r,if_pos rfl]
  have hfree:=(hp.marks r (by rw [hrefs.managed]; exact hm')).1.mpr hz
  simp [setRef] at hfree

end Auxv6.Mem
