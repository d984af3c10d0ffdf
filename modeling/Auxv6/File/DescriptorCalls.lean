import Auxv6.File.FdtableSpec
import Auxv6.Lib.RefCount

/-!
# System calls keep the reference counts

For one process the counts are those of its table plus what everything else holds (`others`).
-/

namespace Auxv6.File
open Lib Function List Option

def Fdtable.count (ft : Fdtable) (f : FileId) : ℕ := RefCount.refs (fun i : Fin slots => ft.get i) f
def Balanced (others : FileId → ℕ) (c : Ctx) : Prop := ∀ f,c.ref f=others f+c.table.count f

structure CtxInv (others : FileId → ℕ) (c : Ctx) : Prop where
  table : TableInv c.table
  ref : Balanced others c

variable {others : FileId → ℕ} {c : Ctx} {ft ft' : Fdtable} {b : Bool} {fd n : ℕ}

lemma Same.count (h : Same ft ft') (f : FileId) : ft'.count f=ft.count f := by
  unfold Fdtable.count
  rw [h.get]

variable {o : Option FileId}

lemma Sets.count (h : Sets ft ft' fd o b) (hfd : fd<slots) (f : FileId) :
    ft'.count f+(if ft.get fd=some f then 1 else 0)=ft.count f+(if o=some f then 1 else 0) := by
  have hmap : (fun i : Fin slots => ft'.get i)=update (fun i : Fin slots => ft.get i) ⟨fd,hfd⟩ o := by
    funext i
    rw [h.get]
    by_cases hi : i=⟨fd,hfd⟩
    · subst hi
      rw [update_self,update_self]
    · rw [update_of_ne hi,update_of_ne fun hv => hi (Fin.ext hv)]
  unfold Fdtable.count
  rw [hmap]
  exact RefCount.refs_update (fun i : Fin slots => ft.get i) ⟨fd,hfd⟩ o f

variable {f : FileId}

lemma count_pos {i : ℕ} (hi : i<slots) (h : ft.get i=some f) : 0<ft.count f := RefCount.refs_pos_iff.mpr ⟨⟨i,hi⟩,h⟩

section
variable (h : Balanced others c)
include h

lemma Balanced.ref_pos {i : ℕ} (hi : i<slots) (hget : c.table.get i=some f) : ¬ c.ref f<1 := by
  have := count_pos hi hget
  rw [h f]
  omega

lemma Balanced.put (hs : Sets c.table ft fd (some f) b) (hfd : fd<slots) (hfree : c.table.get fd=none)
    (hf : ¬ c.ref f<1) : Balanced others ⟨ft,filedup c.ref f⟩ := by
  intro g
  have hcount:=hs.count hfd g
  rw [hfree,if_neg (by simp)] at hcount
  have hg:=h g
  show filedup c.ref f g=others g+ft.count g
  unfold filedup
  rw [if_neg hf,update_apply]
  by_cases hgf : g=f
  · subst hgf
    rw [if_pos rfl] at hcount ⊢
    omega
  · rw [if_neg fun hfg => hgf (some.inj hfg).symm] at hcount
    rw [if_neg hgf]
    omega

lemma Balanced.drop (hs : Sets c.table ft fd none b) (hfd : fd<slots)
    (hopen : c.table.get fd=some f) : Balanced others ⟨ft,fileclose c.ref f⟩ := by
  intro g
  have hcount:=hs.count hfd g
  have hpos:=h.ref_pos hfd hopen
  rw [hopen,if_neg (show ¬ (none : Option FileId)=some g by simp)] at hcount
  have hg:=h g
  show fileclose c.ref f g=others g+ft.count g
  unfold fileclose
  rw [if_neg hpos,update_apply]
  by_cases hgf : g=f
  · subst hgf
    rw [if_pos rfl] at hcount ⊢
    omega
  · rw [if_neg fun hfg => hgf (some.inj hfg).symm] at hcount
    rw [if_neg hgf]
    omega

lemma Balanced.same (hs : Same c.table ft) : Balanced others ⟨ft,c.ref⟩ := by
  intro f
  rw [hs.count]
  exact h f

end

lemma Sets.lt_slots (h : Sets ft ft' fd o b) (hinv : TableInv ft') : fd<slots := h.lt.trans_le hinv.cap_le

section
variable (h : CtxInv others c)
include h

lemma CtxInv.argfd {fd : ℤ} (ha : c.argfd fd=some f) :
    0≤fd ∧ fd.toNat<c.table.nfds ∧ c.table.get fd.toNat=some f ∧ ¬ c.ref f<1 := by
  unfold Ctx.argfd at ha
  split_ifs at ha with hfd
  split at ha
  next => cases ha
  next g hg =>
    split_ifs at ha with href
    cases ha
    have hlt : fd.toNat<c.table.nfds := by omega
    exact ⟨by omega,hlt,(get_of_lt (hlt.trans_le h.table.nfds_le)).trans hg,href⟩

lemma CtxInv.sysOpen (hf : c.ref f=0) (limit : ℕ)
    (mem : ℕ → Option Page) : CtxInv others (sysOpen c f limit mem).1 := by
  obtain ⟨hinv,hnone,hsome⟩:=fdalloc_spec h.table f limit mem
  unfold File.sysOpen
  generalize c.table.fdalloc f limit mem=e at hinv hnone hsome
  obtain ⟨table,o⟩:=e
  cases o with
  | none =>
    refine ⟨hinv,fun g => ?_⟩
    show fileclose (update c.ref f 1) f g=others g+table.count g
    rw [(hnone rfl).1.count,← h.ref g]
    unfold fileclose
    rw [if_neg (by simp),update_idem,update_self,update_apply]
    split_ifs with hgf
    · rw [hgf,hf]
    · rfl
  | some fd =>
    refine ⟨hinv,fun g => ?_⟩
    obtain ⟨_,hfree,_,hs⟩:=hsome fd rfl
    have hcount:=hs.count (hs.lt_slots hinv) g
    have hg:=h.ref g
    rw [hfree,if_neg (by simp)] at hcount
    show update c.ref f 1 g=others g+table.count g
    rw [update_apply]
    by_cases hgf : g=f
    · subst hgf
      rw [if_pos rfl] at hcount ⊢
      dsimp only at hcount
      omega
    rw [if_neg fun hfg => hgf (some.inj hfg).symm] at hcount
    rw [if_neg hgf]
    dsimp only at hcount
    omega

lemma CtxInv.sysClose (fd : ℤ) : CtxInv others (sysClose c fd) := by
  unfold File.sysClose
  split
  next => exact h
  next f ha =>
    obtain ⟨_,hlt,hget,_⟩:=h.argfd ha
    obtain ⟨hinv,hs,_⟩:=clear_spec h.table hlt
    exact ⟨hinv,h.ref.drop hs (hs.lt_slots hinv) hget⟩

lemma CtxInv.sysDup (fd : ℤ) (limit : ℕ) (mem : ℕ → Option Page) : CtxInv others (sysDup c fd limit mem).1 := by
  unfold File.sysDup
  split
  next => exact h
  next f ha =>
    obtain ⟨_,_,_,href⟩:=h.argfd ha
    obtain ⟨hinv,hnone,hsome⟩:=fdalloc_spec h.table f limit mem
    generalize c.table.fdalloc f limit mem=e at hinv hnone hsome
    obtain ⟨table,o⟩:=e
    cases o with
    | none => exact ⟨hinv,h.ref.same (hnone rfl).1⟩
    | some r =>
      obtain ⟨_,hfree,_,hs⟩:=hsome r rfl
      exact ⟨hinv,h.ref.put hs (hs.lt_slots hinv) hfree href⟩

lemma CtxInv.sysDupfd (fd arg : ℤ) (cloexec : Bool) (limit : ℕ)
    (mem : ℕ → ℕ → Option Page) : CtxInv others (sysDupfd c fd arg cloexec limit mem).1 := by
  unfold File.sysDupfd
  split
  next => exact h
  next f ha =>
    obtain ⟨_,_,_,href⟩:=h.argfd ha
    by_cases harg : arg<0 ∨ arg ≥ limit
    · rw [if_pos harg]
      exact h
    rw [if_neg harg]
    obtain ⟨hinv,hnone,hsome⟩:=dupScan_spec f cloexec mem (n := limit-arg.toNat) (i := arg.toNat) h.table
    generalize c.table.dupScan f cloexec mem (limit-arg.toNat) arg.toNat=e at hinv hnone hsome
    obtain ⟨table,o⟩:=e
    cases o with
    | none => exact ⟨hinv,h.ref.same (hnone rfl)⟩
    | some r =>
      obtain ⟨hfree,hs⟩:=hsome r rfl
      exact ⟨hinv,h.ref.put hs (hs.lt_slots hinv) hfree href⟩

lemma CtxInv.sysSetfd (fd : ℤ) (cloexec : Bool) : CtxInv others (sysSetfd c fd cloexec) := by
  unfold File.sysSetfd
  split
  next => exact h
  next f ha =>
    obtain ⟨_,hlt,hget,_⟩:=h.argfd ha
    refine ⟨⟨h.table.nfds_le,h.table.cap_ge,h.table.cap_le,h.table.null,h.table.hint,?_⟩,h.ref⟩
    intro i hi
    have hne : i≠fd.toNat := by
      rintro rfl
      have hi : c.table.get fd.toNat=none := hi
      rw [hget] at hi
      cases hi
    have hflag:=h.table.flags i hi
    unfold Fdtable.flag at hflag ⊢
    dsimp only
    rw [update_of_ne hne]
    exact hflag

lemma CtxInv.sysDup2 (oldfd newfd : ℤ) (limit : ℕ) (mem : ℕ → Option Page)
    (hok : c.table.get newfd.toNat=none ∨ ∃ j,newfd.toNat<j ∧ c.table.get j≠none) :
    CtxInv others (sysDup2 c oldfd newfd limit mem) := by
  unfold File.sysDup2
  split
  next => exact h
  next f ha =>
    obtain ⟨_,_,hget,href⟩:=h.argfd ha
    split_ifs with hrange heq
    · exact h
    · exact h
    have hne : oldfd.toNat≠newfd.toNat := by omega
    generalize newfd.toNat=fd at hok hne
    dsimp only
    obtain ⟨hinv,hsame,hn⟩:=ensureSlot_spec h.table mem fd
    generalize c.table.ensureSlot mem fd=e at hinv hsame hn
    obtain ⟨table,ok⟩:=e
    cases ok with
    | false => exact ⟨hinv,h.ref.same hsame⟩
    | true =>
      have hlt : fd<table.nfds := hn rfl
      have hcap : fd<table.capacity := hlt.trans_le hinv.nfds_le
      have hbal : Balanced others ⟨table,c.ref⟩ := h.ref.same hsame
      dsimp only at hinv hsame ⊢
      cases hold : table.entries fd with
      | none =>
        have hfree : table.get fd=none := (get_of_lt hcap).trans hold
        have hs:=sets_update hcap (some f) false table.nfds table.nextFdHint
        exact ⟨hinv.fill hlt f false table.nextFdHint fun i hi => .inr (hinv.hint i hi),
          hbal.put hs (hcap.trans_le hinv.cap_le) hfree href⟩
      | some oldf =>
        have hopen : table.get fd=some oldf := (get_of_lt hcap).trans hold
        obtain ⟨hinv',hs,hcap'⟩:=clear_spec hinv hlt
        have hbal':=hbal.drop hs (hs.lt_slots hinv') hopen
        -- an open descriptor above keeps the mark where it is
        have hlt' : fd<(table.clear fd).nfds := by
          rcases hok with hok | ⟨j,hj,hjopen⟩
          · rw [← hsame.get,hopen] at hok
            cases hok
          · refine hj.trans (hinv'.lt_nfds ?_)
            rw [hs.get,update_of_ne (by omega),hsame.get]
            exact hjopen
        have hfree : (table.clear fd).get fd=none := by rw [hs.get,update_self]
        -- the duplicated file still has its first descriptor
        have holdfd : (table.clear fd).get oldfd.toNat=some f := by
          rw [hs.get,update_of_ne hne,hsame.get,hget]
        have href':=hbal'.ref_pos ((lt_of_get holdfd).trans_le hinv'.cap_le) holdfd
        have hs':=sets_update (hlt'.trans_le hinv'.nfds_le) (some f) false (table.clear fd).nfds
          (table.clear fd).nextFdHint
        exact ⟨hinv'.fill hlt' f false (table.clear fd).nextFdHint fun i hi => .inr (hinv'.hint i hi),
          hbal'.put hs' (hs'.lt.trans_le hinv'.cap_le) hfree href'⟩

end

structure ExecDone (ft : Fdtable) (n : ℕ) (ft' : Fdtable) : Prop where
  capacity : ft'.capacity=ft.capacity
  nfds : ft'.nfds=ft.nfds
  hint : ft'.nextFdHint=ft.nextFdHint
  get : ∀ i,ft'.get i=if i<n ∧ ft.flag i=true then none else ft.get i
  flag : ∀ i,ft'.flag i=if i<n then false else ft.flag i

section
variable (h : CtxInv others c)
include h

lemma execLoop_spec (hn : n≤c.table.nfds) : ExecDone c.table n ((range n).foldl execTurn c).table ∧
      Balanced others ((range n).foldl execTurn c) := by
  induction n with
  | zero => exact ⟨⟨rfl,rfl,rfl,fun i => by simp,fun i => by simp⟩,h.ref⟩
  | succ n ih =>
    obtain ⟨hd,hb⟩:=ih (by omega)
    rw [range_succ,foldl_append,foldl_cons,foldl_nil]
    generalize (range n).foldl execTurn c=d at hd hb
    have hcap : n<d.table.capacity := by
      have := h.table.nfds_le
      rw [hd.capacity]
      omega
    have hget : d.table.get n=c.table.get n := by rw [hd.get,if_neg (by omega)]
    have hflag : d.table.flag n=c.table.flag n := by rw [hd.flag,if_neg (by omega)]
    have hlt : ∀ {i},i≠n → (i<n+1 ↔ i<n) := fun hi => by omega
    -- a turn that finds nothing to close
    have hkeep : c.table.flag n=false → ExecDone c.table (n+1) d.table := by
      intro hoff
      refine ⟨hd.capacity,hd.nfds,hd.hint,fun i => ?_,fun i => ?_⟩
      · by_cases hin : i=n
        · rw [hin,hget,hoff,if_neg (by simp)]
        · rw [hd.get]
          simp only [hlt hin]
      by_cases hin : i=n
      · rw [hin,hflag,hoff,if_pos (by omega)]
      · rw [hd.flag]
        simp only [hlt hin]
    unfold execTurn
    cases he : d.table.entries n with
    | none =>
      have hnone : c.table.get n=none := by rw [← hget,get_of_lt hcap,he]
      exact ⟨hkeep (h.table.flags n hnone),hb⟩
    | some f =>
      dsimp only
      have hcap' : n<slots := by
        have := h.table.cap_le
        rw [← hd.capacity] at this
        omega
      by_cases hset : d.table.fdflags n=true
      · rw [if_pos hset]
        have hs:=sets_update hcap none false d.table.nfds d.table.nextFdHint
        have hon : c.table.flag n=true := by rw [← hflag,flag_of_lt hcap,hset]
        refine ⟨⟨hd.capacity,hd.nfds,hd.hint,fun i => ?_,fun i => ?_⟩,hb.drop hs hcap' ((get_of_lt hcap).trans he)⟩
        · rw [hs.get]
          by_cases hin : i=n
          · rw [hin,update_self,if_pos ⟨by omega,hon⟩]
          · rw [update_of_ne hin,hd.get]
            simp only [hlt hin]
        rw [hs.flag]
        by_cases hin : i=n
        · rw [hin,update_self,if_pos (by omega)]
        · rw [update_of_ne hin,hd.flag]
          simp only [hlt hin]
      · rw [if_neg hset]
        refine ⟨hkeep ?_,hb⟩
        rw [← hflag,flag_of_lt hcap]
        simpa using hset

lemma CtxInv.execClose (hok : ∀ i<c.table.nextFdHint,c.table.flag i=false) : CtxInv others (execClose c) := by
  obtain ⟨hd,hb⟩:=execLoop_spec h le_rfl
  unfold File.execClose
  generalize (range c.table.nfds).foldl execTurn c=d at hd hb
  refine ⟨⟨?_,?_,?_,fun i hi hlt => ?_,fun i hi => ?_,fun i hi => ?_⟩,fun f => hb f⟩
  · refine (trimNfds_le ..).trans ?_
    rw [hd.nfds]
    rw [hd.capacity]
    exact h.table.nfds_le
  · show 32≤d.table.capacity
    rw [hd.capacity]
    exact h.table.cap_ge
  · show d.table.capacity ≤ slots
    rw [hd.capacity]
    exact h.table.cap_le
  · have hlt : i<d.table.capacity := hlt
    by_cases hin : i<d.table.nfds
    · exact trimNfds_null d.table.entries d.table.nfds i hi hin
    rw [← get_of_lt hlt,hd.get]
    split_ifs
    · rfl
    · rw [hd.capacity] at hlt
      rw [get_of_lt hlt]
      exact h.table.null i (by rw [← hd.nfds]; omega) hlt
  · have hi : i<c.table.nextFdHint := by
      rw [← hd.hint]
      exact hi
    show d.table.get i≠none
    rw [hd.get,if_neg (by simp [hok i hi])]
    exact h.table.hint i hi
  · show d.table.flag i=false
    rw [hd.flag]
    split_ifs with hlt
    · rfl
    · have hi : d.table.get i=none := hi
      rw [hd.get,if_neg fun hf => hlt hf.1] at hi
      exact h.table.flags i hi

lemma freeLoop_spec (hn : n≤c.table.nfds) : ((range n).foldl freeTurn c).table.capacity=c.table.capacity ∧
      (∀ i,((range n).foldl freeTurn c).table.get i=if i<n then none else c.table.get i) ∧
      Balanced others ((range n).foldl freeTurn c) := by
  induction n with
  | zero => exact ⟨rfl,fun i => by simp,h.ref⟩
  | succ n ih =>
    obtain ⟨hcap,hget,hb⟩:=ih (by omega)
    rw [range_succ,foldl_append,foldl_cons,foldl_nil]
    generalize (range n).foldl freeTurn c=d at hcap hget hb
    have hlt : n<d.table.capacity := by
      have := h.table.nfds_le
      omega
    have hslot : n<slots := by
      have := h.table.cap_le
      omega
    have hrange : ∀ {i},i≠n → (i<n+1 ↔ i<n) := fun hi => by omega
    unfold freeTurn
    cases he : d.table.entries n with
    | none =>
      refine ⟨hcap,fun i => ?_,hb⟩
      by_cases hin : i=n
      · rw [hin,if_pos (by omega),get_of_lt hlt,he]
      · rw [hget]
        simp only [hrange hin]
    | some f =>
      have hs : Sets d.table {d.table with entries := update d.table.entries n none} n none (d.table.fdflags n) := by
        have := sets_update hlt none (d.table.fdflags n) d.table.nfds d.table.nextFdHint
        rwa [update_eq_self] at this
      refine ⟨hcap,fun i => ?_,hb.drop hs hslot ((get_of_lt hlt).trans he)⟩
      rw [hs.get]
      by_cases hin : i=n
      · rw [hin,update_self,if_pos (by omega)]
      · rw [update_of_ne hin,hget]
        simp only [hrange hin]

lemma CtxInv.fdtableFree : fdtableFree c=others := by
  obtain ⟨_,hget,hb⟩:=freeLoop_spec h le_rfl
  unfold File.fdtableFree
  funext f
  rw [hb f]
  refine Nat.add_eq_left.mpr (RefCount.refs_eq_zero_iff.mpr fun i hi => ?_)
  rw [hget] at hi
  split_ifs at hi with hlt
  exact hlt (h.table.lt_nfds (by rw [hi]; simp))

end

structure DupDone (parent : Fdtable) (n : ℕ) (ft : Fdtable) : Prop where
  capacity : ft.capacity=parent.capacity
  nfds : ft.nfds=parent.nfds
  hint : ft.nextFdHint=parent.nextFdHint
  get : ∀ i,ft.get i=if i<n then parent.get i else none
  flag : ∀ i,ft.flag i=if i<n then parent.flag i else false

variable {parent : Fdtable}

lemma dupLoop_spec (h : TableInv parent) (hpos : ∀ i f,parent.get i=some f →
      ¬ others f<1) (hd : DupDone parent 0 c.table) (hb : Balanced others c)
    (hn : n≤parent.nfds) : DupDone parent n ((range n).foldl (dupTurn parent) c).table ∧
      Balanced others ((range n).foldl (dupTurn parent) c) := by
  induction n with
  | zero => exact ⟨hd,hb⟩
  | succ n ih =>
    obtain ⟨hd,hb⟩:=ih (by omega)
    rw [range_succ,foldl_append,foldl_cons,foldl_nil]
    generalize (range n).foldl (dupTurn parent) c=d at hd hb
    have hpcap : n<parent.capacity := by
      have := h.nfds_le
      omega
    have hlt : n<d.table.capacity := by
      rw [hd.capacity]
      exact hpcap
    have hslot : n<slots := hpcap.trans_le h.cap_le
    have hrange : ∀ {i},i≠n → (i<n+1 ↔ i<n) := fun hi => by omega
    have hfree : d.table.get n=none := by rw [hd.get,if_neg (by omega)]
    unfold dupTurn
    cases he : parent.entries n with
    | none =>
      have hnone : parent.get n=none := (get_of_lt hpcap).trans he
      refine ⟨⟨hd.capacity,hd.nfds,hd.hint,fun i => ?_,fun i => ?_⟩,hb⟩
      · by_cases hin : i=n
        · rw [hin,hfree,if_pos (by omega),hnone]
        · rw [hd.get]
          simp only [hrange hin]
      by_cases hin : i=n
      · rw [hin,hd.flag,if_neg (by omega),if_pos (by omega),h.flags n hnone]
      · rw [hd.flag]
        simp only [hrange hin]
    | some f =>
      have hsome : parent.get n=some f := (get_of_lt hpcap).trans he
      have href : ¬ d.ref f<1 := by
        have := hpos n f hsome
        rw [hb f]
        omega
      dsimp only
      rw [if_neg href]
      have hs:=sets_update hlt (some f) (parent.fdflags n) d.table.nfds d.table.nextFdHint
      refine ⟨⟨hd.capacity,hd.nfds,hd.hint,fun i => ?_,fun i => ?_⟩,hb.put hs hslot hfree href⟩
      · rw [hs.get]
        by_cases hin : i=n
        · rw [hin,update_self,if_pos (by omega),hsome]
        · rw [update_of_ne hin,hd.get]
          simp only [hrange hin]
      rw [hs.flag]
      by_cases hin : i=n
      · rw [hin,update_self,if_pos (by omega),flag_of_lt hpcap]
      · rw [update_of_ne hin,hd.flag]
        simp only [hrange hin]

variable {mem : Option Page}

lemma fdtableDup_cleared {child : Fdtable} (hjunk : ∀ page,mem=some page → ∀ i,288 ≤ i → i<parent.capacity →
      page.entries i=none ∧ page.fdflags i=false)
    (hchild : (if parent.capacity > fdtableInit.capacity then fdtableInit.expand mem
      else some fdtableInit)=some child) :
    ∀ i,i<parent.capacity → child.capacity ≤ i → child.entries i=none ∧ child.fdflags i=false := by
  intro i hi hge
  split_ifs at hchild with hcap
  · cases mem with
    | none => simp [Fdtable.expand] at hchild
    | some page =>
      obtain rfl : _ = child := some.inj (by simpa [Fdtable.expand,newCapacity,fdtableInit,
        Machine.pgsize] using hchild)
      have hge : 288 ≤ i := hge
      have h32 : ¬ i<32 := by omega
      have h288 : ¬ i<288 := by omega
      simpa [h32,h288] using hjunk page rfl i hge hi
  · cases hchild
    exact ⟨rfl,rfl⟩

lemma fdtableDup_spec (h : TableInv parent) {ref : FileId → ℕ} (hpos : ∀ i f,parent.get i=some f → ¬ ref f<1)
    (hjunk : ∀ page,mem=some page → ∀ i,288 ≤ i → i<parent.capacity → page.entries i=none ∧ page.fdflags i=false)
    (hdup : fdtableDup parent fdtableInit ref mem=some c) :
    CtxInv ref c ∧ c.table.get=parent.get ∧ c.table.flag=parent.flag := by
  unfold fdtableDup at hdup
  split at hdup
  next => cases hdup
  next child hchild =>
    cases hdup
    have hclear:=fdtableDup_cleared hjunk hchild
    generalize hz : (⟨fun i => if i<child.capacity then none else child.entries i,
      fun i => if i<child.capacity then false else child.fdflags i,parent.capacity,parent.nfds,
      parent.nextFdHint⟩ : Fdtable)=z
    have hget : ∀ i,z.get i=none := by
      intro i
      rw [← hz,Fdtable.get]
      dsimp only
      split_ifs with hi hlt
      · rfl
      · exact (hclear i hi (by omega)).1
      · rfl
    have hflag : ∀ i,z.flag i=false := by
      intro i
      rw [← hz,Fdtable.flag]
      dsimp only
      split_ifs with hi hlt
      · rfl
      · exact (hclear i hi (by omega)).2
      · rfl
    have hstart : DupDone parent 0 z := by
      refine ⟨?_,?_,?_,fun i => ?_,fun i => ?_⟩
      · rw [← hz]
      · rw [← hz]
      · rw [← hz]
      · rw [hget,if_neg (by omega)]
      · rw [hflag,if_neg (by omega)]
    have hzero : Balanced ref ⟨z,ref⟩ := by
      intro f
      refine (Nat.add_eq_left.mpr (RefCount.refs_eq_zero_iff.mpr fun i hi => ?_)).symm
      rw [hget] at hi
      cases hi
    obtain ⟨hd,hb⟩:=dupLoop_spec h hpos hstart hzero le_rfl
    have hsame : ((range parent.nfds).foldl (dupTurn parent) ⟨z,ref⟩).table.get=parent.get := by
      funext i
      rw [hd.get]
      split_ifs with hi
      · rfl
      · exact (not_not.mp fun hne => hi (h.lt_nfds hne)).symm
    have hflags : ((range parent.nfds).foldl (dupTurn parent) ⟨z,ref⟩).table.flag=parent.flag := by
      funext i
      rw [hd.flag]
      split_ifs with hi
      · rfl
      · exact (h.flags i (not_not.mp fun hne => hi (h.lt_nfds hne))).symm
    refine ⟨⟨⟨?_,?_,?_,fun i hi hlt => ?_,fun i hi => ?_,fun i hi => ?_⟩,hb⟩,hsame,hflags⟩
    · rw [hd.nfds,hd.capacity]
      exact h.nfds_le
    · rw [hd.capacity]
      exact h.cap_ge
    · rw [hd.capacity]
      exact h.cap_le
    · rw [← get_of_lt hlt,hsame]
      exact not_not.mp fun hne => absurd (h.lt_nfds hne) (by rw [hd.nfds] at hi; omega)
    · rw [hsame]
      rw [hd.hint] at hi
      exact h.hint i hi
    · rw [hsame] at hi
      rw [hflags]
      exact h.flags i hi

end Auxv6.File
