import Auxv6.Fs.LogCommit

/-!
# System calls on the log

A call counts in the reservation with the blocks it may still add.
-/

namespace Auxv6.Fs.Log
open Lib Function List Finset Nat

variable {start size b i : ℕ} {S0 : ℕ → Block} {s t : State}

lemma LogInv.keep (h : LogInv start size S0 s) (hdisk : t.disk=s.disk)
    (harea : ∀ b,¬ Home start size b → (t.buf b).data=t.disk b) (hview : ∀ b,Home start size b → t.held b=false →
      (t.buf b).data=t.target S0 b ∨ (t.buf b).data=t.disk b ∧ (t.buf b).dirty=false)
    (hgroups : t.groups=s.groups) (hret : t.returned=s.returned)
    (hphase : t.phase=s.phase) (hcommit : t.committing=s.committing) (hsmall : t.n≤logSize)
    (hheld : ∀ op∈t.ops,∀ b,op.stage.holds b=true → Home start size b)
    (hp : PhaseInv start size S0 t s.phase) : LogInv start size S0 t where
  logArea := harea
  view := hview
  covers := by
    have hc:=h.covers
    rw [← hdisk] at hc
    unfold State.stable at hc ⊢
    rw [hgroups]
    exact hc
  headSmall := hdisk ▸ h.headSmall
  small := hsmall
  returned := by rw [hret,hgroups]; exact h.returned
  heldHome := hheld
  committing := by rw [hcommit,hphase]; exact h.committing
  phase := hphase ▸ hp

lemma held_eq_false : s.held b=false ↔ ∀ op∈s.ops,op.stage.holds b=false := by
  simp [State.held]

variable {op : Op}

lemma held_of_set {x : Op} (hi : s.ops[i]? = some op) (hx : op.stage.holds b=false)
    (h : (s.setOp i x).held b=false) : s.held b=false := by
  rw [held_eq_false] at h ⊢
  intro y hy
  obtain ⟨k,hk⟩:=mem_iff_getElem?.mp hy
  by_cases hki : k=i
  · subst hki
    rw [hi] at hk
    cases hk
    exact hx
  · refine h y (mem_iff_getElem?.mpr ⟨k,?_⟩)
    simpa [State.setOp,List.getElem?_set_ne (Ne.symm hki)] using hk

lemma sum_map_set (f : Op → ℕ) {l : List Op} (hi : l[i]? = some op) (x : Op) :
    ((l.set i x).map f).sum+f op=(l.map f).sum+f x := by
  induction l generalizing i with
  | nil => cases hi
  | cons y l ih =>
    cases i with
    | zero =>
      cases hi
      simp only [List.set_cons_zero,List.map_cons,List.sum_cons]
      omega
    | succ i =>
      have hrest:=ih hi
      simp only [List.set_cons_succ,List.map_cons,List.sum_cons]
      omega

lemma LogInv.phase_ready (h : LogInv start size S0 s) (hi : s.ops[i]? = some op)
    (hop : op.stage≠.done) : s.phase=.ready ∧ Open start size s := by
  have hmem : op∈s.ops := mem_of_getElem? hi
  have hph:=h.phase
  have hquiet : Quiet s → False := fun hq => hop (hq.ops op hmem)
  cases hp : s.phase with
  | ready => exact ⟨rfl,by rw [hp] at hph; exact hph⟩
  | writeLog tail => rw [hp] at hph; exact (hquiet hph.2.1).elim
  | install tail boot => rw [hp] at hph; exact (hquiet hph.1).elim
  | returning => rw [hp] at hph; exact (hquiet hph.1).elim
  | readHead => rw [hp] at hph; exact (hquiet hph.1).elim

lemma sum_spare_le (l : List Op) : (l.map Op.spare).sum≤(l.map Op.active).sum*maxOpBlocks := by
  induction l with
  | nil => simp
  | cons op l ih =>
    have hop : op.spare≤op.active*maxOpBlocks := mul_le_mul_left _ (sub_le ..)
    simp only [List.map_cons,List.sum_cons,add_mul]
    omega

lemma LogInv.beginOp (h : LogInv start size S0 s) (hs : Log.beginOp s=some t) : LogInv start size S0 t := by
  unfold Log.beginOp at hs
  split_ifs at hs with _ hroom hp
  cases hs
  rw [not_not] at hp
  have ho : Open start size s := by simpa [hp,PhaseInv] using h.phase
  refine h.keep rfl h.logArea (fun b hb hh => h.view b hb ?_) rfl rfl rfl rfl h.small ?_ ?_
  · rw [held_eq_false] at hh ⊢
    exact fun op hop => hh op (List.mem_append_left _ hop)
  · intro op hop b hb
    rcases List.mem_append.mp hop with hop | hop
    · exact h.heldHome op hop b hb
    · cases List.mem_singleton.mp hop
      cases hb
  rw [hp]
  refine ⟨⟨ho.head,ho.dirty,ho.home,ho.keys⟩,ho.idle,?_,?_,?_,?_⟩
  · simp [ho.count,Op.active]
  · intro op hop hne b hb
    rcases List.mem_append.mp hop with hop | hop
    · exact ho.logged op hop hne b hb
    · cases List.mem_singleton.mp hop
      cases hb
  · have hspare:=sum_spare_le s.ops
    rw [← ho.count] at hspare
    have hnew : ((s.ops++[(⟨.idle,∅⟩ : Op)]).map Op.spare).sum = (s.ops.map Op.spare).sum+maxOpBlocks := by
      simp [Op.spare,Op.active]
    show s.n+((s.ops++[(⟨.idle,∅⟩ : Op)]).map Op.spare).sum≤logSize
    rw [add_mul] at hroom
    omega
  · intro op hop b hb
    rcases List.mem_append.mp hop with hop | hop
    · exact ho.fit op hop b hb
    · cases List.mem_singleton.mp hop
      cases hb

lemma Open.setOp (ho : Open start size s) (hi : s.ops[i]? = some op)
    (hop : op.stage≠.done) (stage : Stage) (hstage : stage≠.done)
    (hfit : ∀ b,stage=.checked b → (insert b op.logged).card ≤ maxOpBlocks) :
    Open start size (s.setOp i ⟨stage,op.logged⟩) := by
  have hmem:=mem_of_getElem? hi
  have hactive : ∀ x : Op,x.stage≠.done → x.active=1 := by
    rintro ⟨stage,logged⟩ hx
    cases stage <;> first | rfl | exact absurd rfl hx
  have hsame : (⟨stage,op.logged⟩ : Op).active=op.active := by
    rw [hactive op hop,hactive _ hstage]
  refine ⟨⟨ho.head,ho.dirty,ho.home,ho.keys⟩,ho.idle,?_,?_,?_,?_⟩
  · have hsum:=sum_map_set Op.active hi ⟨stage,op.logged⟩
    have hcount:=ho.count
    simp only [State.setOp]
    omega
  · intro x hx hne b hb
    rcases mem_or_eq_of_mem_set hx with hx | rfl
    · exact ho.logged x hx hne b hb
    · exact ho.logged op hmem hop b hb
  · have hsum:=sum_map_set Op.spare hi ⟨stage,op.logged⟩
    have hspare : (⟨stage,op.logged⟩ : Op).spare=op.spare := by
      unfold Op.spare
      rw [hsame]
    have hroom:=ho.room
    simp only [State.setOp]
    omega
  · intro x hx b hb
    rcases mem_or_eq_of_mem_set hx with hx | rfl
    · exact ho.fit x hx b hb
    · exact hfit b hb

lemma LogInv.edit (h : LogInv start size S0 s) {data : Block}
    (hhome : Home start size b) (hs : Log.edit s i b data=some t) : LogInv start size S0 t := by
  unfold Log.edit at hs
  split at hs
  next logged hi =>
    split_ifs at hs with hheld
    cases hs
    obtain ⟨hp,ho⟩:=h.phase_ready hi (by simp)
    have hbuf : ∀ x,x≠b → (State.buf { s.setOp i ⟨.editing b,logged⟩ with
        cache := update s.cache b (some ⟨data,(s.buf b).dirty⟩) } x)=s.buf x := by
      intro x hx
      simp [State.buf,update_of_ne hx,State.setOp]
    have hself : ((State.buf { s.setOp i ⟨.editing b,logged⟩ with
        cache := update s.cache b (some ⟨data,(s.buf b).dirty⟩) } b).dirty) = (s.buf b).dirty := by
      simp [State.buf]
    refine h.keep rfl (fun x hx => ?_) (fun x hx hh => ?_) rfl rfl rfl rfl h.small ?_ ?_
    · rw [hbuf x (hhome.ne hx).symm]
      exact h.logArea x hx
    · have hxb : x≠b := by
        rintro rfl
        rw [held_eq_false] at hh
        have hlen : i<s.ops.length := (List.getElem?_eq_some_iff.mp hi).1
        have hx:=hh ⟨.editing x,logged⟩ (mem_set hlen ..)
        simp [Stage.holds] at hx
      rw [hbuf x hxb]
      exact h.view x hx (held_of_set hi rfl hh)
    · intro op hop x hx
      rcases mem_or_eq_of_mem_set hop with hop | rfl
      · exact h.heldHome op hop x hx
      · have hbx : b=x := by simpa [Stage.holds] using hx
        exact hbx ▸ hhome
    · rw [hp]
      have ho':=ho.setOp hi (by simp) (.editing b) (by simp) (by simp)
      refine ⟨⟨ho.head,fun x hx => ?_,ho.home,ho.keys⟩,ho'.idle,ho'.count,ho'.logged,ho'.room,ho'.fit⟩
      by_cases hxb : x=b
      · subst hxb
        rw [hself]
        exact ho.dirty x hx
      · rw [hbuf x hxb]
        exact ho.dirty x hx
  next => cases hs

lemma LogInv.logCheck (h : LogInv start size S0 s)
    (hfit : ∀ b logged,s.ops[i]? = some ⟨.editing b,logged⟩ → (insert b logged).card ≤ maxOpBlocks)
    (hs : Log.logCheck size s i=some t) : LogInv start size S0 t := by
  unfold Log.logCheck at hs
  split at hs
  next b logged hi =>
    split_ifs at hs
    cases hs
    obtain ⟨hp,ho⟩:=h.phase_ready hi (by simp)
    have hmem:=mem_of_getElem? hi
    refine h.keep rfl h.logArea (fun x hx hh => ?_) rfl rfl rfl rfl h.small ?_ ?_
    · refine h.view x hx ?_
      -- the call holds the same buffer before and after
      by_cases hxb : (⟨.editing b,logged⟩ : Op).stage.holds x=true
      · rw [held_eq_false] at hh
        have hlen : i<s.ops.length := (List.getElem?_eq_some_iff.mp hi).1
        have hx:=hh ⟨.checked b,logged⟩ (mem_set hlen ..)
        have hbx : b=x := by simpa [Stage.holds] using hxb
        simp [Stage.holds,hbx] at hx
      · exact held_of_set hi (by simpa using hxb) hh
    · intro op hop x hx
      rcases mem_or_eq_of_mem_set hop with hop | rfl
      · exact h.heldHome op hop x hx
      · exact h.heldHome _ hmem x hx
    · rw [hp]
      refine ho.setOp hi (by simp) (.checked b) (by simp) fun x hx => ?_
      cases hx
      exact hfit b logged hi
  next => cases hs

lemma mem_header_append {x : ℕ} (k n : ℕ) (block : ℕ → ℕ) (hk : k=((List.range n).map block).idxOf b) :
    (∃ j<(if k=n then n+1 else n),update block k b j=x) ↔ x=b ∨ ∃ j<n,block j=x := by
  have hle : k≤n := by
    have := idxOf_le_length (a := b) (l := (List.range n).map block)
    simp only [length_map,length_range] at this
    omega
  by_cases hkn : k=n
  · rw [if_pos hkn]
    constructor
    · rintro ⟨j,hj,rfl⟩
      by_cases hjk : j=k
      · subst hjk
        exact .inl (update_self ..)
      · exact .inr ⟨j,by omega,(update_of_ne hjk ..).symm⟩
    · rintro (rfl | ⟨j,hj,rfl⟩)
      · exact ⟨k,by omega,update_self ..⟩
      · exact ⟨j,by omega,update_of_ne (by omega) ..⟩
  rw [if_neg hkn]
  -- absorbed: the entry at `k` is `b` already
  have hb : b∈(List.range n).map block := by
    rw [← idxOf_lt_length_iff,← hk]
    simp only [length_map,length_range]
    omega
  have hkb : block k=b := by
    have hget:=getElem_idxOf (idxOf_lt_length_iff.mpr hb)
    simpa [← hk] using hget
  rw [← hkb,update_eq_self]
  constructor
  · exact .inr
  · rintro (rfl | hx)
    · exact ⟨k,by omega,rfl⟩
    · exact hx

structure Appends (S0 : ℕ → Block) (s t : State) (i b : ℕ) (logged : Finset ℕ) : Prop where
  ops : t.ops=s.ops.set i ⟨.idle,insert b logged⟩
  header : ∀ x,x∈t.header ↔ x=b ∨ x∈s.header
  n : t.n=if b∈s.header then s.n else s.n+1
  keys : t.cur.map Prod.fst=s.cur.map Prod.fst++[b]
  buf : ∀ x,t.buf x=if x=b then ⟨(s.buf b).data,true⟩ else s.buf x
  target : ∀ x,t.target S0 x=if x=b then (s.buf b).data else s.target S0 x
  disk : t.disk=s.disk
  groups : t.groups=s.groups
  returned : t.returned=s.returned
  phase : t.phase=s.phase
  committing : t.committing=s.committing
  outstanding : t.outstanding=s.outstanding

lemma logAppend_appends (S0 : ℕ → Block) (hs : Log.logAppend s i=some t) :
    ∃ b logged,s.ops[i]? = some ⟨.checked b,logged⟩ ∧ Appends S0 s t i b logged := by
  unfold Log.logAppend at hs
  split at hs
  next b logged hi =>
    cases hs
    refine ⟨b,logged,hi,rfl,fun x => ?_,?_,by simp,fun x => ?_,fun x => ?_,rfl,rfl,rfl,rfl,rfl,rfl⟩
    · rw [mem_header,mem_header]
      exact mem_header_append _ s.n s.block rfl
    · have hlen : s.header.length=s.n := by simp [State.header]
      by_cases hb : b∈s.header
      · have hlt:=idxOf_lt_length_iff.mpr hb
        simp only [hb,if_true]
        rw [if_neg (by omega)]
      · simp only [hb,if_false]
        rw [if_pos ((idxOf_eq_length_iff.mpr hb).trans hlen)]
    · by_cases hx : x=b
      · subst hx
        simp [State.buf]
      · simp [State.buf,State.setOp,hx]
    · show Redo.apply (s.cur++[(b,(s.buf b).data)]) (s.stable S0) x = _
      rw [Redo.apply_append_one,update_apply]
      rfl
  next => cases hs

variable {logged : Finset ℕ}

section
variable (ha : Appends S0 s t i b logged)
include ha

lemma Appends.data (x : ℕ) : (t.buf x).data=(s.buf x).data := by
  rw [ha.buf]
  split_ifs with hx
  · rw [hx]
  · rfl
lemma Appends.mem_ops (hop : op∈t.ops) : op=⟨.idle,insert b logged⟩ ∨ op∈s.ops := by
  rw [ha.ops] at hop
  exact (mem_or_eq_of_mem_set hop).symm

lemma Appends.room (hi : s.ops[i]? = some ⟨.checked b,logged⟩) (ho : Open start size s) :
    t.n+(t.ops.map Op.spare).sum≤logSize := by
  have hmem:=mem_of_getElem? hi
  have hfit:=ho.fit _ hmem b rfl
  have hsum:=sum_map_set Op.spare hi ⟨.idle,insert b logged⟩
  have hold : (⟨.checked b,logged⟩ : Op).spare=maxOpBlocks-logged.card := by
    simp [Op.spare,Op.active]
  have hnew : (⟨.idle,insert b logged⟩ : Op).spare=maxOpBlocks-(insert b logged).card := by
    simp [Op.spare,Op.active]
  have hroom:=ho.room
  rw [ha.n,ha.ops]
  split_ifs with hb
  · have hcard : logged.card≤(insert b logged).card := card_le_card (subset_insert ..)
    omega
  · have hb : b∉logged := fun hm => hb (ho.logged _ hmem (by simp) b hm)
    rw [card_insert_of_notMem hb] at hfit hnew
    omega

lemma Appends.open_ (hi : s.ops[i]? = some ⟨.checked b,logged⟩) (hhome : Home start size b)
    (ho : Open start size s) : Open start size t := by
  have hlogged:=ho.logged _ (List.mem_of_getElem? hi) (by simp)
  refine ⟨⟨ha.disk ▸ ho.head,fun x hx => ?_,fun x hx => ?_,fun x hx => ?_⟩,
    ha.committing.trans ho.idle,?_,?_,ha.room hi ho,?_⟩
  · rw [ha.buf]
    split_ifs with hxb
    · rfl
    · exact ho.dirty x (((ha.header x).mp hx).resolve_left hxb)
  · rcases (ha.header x).mp hx with rfl | hx
    · exact hhome
    · exact ho.home x hx
  · rw [ha.keys,List.mem_append,List.mem_singleton] at hx
    exact (ha.header x).mpr (hx.elim (fun hx => .inr (ho.keys x hx)) .inl)
  · have hactive:=sum_map_set Op.active hi ⟨.idle,insert b logged⟩
    have hone : (⟨.idle,insert b logged⟩ : Op).active=(⟨.checked b,logged⟩ : Op).active := rfl
    have hcount:=ho.count
    rw [ha.ops,ha.outstanding]
    omega
  · intro op hop hne x hx
    rw [ha.header]
    rcases ha.mem_ops hop with rfl | hop
    · rcases Finset.mem_insert.mp hx with rfl | hx
      · exact .inl rfl
      · exact .inr (hlogged x hx)
    · exact .inr (ho.logged op hop hne x hx)
  · intro op hop x hx
    rcases ha.mem_ops hop with rfl | hop
    · cases hx
    · exact ho.fit op hop x hx

end

lemma LogInv.logAppend (h : LogInv start size S0 s) (hs : Log.logAppend s i=some t) : LogInv start size S0 t := by
  obtain ⟨b,logged,hi,ha⟩:=logAppend_appends S0 hs
  obtain ⟨hp,ho⟩:=h.phase_ready hi (by simp)
  have hhome : Home start size b := h.heldHome _ (mem_of_getElem? hi) b (by simp [Stage.holds])
  refine h.keep ha.disk (fun x hx => ?_) (fun x hx hh => ?_) ha.groups ha.returned ha.phase
    ha.committing ((le_add_right ..).trans (ha.room hi ho)) ?_ (hp ▸ ha.open_ hi hhome ho)
  · rw [ha.data,ha.disk]
    exact h.logArea x hx
  · rw [ha.data,ha.target,ha.disk]
    split_ifs with hxb
    · exact .inl (by rw [hxb])
    rw [ha.buf,if_neg hxb]
    refine h.view x hx (held_of_set (x := ⟨.idle,insert b logged⟩) hi ?_ ?_)
    · simpa [Stage.holds] using Ne.symm hxb
    · unfold State.held at hh ⊢
      rw [ha.ops] at hh
      exact hh
  · intro op hop x hx
    rcases ha.mem_ops hop with rfl | hop
    · cases hx
    · exact h.heldHome op hop x hx

lemma done_of_sum_active {l : List Op} (h : (l.map Op.active).sum=0) : ∀ op∈l,op.stage=.done := by
  induction l with
  | nil => simp
  | cons x l ih =>
    simp only [List.map_cons,List.sum_cons,Nat.add_eq_zero_iff] at h
    intro op hop
    rcases List.mem_cons.mp hop with rfl | hop
    · obtain ⟨stage,logged⟩:=op
      cases stage <;> first | rfl | exact absurd h.1 (by simp [Op.active])
    · exact ih h.2 op hop

lemma LogInv.endOp (h : LogInv start size S0 s) (hs : Log.endOp s i=some t) : LogInv start size S0 t := by
  unfold Log.endOp at hs
  split at hs
  next logged hi =>
    obtain ⟨hp,ho⟩:=h.phase_ready hi (by simp)
    have hactive:=sum_map_set Op.active hi ⟨.done,logged⟩
    have hone : (⟨.idle,logged⟩ : Op).active=1 := rfl
    have hnone : (⟨.done,logged⟩ : Op).active=0 := rfl
    have hcount:=ho.count
    have hview : ∀ b,Home start size b → (s.setOp i ⟨.done,logged⟩).held b=false →
        (s.buf b).data=s.target S0 b ∨ (s.buf b).data=s.disk b ∧ (s.buf b).dirty=false :=
      fun b hb hh => h.view b hb (held_of_set hi rfl hh)
    have hheld : ∀ op∈s.ops.set i ⟨.done,logged⟩,∀ b,op.stage.holds b=true → Home start size b := by
      intro op hop b hb
      rcases List.mem_or_eq_of_mem_set hop with hop | rfl
      · exact h.heldHome op hop b hb
      · cases hb
    dsimp only at hs
    split_ifs at hs with hc hlast hn
    · -- the last call of the group, with something logged
      cases hs
      have hq:=done_of_sum_active (l := s.ops.set i ⟨.done,logged⟩) (by omega)
      exact ⟨h.logArea,hview,h.covers,h.headSmall,h.small,h.returned,hheld,by simp [Phase.recovering],
        ⟨ho.head,ho.dirty,ho.home,ho.keys⟩,⟨hq,hlast⟩,zero_le _,fun j hj => by omega⟩
    · cases hs
      have hq:=done_of_sum_active (l := s.ops.set i ⟨.done,logged⟩) (by omega)
      have hn : s.n=0 := by omega
      have hcur : s.cur=[] := by
        have hkeys:=ho.keys
        simp only [State.header,hn,List.range_zero,List.map_nil,List.not_mem_nil] at hkeys
        exact List.map_eq_nil_iff.mp (List.eq_nil_iff_forall_not_mem.mpr hkeys)
      exact ⟨h.logArea,hview,h.covers,h.headSmall,h.small,h.returned,hheld,
        by simp [Phase.recovering],⟨hq,hlast⟩,hcur,hn,ho.head⟩
    cases hs
    refine h.keep rfl h.logArea hview rfl rfl rfl rfl h.small hheld (hp ▸ ?_)
    refine ⟨⟨ho.head,ho.dirty,ho.home,ho.keys⟩,ho.idle,?_,?_,?_,?_⟩
    · show s.outstanding-1=((s.ops.set i ⟨.done,logged⟩).map Op.active).sum
      omega
    · intro op hop hne
      rcases List.mem_or_eq_of_mem_set hop with hop | rfl
      · exact ho.logged op hop hne
      · exact absurd rfl hne
    · have hsum:=sum_map_set Op.spare hi ⟨.done,logged⟩
      have hspare : (⟨.done,logged⟩ : Op).spare=0 := zero_mul _
      have hroom:=ho.room
      show s.n+((s.ops.set i ⟨.done,logged⟩).map Op.spare).sum≤logSize
      omega
    · intro op hop b hb
      rcases List.mem_or_eq_of_mem_set hop with hop | rfl
      · exact ho.fit op hop b hb
      · cases hb
  next => cases hs

lemma PhaseInv.setCache {phase : Phase} (hp : PhaseInv start size S0 s phase)
    {cache : ℕ → Option Cached} (hcache : phase≠.readHead)
    (hdirty : ∀ b,(s.buf b).dirty=true → (State.buf {s with cache := cache} b).dirty=true) :
    PhaseInv start size S0 {s with cache := cache} phase := by
  cases phase with
  | ready =>
    have ho : Open start size s := hp
    exact ⟨⟨ho.head,fun b hb => hdirty b (ho.dirty b hb),ho.home,ho.keys⟩,ho.idle,ho.count,ho.logged,ho.room,ho.fit⟩
  | writeLog tail =>
    obtain ⟨hl,hq,hrest⟩:=hp
    exact ⟨⟨hl.head,fun b hb => hdirty b (hl.dirty b hb),hl.home,hl.keys⟩,⟨hq.ops,hq.outstanding⟩,hrest⟩
  | install tail boot => exact ⟨⟨hp.1.ops,hp.1.outstanding⟩,hp.2⟩
  | returning => exact ⟨⟨hp.1.ops,hp.1.outstanding⟩,hp.2⟩
  | readHead => exact absurd rfl hcache

lemma LogInv.read (h : LogInv start size S0 s) (hp : s.phase.recovering=false) :
    LogInv start size S0 (s.bread b) := by
  refine h.keep rfl (fun x hx => ?_) (fun x hx hh => ?_) rfl rfl rfl rfl h.small h.heldHome ?_
  · rw [buf_bread]
    exact h.logArea x hx
  · rw [buf_bread]
    exact h.view x hx hh
  · refine h.phase.setCache (fun hr => by simp [hr,Phase.recovering] at hp) fun x hx => ?_
    exact (congrArg Cached.dirty (buf_bread s b x)).trans hx

lemma LogInv.evict (h : LogInv start size S0 s) (hd : (s.buf b).dirty=false) :
    LogInv start size S0 {s with cache := update s.cache b none} := by
  have hbuf : ∀ x,State.buf {s with cache := update s.cache b none} x =
      if x=b then ⟨s.disk b,false⟩ else s.buf x := by
    intro x
    by_cases hx : x=b
    · subst hx
      simp [State.buf]
    · simp [State.buf,hx]
  refine h.keep rfl (fun x hx => ?_) (fun x hx hh => ?_) rfl rfl rfl rfl h.small h.heldHome ?_
  · rw [hbuf]
    split_ifs with hxb
    · rw [hxb]
    · exact h.logArea x hx
  · rw [hbuf]
    split_ifs with hxb
    · exact .inr ⟨by rw [hxb],rfl⟩
    · exact h.view x hx hh
  by_cases hr : s.phase=.readHead
  · have hp:=h.phase
    rw [hr] at hp ⊢
    refine ⟨⟨hp.1.ops,hp.1.outstanding⟩,hp.2.1,?_⟩
    rw [hp.2.2]
    exact update_eq_self b _
  refine h.phase.setCache hr fun x hx => ?_
  rw [hbuf,if_neg fun hxb => ?_]
  · exact hx
  · rw [hxb,hd] at hx
    cases hx

end Auxv6.Fs.Log
