import Auxv6.Exec.Exec

/-!
# The pages of a new image

What the calls of `exec` on the new address space keep.
-/

namespace Auxv6.Exec
open Machine Vm Lib List Nat

def Writable (s : Uvm) (d lo hi : ℕ) : Prop := ∀ va,lo≤va → va<hi → (pteAt s d va).userWritable=true

section

variable {L : Mem.Layout} {D : Set ℕ} {P : List ℕ} {s s' : Uvm} {d va lo hi newsz a : ℕ} {c : Fin ncpu}

lemma Writable.mono (h : Writable s d lo hi) {lo' hi' : ℕ} (hlo : lo≤lo') (hhi : hi'≤hi) :
    Writable s d lo' hi' := fun va h1 h2 => h va (hlo.trans h1) (h2.trans_le hhi)

lemma UvmInv.forget {f : ℕ} (h : UvmInv L D [f] s) (hf : mapped D s f=0) : UvmInv L D [] s := by
  refine ⟨h.good,h.dir,h.table,h.inj,fun g hg => ?_⟩
  rw [count_nil,add_zero] at hg ⊢
  have hne : g≠f := by
    rintro rfl
    omega
  have hu:=h.user g (by omega)
  rwa [count_eq_zero_of_not_mem (by simpa using hne),add_zero] at hu

lemma userLoad_eq (s : Uvm) (d va : ℕ) :
    userLoad s d va=if (pteAt s d va).p=true ∧ (pteAt s d va).u=true then view s d va else none := by
  unfold userLoad view pteAt
  cases walkpgdir s d va with
  | none => simp [Pte.zero]
  | some l =>
    by_cases hpu : (s.pte l).p=true ∧ (s.pte l).u=true
    · simp [hpu,Pte.frame]
    · simp only [hpu,if_false]

lemma Writable.userLoad (h : Writable s d lo hi) (hlo : lo≤va) (hhi : va<hi) :
    Vm.userLoad s d va=some (bytes s d va) := by
  have hw:=h va hlo hhi
  simp only [Pte.userWritable,Bool.and_eq_true] at hw
  rw [userLoad_eq,if_pos hw.1,bytes,view,Pte.frame,if_pos hw.1.1]
  rfl

structure Opens (s s' : Uvm) (d a newsz : ℕ) : Prop where
  below : ∀ va<kernbase,va<a → pteAt s' d va=pteAt s d va
  mapped : ∀ va<kernbase,a≤va → pgrounddown va<newsz → (pteAt s' d va).userWritable=true

lemma Opens.done (s : Uvm) (d : ℕ) (ha : a%pgsize=0) (hle : newsz≤a) : Opens s s d a newsz := by
  refine ⟨fun _ _ _ => rfl,fun va _ hva hlast => ?_⟩
  have := (pgrounddown_lt ha).mp (hlast.trans_le hle)
  omega

lemma Opens.cons {f : ℕ} {s1 : Uvm} (hd : d∈D) (ha : a%pgsize=0)
    (hm : MapsNew D s s1 d a ⟨f,true,true,true,false⟩ fun _ => 0)
    (h : Opens s1 s' d (a+pgsize) newsz) : Opens s s' d a newsz := by
  have hpage : ∀ va,va/pgsize=a/pgsize ↔ a≤va ∧ va<a+pgsize := by
    simp only [pgsize] at *
    omega
  refine ⟨fun va hk hva => ?_,fun va hk hva hin => ?_⟩
  · rw [h.below va hk (by omega),hm.pte d hd va hk,if_neg fun hc => ?_]
    have := (hpage va).mp hc.2
    omega
  by_cases hsame : va<a+pgsize
  · rw [h.below va hk hsame,hm.pte d hd va hk,if_pos ⟨rfl,(hpage va).mpr ⟨hva,hsame⟩⟩]
    rfl
  · exact h.mapped va hk (by omega) hin

lemma allocRun_opens {oldsz r : ℕ} (hrun : AllocRun L c D d oldsz newsz a s r s') (hd : d∈D)
    (ha : a%pgsize=0) (hr : r≠0) : r=newsz ∧ Opens s s' d a newsz := by
  induction hrun with
  | done hle => exact ⟨rfl,.done _ d ha hle⟩
  | noPage => exact absurd rfl hr
  | noTable => exact absurd rfl hr
  | page _ _ _ _ _ _ hm _ ih =>
    obtain ⟨hnew,hop⟩:=ih (by rw [add_mod_right,ha]) hr
    exact ⟨hnew,hop.cons hd ha hm⟩

lemma allocuvm_opens {base r : ℕ} (hd : d∈D) (hbase : base%pgsize=0) (h : UvmInv L D [] s)
    (hrun : allocuvm L c s d base newsz=some (r,s')) (hr : r≠0) : (newsz<base ∧ r=base ∧ s'=s) ∨
      (base≤newsz ∧ newsz<kernbase ∧ r=newsz ∧ Writable s' d base newsz) := by
  rcases h.allocuvm_cases hd hrun with ⟨-,rfl,-⟩ | hsmall | ⟨hlt,hle,-,-,hrun⟩
  · exact absurd rfl hr
  · exact .inl hsmall
  have hround : pgroundup base=base := by
    simp only [pgroundup,pgrounddown,pgsize,wordMod,kernbase] at *
    omega
  rw [hround] at hrun
  obtain ⟨hnew,hop⟩:=allocRun_opens hrun hd hbase hr
  refine .inr ⟨hle,hlt,hnew,fun va hlo hhi => ?_⟩
  exact hop.mapped va (by omega) hlo ((div_mul_le_self ..).trans_lt hhi)

lemma hidePages_keeps (pages : List ℕ) (h : UvmInv L D [] s) (hx : Excl D D s) (hd : d∈D)
    (hlo : lo%pgsize=0) (hpages : ∀ p∈pages,p<lo) (hr : hidePages d pages s=some s') :
    UvmInv L D [] s' ∧ Excl D D s' ∧ ∀ va<kernbase,lo≤va → pteAt s' d va=pteAt s d va := by
  induction pages generalizing s with
  | nil =>
    cases hr
    exact ⟨h,hx,fun _ _ _ => rfl⟩
  | cons p rest ih =>
    rw [hidePages] at hr
    have hrest : ∀ p'∈rest,p'<lo := fun p' hp' => hpages p' (mem_cons_of_mem _ hp')
    split at hr
    · exact ih h hx hrest hr
    rename_i hk
    obtain ⟨s1,hs,hr⟩:=Option.bind_eq_some_iff.mp hr
    obtain ⟨hi,hx1,-,hpte⟩:=markPteu_keeps h hx hd (not_le.mp hk) hs
    obtain ⟨hi',hx',hpte'⟩:=ih hi hx1 hrest hr
    refine ⟨hi',hx',fun va hva hle => ?_⟩
    rw [hpte' va hva hle,hpte va hva]
    have := hpages p (mem_cons_self ..)
    simp only [pgsize] at *
    omega

lemma copyoutFrame_of_writable (h : UvmInv L D P s) (hx : Excl D D s) (hd : d∈D) (hva : va<kernbase)
    (hw : (pteAt s d va).userWritable=true) : copyoutFrame L c s none d va=some (some (pteAt s d va).pa,s) := by
  simp only [Pte.userWritable,Bool.and_eq_true] at hw
  obtain ⟨⟨hp,hu⟩,hw⟩:=hw
  obtain ⟨l,hl,he,hsl⟩:=h.slotAt_of_present hd hva hp
  have hwalk:=walkpgdir_of_slotAt h hd hva hl
  have hpe : s.pte l.loc=pteAt s d va := he
  have hsane : (pteAt s d va).sane=true := he ▸ hx.sane (hl.isTable hd hva)
  have hpos:=mapped_pos_iff.mpr ⟨l,hsl⟩
  have hval:=h.paValid (h.user (pteAt s d va).pa (by omega)).1
  have hallow : ¬ (¬ vmAddrspaceAllowsUserVa none va=true ∨ kernbase≤va) := by
    rw [not_or,not_not,not_le]
    exact ⟨rfl,hva⟩
  have hpres : copyoutPresent L c s none d va=some (true,s) := by
    simp only [copyoutPresent,hwalk,hpe,hp,if_true]
  rw [copyoutFrame,if_neg hallow,hpres,some_bind]
  simp [hwalk,hpe,hp,hsane,hu,hval,hw]

lemma copyoutLoop_writable (hd : d∈D) (hk : hi≤kernbase) (fuel va : ℕ) (buf : List UInt8)
    (h : UvmInv L D P s) (hx : Excl D D s) (hacc : Writable s d va hi) (hfit : va+buf.length≤hi)
    (hfuel : buf.length<fuel) :
    ∃ page,copyoutLoop L c none d fuel va buf s=some ((true,buf.length),{s with page := page}) := by
  induction fuel generalizing s va buf with
  | zero => omega
  | succ fuel ih =>
    rw [copyoutLoop]
    by_cases hnil : buf=[]
    · rw [if_pos hnil,hnil]
      exact ⟨s.page,rfl⟩
    rw [if_neg hnil]
    have hlen : 0<buf.length := length_pos_iff.mpr hnil
    have hsame : pteAt s d (pgrounddown va)=pteAt s d va :=
      pteAt_same_page (by omega) ((Nat.div_mul_le_self ..).trans_lt (by omega)) (Nat.mul_div_cancel _ (by decide))
    have hw:=hacc va le_rfl (by omega)
    rw [← hsame] at hw
    have hdown:=pgrounddown_le va
    dsimp only
    rw [copyoutFrame_of_writable h hx hd (by omega) hw,some_bind]
    dsimp only
    generalize hn : min (pgsize-(va-pgrounddown va)) buf.length=n
    have hoff:=lt_pgrounddown_add va
    rw [next_page (by omega)]
    obtain ⟨page1,hpage⟩ : ∃ page,writeBytes s (pteAt s d (pgrounddown va)).pa (va-pgrounddown va)
        (buf.take n) = {s with page := page} := ⟨_,rfl⟩
    rw [hpage]
    by_cases hlast : n=buf.length
    · -- the last page: nothing is left to copy
      rw [hlast,drop_length]
      cases fuel with
      | zero => omega
      | succ fuel =>
        exact ⟨page1,rfl⟩
    obtain ⟨page,heq⟩:=ih (s := {s with page := page1}) (pgrounddown va+pgsize) (buf.drop n) (h.setPages _) hx
      (fun va' hlo hhi => hacc va' (by omega) hhi) (by rw [length_drop]; omega)
      (by rw [length_drop]; omega)
    have hsum : n+(buf.length-n)=buf.length := by omega
    rw [heq,some_bind,length_drop,hsum]
    exact ⟨page,rfl⟩

variable {buf : List UInt8}

lemma copyout_writable (hd : d∈D) (hk : hi≤kernbase) (h : UvmInv L D [] s)
    (hx : Excl D D s) (hacc : Writable s d va hi) (hfit : va+buf.length≤hi) :
    ∃ page,copyout L c s none d va buf=some ((true,buf.length),{s with page := page}) ∧
      Copied D s {s with page := page} d va buf.length buf := by
  obtain ⟨page,heq⟩:=copyoutLoop_writable (c := c) hd hk (buf.length+1) va buf h hx hacc hfit (lt_succ_self _)
  obtain ⟨ok,n,s',heq',-,-,-,-,hc⟩ := UvmInv.copyoutLoop none hd c (buf.length+1) va buf h hx (lt_succ_self _)
  rw [heq] at heq'
  cases heq'
  exact ⟨page,heq,hc⟩

lemma copyout_low {cur : Option AddressSpace} {n : ℕ} (hbuf : buf≠[])
    (hr : copyout L c s cur d va buf=some ((true,n),s')) : pgrounddown va<kernbase := by
  by_contra hk
  have hframe : copyoutFrame L c s cur d (pgrounddown va)=some (none,s) := by
    rw [copyoutFrame,if_pos (.inr (not_lt.mp hk))]
  rw [copyout,copyoutLoop,if_neg hbuf] at hr
  simp only [hframe,some_bind,Option.some.injEq,Prod.mk.injEq] at hr
  cases hr.1.1

end

end Auxv6.Exec
