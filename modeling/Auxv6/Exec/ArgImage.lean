import Auxv6.Exec.StackPages

/-!
# The argument image

The strings go downwards from the top of the stack, and the table of words below the last one.
-/

namespace Auxv6.Exec
open Machine Vm Lib Lib.ByteMemory List Option Nat

def userWord (load : ℕ → Option UInt8) (va : ℕ) : Option ℕ := do
  let b0 ← load va
  let b1 ← load (va+1)
  let b2 ← load (va+2)
  let b3 ← load (va+3)
  some (b0.toNat+2^8*b1.toNat+2^16*b2.toNat+2^24*b3.toNat)

abbrev Region := ℕ × ℕ

def Region.Apart (r r' : Region) : Prop := r.1+r.2≤r'.1 ∨ r'.1+r'.2≤r.1
def stringRegions (args : List CStr) (ptrs : List ℕ) : List Region :=
  zipWith (fun p arg => (p,arg.val.length+1)) ptrs args

/-- The four words at `esp`, the arrays `argv` and `envp` with their null words, and the strings. -/
def argRegions (esp argv envp : ℕ) (args : List CStr) (ptrs : List ℕ) : List Region :=
  (esp,16)::(argv,4*(args.length+1))::(envp,4)::stringRegions args ptrs

/-- `load` finds at `esp` the arguments `args` and an empty environment, in `[bot, top)`. -/
structure ArgImage (load : ℕ → Option UInt8) (bot top esp argv envp : ℕ) (args : List CStr)
    (ptrs : List ℕ) : Prop where
  returnPc : userWord load esp=some 0xffffffff
  argc : userWord load (esp+4)=some args.length
  argvWord : userWord load (esp+8)=some argv
  envpWord : userWord load (esp+12)=some envp
  length : ptrs.length=args.length
  pointer : ∀ i p,ptrs[i]? = some p → p≠0 ∧ userWord load (argv+4*i)=some p
  null : userWord load (argv+4*args.length)=some 0
  string : ∀ (i p : ℕ) (arg : CStr),ptrs[i]? = some p → args[i]? = some arg →
    ∀ k≤arg.val.length,load (p+k)=some ((arg.val++[0]).getD k 0)
  noEnviron : userWord load envp=some 0
  apart : (argRegions esp argv envp args ptrs).Pairwise Region.Apart
  inside : ∀ r∈argRegions esp argv envp args ptrs,bot≤r.1 ∧ r.1+r.2≤top

section

variable {L : Mem.Layout} {D : Set ℕ} {s s' : Uvm} {d lo hi sp top : ℕ} {c : Fin ncpu} {args : List CStr}
  {ptrs : List ℕ} {m m' : Bytes}

variable {esp i base sz : ℕ}

lemma ArgImage.congr {load load' : ℕ → Option UInt8} {bot top argv envp k : ℕ}
    (h : ArgImage load bot top esp argv envp args ptrs) (htop : top≤k)
    (hload : ∀ va<k,load' va=load va) : ArgImage load' bot top esp argv envp args ptrs := by
  have hword : ∀ va,va+4≤top → userWord load' va=userWord load va := by
    intro va hva
    rw [userWord,userWord,hload va (by omega),hload (va+1) (by omega),hload (va+2) (by omega),hload (va+3) (by omega)]
  have hhead:=(h.inside _ (mem_cons_self ..)).2
  have hargv:=(h.inside (argv,4*(args.length+1)) (by simp [argRegions])).2
  have henvp:=(h.inside (envp,4) (by simp [argRegions])).2
  refine ⟨?_,?_,?_,?_,h.length,fun i p hp => ⟨(h.pointer i p hp).1,?_⟩,?_,
    fun i p arg hp harg j hj => ?_,?_,h.apart,h.inside⟩
  · rw [hword _ (by omega),h.returnPc]
  · rw [hword _ (by omega),h.argc]
  · rw [hword _ (by omega),h.argvWord]
  · rw [hword _ (by omega),h.envpWord]
  · have hi:=(List.getElem?_eq_some_iff.mp hp).1
    have hlen:=h.length
    rw [hword _ (by omega),(h.pointer i p hp).2]
  · rw [hword _ (by omega),h.null]
  · have hmem : (p,arg.val.length+1)∈argRegions esp argv envp args ptrs := by
      have hz : (stringRegions args ptrs)[i]? = some (p,arg.val.length+1) := by
        rw [stringRegions,List.getElem?_zipWith,hp,harg]
      simp [argRegions,mem_of_getElem? hz]
    have hstr:=(h.inside _ hmem).2
    rw [hload _ (by omega),h.string i p arg hp harg j hj]
  · rw [hword _ (by omega),h.noEnviron]

def StringAt (m : Bytes) (p : ℕ) (str : List UInt8) : Prop := ∀ k ≤ str.length,m (p+k)=(str++[0]).getD k 0

inductive Stacked (m : Bytes) : ℕ → List CStr → List ℕ → ℕ → Prop
  | nil (top : ℕ) : Stacked m top [] [] top
  | cons {top p sp : ℕ} {arg : CStr} {args : List CStr} {ptrs : List ℕ} (hfit : p+arg.val.length+1≤top)
      (hstr : StringAt m p arg.val) (hrest : Stacked m p args ptrs sp) :
      Stacked m top (arg::args) (p::ptrs) sp

section
variable (h : Stacked m top args ptrs sp)
include h

lemma Stacked.le : sp≤top := by
  induction h with
  | nil top => exact le_rfl
  | cons hfit _ _ ih => omega
lemma Stacked.length : ptrs.length=args.length := by
  induction h with
  | nil top => rfl
  | cons _ _ _ ih => rw [length_cons,length_cons,ih]

lemma Stacked.congr (hm : ∀ va,sp≤va → va<top → m' va=m va) : Stacked m' top args ptrs sp := by
  induction h with
  | nil top => exact .nil top
  | cons hfit hstr hrest ih =>
    have hle:=hrest.le
    refine .cons hfit (fun k hk => ?_) (ih fun va h1 h2 => hm va h1 (by omega))
    rw [hm _ (by omega) (by omega),hstr k hk]

lemma Stacked.pointer {p : ℕ} (hp : p∈ptrs) : sp≤p ∧ p<top := by
  induction h with
  | nil top => cases hp
  | cons hfit _ hrest ih =>
    have hle:=hrest.le
    rcases mem_cons.mp hp with rfl | hp
    · omega
    · have := ih hp
      omega

lemma Stacked.string {p : ℕ} {arg : CStr} (hp : ptrs[i]? = some p)
    (harg : args[i]? = some arg) : sp≤p ∧ p+arg.val.length+1≤top ∧ StringAt m p arg.val := by
  induction h generalizing i with
  | nil top => cases hp
  | cons hfit hstr hrest ih =>
    have hle:=hrest.le
    cases i with
    | zero =>
      cases hp
      cases harg
      exact ⟨hle,hfit,hstr⟩
    | succ i =>
      obtain ⟨h1,h2,h3⟩:=ih hp harg
      exact ⟨h1,by omega,h3⟩

lemma Stacked.inside {r : Region} (hr : r∈stringRegions args ptrs) : sp≤r.1 ∧ r.1+r.2≤top := by
  induction h with
  | nil top => cases hr
  | cons hfit _ hrest ih =>
    have hle:=hrest.le
    rcases mem_cons.mp hr with rfl | hr
    · exact ⟨hle,by dsimp only; omega⟩
    · have := ih hr
      omega

lemma Stacked.apart : (stringRegions args ptrs).Pairwise Region.Apart := by
  induction h with
  | nil top => exact List.Pairwise.nil
  | cons hfit _ hrest ih => exact List.Pairwise.cons (fun r hr => .inr (hrest.inside hr).2) ih

end

def ustackMax : ℕ := (6+execArgcMax)*4

structure Room (p : Push) (lo hi : ℕ) : Prop where
  argBytes : p.argBytes≤execArgBytesMax
  argc : p.ptrs.length≤execArgcMax
  low : lo+(execArgBytesMax-p.argBytes)+3*(execArgcMax-p.ptrs.length)+ustackMax≤p.sp
  high : p.sp≤hi

structure Pushing (L : Mem.Layout) (D : Set ℕ) (s : Uvm) (d lo hi : ℕ) : Prop where
  inv : UvmInv L D [] s
  excl : Excl D D s
  dir : d∈D
  acc : Writable s d lo hi
  high : hi<kernbase

lemma Pushing.setPage (h : Pushing L D s d lo hi) (page : ℕ → ℕ → UInt8) :
    Pushing L D {s with page := page} d lo hi :=
  ⟨⟨h.inv.good,h.inv.dir,h.inv.table,h.inv.inj,h.inv.user⟩,h.excl,h.dir,h.acc,h.high⟩

lemma Pushing.copyout (h : Pushing L D s d lo hi) (va : ℕ) (buf : List UInt8) (hlo : lo≤va)
    (hfit : va+buf.length≤hi) : ∃ page,Vm.copyout L c s none d va buf=some ((true,buf.length),{s with page := page}) ∧
      ∀ va'<kernbase,bytes {s with page := page} d va' =
        if va≤va' ∧ va'<va+buf.length then buf.getD (va'-va) 0 else bytes s d va' := by
  obtain ⟨page,heq,hc⟩:=copyout_writable (c := c) h.dir h.high.le h.inv h.excl (h.acc.mono hlo le_rfl) hfit
  refine ⟨page,heq,fun va' hva' => ?_⟩
  rw [hc d h.dir va' hva']
  exact if_congr (by simp only [true_and]) rfl rfl

variable {o : Option Push} {p : Push}

lemma pushArg_spec {arg : CStr} (h : Pushing L D s d lo hi) (hroom : Room p lo hi)
    (hr : pushArg L c d p arg s=some (o,s')) : ∃ page,s' = {s with page := page} ∧ ∀ p',o=some p' →
      Room p' lo hi ∧ p'.ptrs=p.ptrs++[p'.sp] ∧ p'.sp+arg.val.length+1≤p.sp ∧
      StringAt (bytes s' d) p'.sp arg.val ∧ ∀ va<kernbase,p.sp≤va → bytes s' d va=bytes s d va := by
  have hlen:=arg.2.2
  have hb:=hroom.argBytes
  have hlow:=hroom.low
  have hhigh:=hroom.high
  have hk:=h.high
  unfold pushArg at hr
  dsimp only at hr
  by_cases hc : execArgcMax≤p.ptrs.length
  · rw [if_pos hc] at hr
    cases hr
    exact ⟨s.page,rfl,(fun p' hp' => by cases hp')⟩
  rw [if_neg hc] at hr
  have hadd : uintAdd p.argBytes (arg.val.length+1)=p.argBytes+(arg.val.length+1) :=
    uintAdd_of_lt (by simp only [execArgBytesMax,wordMod] at *; omega)
  rw [hadd] at hr
  by_cases hmax : p.argBytes+(arg.val.length+1)<p.argBytes ∨ execArgBytesMax<p.argBytes+(arg.val.length+1)
  · rw [if_pos hmax] at hr
    cases hr
    exact ⟨s.page,rfl,(fun p' hp' => by cases hp')⟩
  rw [if_neg hmax] at hr
  have hsub : uintSub p.sp (arg.val.length+1)=p.sp-(arg.val.length+1) :=
    uintSub_of_le (by omega) (by simp only [wordMod,kernbase] at *; omega)
  rw [hsub] at hr
  generalize hsp : (p.sp-(arg.val.length+1))/4*4=sp at hr
  have hbuf : (arg.val++[0]).length=arg.val.length+1 := by simp
  obtain ⟨page,heq,hbytes⟩:=h.copyout (c := c) sp (arg.val++[0]) (by omega) (by rw [hbuf]; omega)
  rw [heq,some_bind] at hr
  cases hr
  refine ⟨page,rfl,fun p' hp' => ?_⟩
  cases hp'
  refine ⟨⟨?_,?_,?_,?_⟩,rfl,?_,fun k hk => ?_,fun va hva hle => ?_⟩
  · dsimp only
    omega
  · dsimp only
    rw [length_append,length_singleton]
    omega
  · dsimp only
    rw [length_append,length_singleton]
    omega
  · dsimp only
    omega
  · dsimp only
    omega
  · dsimp only
    rw [hbytes _ (by omega),if_pos (by omega),Nat.add_sub_cancel_left]
  · rw [hbytes va hva,if_neg (by omega)]

lemma pushArgs_spec (h : Pushing L D s d lo hi) (hroom : Room p lo hi)
    (hr : pushArgs L c d args p s=some (o,s')) : ∃ page,s' = {s with page := page} ∧ ∀ p',o=some p' →
      Room p' lo hi ∧ ∃ ptrs,p'.ptrs=p.ptrs++ptrs ∧ Stacked (bytes s' d) p.sp args ptrs p'.sp ∧
      ∀ va<kernbase,p.sp≤va → bytes s' d va=bytes s d va := by
  induction args generalizing p s with
  | nil =>
    cases hr
    refine ⟨s'.page,rfl,fun p' hp' => ?_⟩
    cases hp'
    exact ⟨hroom,[],(append_nil _).symm,.nil _,fun _ _ _ => rfl⟩
  | cons arg args ih =>
    obtain ⟨⟨o1,s1⟩,hs,hr⟩:=bind_eq_some_iff.mp hr
    obtain ⟨page1,rfl,hpush⟩:=pushArg_spec h hroom hs
    cases o1 with
    | none =>
      cases hr
      exact ⟨page1,rfl,(fun p' hp' => by cases hp')⟩
    | some p1 =>
      obtain ⟨hroom1,hptrs1,hfit,hstr,hkeep⟩:=hpush p1 rfl
      obtain ⟨page,hs',hrest⟩:=ih (h.setPage page1) hroom1 hr
      refine ⟨page,hs',fun p' hp' => ?_⟩
      obtain ⟨hroom',ptrs,hptrs,hst,hkeep'⟩:=hrest p' hp'
      have hhigh:=hroom.high
      have hk:=h.high
      refine ⟨hroom',p1.sp::ptrs,?_,.cons hfit (fun k hk' => ?_) hst,fun va hva hle => ?_⟩
      · rw [hptrs,hptrs1,append_assoc]
        rfl
      · rw [hkeep' _ (by omega) (by omega),hstr k hk']
      · rw [hkeep' va hva (by omega),hkeep va hva hle]

lemma userWord_of_writable {va : ℕ} (hacc : Writable s d lo hi) (hlo : lo≤va) (hhi : va+4≤hi) :
    userWord (userLoad s d) va=some (load32 (bytes s d) va) := by
  have hload : ∀ k<4,userLoad s d (va+k)=some (bytes s d (va+k)) := fun k hk => hacc.userLoad (by omega) (by omega)
  have h0:=hload 0 (by decide)
  rw [add_zero] at h0
  simp only [userWord,h0,hload 1 (by decide),hload 2 (by decide),hload 3 (by decide),load32]
  rfl

lemma ustackWords_lt {w : ℕ} (hptrs : ∀ p∈ptrs,p<2^32) (hlen : ptrs.length<2^32)
    (hw : w∈ustackWords base ptrs) : w<2^32 := by
  have hmod : ∀ a b,uintAdd a b<2^32 := fun a b => mod_lt _ (by decide)
  simp only [ustackWords,mem_append,mem_cons,not_mem_nil,or_false] at hw
  rcases hw with (rfl | rfl | rfl | rfl) | hw | rfl | rfl
  · decide
  · exact hlen
  · exact hmod ..
  · exact hmod ..
  · exact hptrs w hw
  · decide
  · decide

lemma ustackWords_ptr (base : ℕ) {p : ℕ} (hp : ptrs[i]? = some p) : (ustackWords base ptrs)[4+i]? = some p := by
  obtain ⟨hi,-⟩:=List.getElem?_eq_some_iff.mp hp
  rw [ustackWords,List.getElem?_append_right (by simp),List.getElem?_append_left (by simpa using hi)]
  simpa using hp

lemma ustackWords_null (base : ℕ) (ptrs : List ℕ) (hi : i<2) :
    (ustackWords base ptrs)[4+ptrs.length+i]? = some 0 := by
  rw [ustackWords,getElem?_append_right (by simp; omega),getElem?_append_right (by simp; omega)]
  have hidx : 4+ptrs.length+i - [0xffffffff,ptrs.length,uintAdd base (4*4),
      uintAdd base ((5+ptrs.length)*4)].length-ptrs.length=i := by
    simp
    omega
  rw [hidx]
  rcases i with _ | _ | i
  · rfl
  · rfl
  · omega

lemma Stacked.argImage (hst : Stacked (bytes s d) top args ptrs sp) (hacc : Writable s d lo top)
    (hlo : lo≤base) (hpos : 0<base) (hbase : base+(6+args.length)*4=sp) (htop : top<kernbase)
    (hwords : ∀ j<4*(6+args.length),bytes s d (base+j) = ((ustackWords base ptrs).flatMap le32).getD j 0) :
    ArgImage (userLoad s d) lo top base (base+16) (base+(5+args.length)*4) args ptrs := by
  have hlen:=hst.length
  have hle:=hst.le
  have hwlen : (ustackWords base ptrs).length=6+args.length := by
    simp only [ustackWords,length_append,length_cons,length_nil,hlen]
    omega
  have hptr : ∀ p∈ptrs,p<2^32 := fun p hp => by
    have := (hst.pointer hp).2
    simp only [kernbase] at *
    omega
  have hword : ∀ i w,(ustackWords base ptrs)[i]? = some w → userWord (userLoad s d) (base+4*i)=some w := by
    intro i w hi
    have hlt:=(List.getElem?_eq_some_iff.mp hi).1
    rw [userWord_of_writable hacc (by omega) (by omega),load32_flatMap (hwlen.symm ▸ hwords) hi
      (ustackWords_lt hptr (by simp only [kernbase] at *; omega) (mem_of_getElem? hi))]
  have hargv : uintAdd base (4*4)=base+16 := uintAdd_of_lt (by simp only [kernbase,wordMod] at *; omega)
  have henvp : uintAdd base ((5+ptrs.length)*4)=base+(5+args.length)*4 := by
    rw [hlen]
    exact uintAdd_of_lt (by simp only [kernbase,wordMod] at *; omega)
  refine ⟨hword 0 _ rfl,?_,?_,?_,hlen,fun i p hp => ⟨?_,?_⟩,?_,fun i p arg hp harg k hk => ?_,?_,?_,?_⟩
  · rw [← hlen]
    exact hword 1 _ rfl
  · rw [← hargv]
    exact hword 2 _ rfl
  · rw [← henvp]
    exact hword 3 _ rfl
  · have := (hst.pointer (mem_of_getElem? hp)).1
    omega
  · have := hword _ _ (ustackWords_ptr base hp)
    rwa [mul_add,← add_assoc] at this
  · have := hword _ _ (ustackWords_null base ptrs (i := 0) (by decide))
    rwa [add_zero,mul_add,← add_assoc,hlen] at this
  · obtain ⟨h1,h2,hstr⟩:=hst.string hp harg
    rw [hacc.userLoad (by omega) (by omega),hstr k hk]
  · have := hword _ _ (ustackWords_null base ptrs (i := 1) (by decide))
    rwa [hlen,show base+4*(4+args.length+1)=base+(5+args.length)*4 by omega] at this
  · refine .cons (fun r hr => ?_) (.cons (fun r hr => ?_) (.cons (fun r hr => ?_) hst.apart))
    · rcases mem_cons.mp hr with rfl | hr
      · exact .inl le_rfl
      rcases mem_cons.mp hr with rfl | hr
      · exact .inl (by dsimp only; omega)
      · exact .inl (by have := (hst.inside hr).1; dsimp only; omega)
    · rcases mem_cons.mp hr with rfl | hr
      · exact .inl (by dsimp only; omega)
      · exact .inl (by have := (hst.inside hr).1; dsimp only; omega)
    · exact .inl (by have := (hst.inside hr).1; dsimp only; omega)
  · intro r hr
    rcases mem_cons.mp hr with rfl | hr
    · exact ⟨hlo,by dsimp only; omega⟩
    rcases mem_cons.mp hr with rfl | hr
    · exact ⟨by dsimp only; omega,by dsimp only; omega⟩
    rcases mem_cons.mp hr with rfl | hr
    · exact ⟨by dsimp only; omega,by dsimp only; omega⟩
    · have := hst.inside hr
      omega

lemma Pushing.table (h : Pushing L D s d lo hi) (hst : Stacked (bytes s d) hi args ptrs sp)
    (hlo : lo≤base) (hpos : 0<base) (hbase : base+(6+args.length)*4=sp) : ∃ n page,
      Vm.copyout L c s none d base ((ustackWords base ptrs).flatMap le32) = some ((true,n),{s with page := page}) ∧
      ArgImage (userLoad {s with page := page} d) lo hi base (base+16) (base+(5+args.length)*4) args ptrs := by
  have hlen:=hst.length
  have hle:=hst.le
  have hk:=h.high
  have hbuf : ((ustackWords base ptrs).flatMap le32).length=4*(6+args.length) := by
    rw [length_flatMap_le32]
    simp only [ustackWords,length_append,length_cons,length_nil,hlen]
    omega
  obtain ⟨page,heq,hbytes⟩:=h.copyout (c := c) base ((ustackWords base ptrs).flatMap le32) hlo (by rw [hbuf]; omega)
  have hst' : Stacked (bytes {s with page := page} d) hi args ptrs sp := by
    refine hst.congr fun va h1 h2 => ?_
    rw [hbytes va (by omega),if_neg (by omega)]
  refine ⟨_,page,heq,hst'.argImage h.acc hlo hpos hbase hk fun j hj => ?_⟩
  rw [hbytes _ (by omega),if_pos (by omega),Nat.add_sub_cancel_left]

lemma Room.start (hsz : userStackPages*pgsize ≤ sz) : Room ⟨0,sz,[]⟩ (sz-userStackPages*pgsize) sz := by
  refine ⟨zero_le _,zero_le _,?_,le_rfl⟩
  simp only [execArgBytesMax,execArgcMax,ustackMax,userStackPages,pgsize,length_nil] at *
  omega
lemma Room.table (h : Room p lo hi) : lo+(6+p.ptrs.length)*4≤p.sp := by
  have hlow:=h.low
  have hargc:=h.argc
  simp only [ustackMax] at hlow
  omega

lemma pushImage_spec (h : UvmInv L D [] s) (hx : Excl D D s) (hd : d∈D)
    (hacc : Writable s d (sz-userStackPages*pgsize) sz) (hlo : userStackPages*pgsize<sz)
    (hhi : sz<kernbase) (hr : pushImage L c d sz args s=some (some esp,s')) :
    UvmInv L D [] s' ∧ Excl D D s' ∧ esp<kernbase ∧ ∃ argv envp ptrs,
      ArgImage (userLoad s' d) (sz-userStackPages*pgsize) sz esp argv envp args ptrs := by
  obtain ⟨r,m,heq,hk⟩:=h.kalloc c
  rw [pushImage,heq,some_bind] at hr
  rcases hk with ⟨rfl,-⟩ | ⟨f,rfl,hi,hf⟩
  · cases hr
  obtain ⟨⟨o,s1⟩,hs,hr⟩:=bind_eq_some_iff.mp hr
  have hpush : Pushing L D {s with mem := m} d (sz-userStackPages*pgsize) sz :=
    ⟨UvmInv.forget hi hf.mapped,hx,hd,hacc,hhi⟩
  obtain ⟨page1,rfl,hargs⟩:=pushArgs_spec hpush (Room.start hlo.le) hs
  cases o with
  | none =>
    obtain ⟨_,-,heq'⟩:=map_eq_some_iff.mp hr
    cases heq'
  | some p =>
    obtain ⟨hroom,ptrs,hptrs,hst,-⟩:=hargs p rfl
    rw [nil_append] at hptrs
    have hroom':=hroom.table
    have htop:=hst.le
    have hlen:=hst.length
    dsimp only at hr htop
    have hsub : uintSub p.sp ((6+p.ptrs.length)*4)=p.sp-(6+p.ptrs.length)*4 :=
      uintSub_of_le (by omega) (by simp only [kernbase,wordMod] at *; omega)
    rw [hsub] at hr
    generalize hbase : p.sp-(6+p.ptrs.length)*4=base at hr
    rw [hptrs,hlen] at hbase hroom'
    rw [hptrs] at hr
    obtain ⟨n,page,heq2,himg⟩:=(hpush.setPage page1).table (c := c) hst
      (show sz-userStackPages*pgsize≤base by omega) (by omega) (by omega)
    rw [heq2,some_bind] at hr
    obtain ⟨s2,hkf,hr⟩:=bind_eq_some_iff.mp hr
    have hi2 : UvmInv L D [f] {s with mem := m,page := page} := ⟨hi.good,hi.dir,hi.table,hi.inj,hi.user⟩
    obtain ⟨m',hkf',hi'⟩:=hi2.kfree c
    rw [hkf'] at hkf
    cases hkf
    cases hr
    exact ⟨hi',hx,by omega,_,_,ptrs,himg⟩

lemma copyout_below {va n : ℕ} {buf : List UInt8} (hbuf : buf≠[]) (len : ℕ) (hlen : len≤pgsize)
    (hlo : 2*pgsize ≤ sz) (hsz : sz<wordMod) (hva : uintSub sz len≤va+3)
    (hr : Vm.copyout L c s none d va buf=some ((true,n),s')) : sz<kernbase+3*pgsize := by
  have hlow:=copyout_low hbuf hr
  rw [uintSub_of_le (by omega) hsz] at hva
  have hpage:=lt_pgrounddown_add va
  have hsmall : 3<pgsize := by decide
  omega

lemma pushImage_low (hlo : 2*pgsize ≤ sz) (hsz : sz<wordMod)
    (hr : pushImage L c d sz args s=some (some esp,s')) : sz<kernbase+3*pgsize := by
  obtain ⟨⟨_ | f,s1⟩,-,hr⟩:=bind_eq_some_iff.mp hr
  · cases hr
  obtain ⟨⟨o,s2⟩,hs,hr⟩:=bind_eq_some_iff.mp hr
  cases args with
  | nil =>
    cases hs
    obtain ⟨⟨⟨ok,n⟩,s3⟩,hcopy,hr⟩:=bind_eq_some_iff.mp hr
    obtain ⟨_,-,hr⟩:=bind_eq_some_iff.mp hr
    cases ok with
    | false => cases hr
    | true =>
      exact copyout_below (by simp [ustackWords,le32]) ((6+0)*4) (by decide) hlo hsz (Nat.le_add_right ..) hcopy
  | cons arg rest =>
    obtain ⟨⟨o1,s3⟩,hs1,hs⟩:=bind_eq_some_iff.mp hs
    cases o1 with
    | none =>
      cases hs
      obtain ⟨_,-,heq⟩:=map_eq_some_iff.mp hr
      cases heq
    | some p =>
      unfold pushArg at hs1
      dsimp only at hs1
      split at hs1
      · cases hs1
      split at hs1
      · cases hs1
      rename_i hmax
      obtain ⟨⟨⟨ok,n⟩,s4⟩,hcopy,hs1⟩:=bind_eq_some_iff.mp hs1
      cases ok with
      | false => cases hs1
      | true =>
        rw [uintAdd_of_lt (by simp only [wordMod]; omega)] at hmax
        refine copyout_below (by simp) (arg.val.length+1) ?_ hlo hsz (by omega) hcopy
        simp only [execArgBytesMax,pgsize] at hmax ⊢
        omega

end

end Auxv6.Exec
