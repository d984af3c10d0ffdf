import Mathlib.Algebra.BigOperators.Group.List.Basic
import Mathlib.Tactic
import Auxv6.Fs.Log

/-!
# Commit and recovery of the log

At every moment the disk is one recovery away from the state after the committed groups
(`Redo.Covers`).
-/

namespace Auxv6.Fs.Log
open Lib Function List Nat

variable (start size : ℕ) (S0 : ℕ → Block)

def Home (b : ℕ) : Prop := b<start ∨ start+size≤b
def State.stable (s : State) : ℕ → Block := Redo.applyAll s.groups S0
def State.target (s : State) : ℕ → Block := Redo.apply s.cur (s.stable S0)
def onDisk (disk : ℕ → Block) : List (ℕ × Block) :=
  (List.range (disk start 0)).map fun j => (disk start (j+1),disk (start+j+1))
def Op.active (op : Op) : ℕ := match op.stage with
  | .done => 0
  | _ => 1
def Op.spare (op : Op) : ℕ := op.active*(maxOpBlocks-op.logged.card)

structure Quiet (s : State) : Prop where
  ops : ∀ op∈s.ops,op.stage=.done
  outstanding : s.outstanding=0

structure Logged (s : State) : Prop where
  head : s.disk start 0=0
  dirty : ∀ b∈s.header,(s.buf b).dirty=true
  home : ∀ b∈s.header,Home start size b
  keys : ∀ b∈s.cur.map Prod.fst,b∈s.header

structure Open (s : State) : Prop extends Logged start size s where
  idle : s.committing=false
  count : s.outstanding=(s.ops.map Op.active).sum
  logged : ∀ op∈s.ops,op.stage≠.done → ∀ b∈op.logged,b∈s.header
  room : s.n+(s.ops.map Op.spare).sum≤logSize
  fit : ∀ op∈s.ops,∀ b,op.stage=.checked b → (insert b op.logged).card ≤ maxOpBlocks

def PhaseInv (s : State) : Phase → Prop
  | .ready => Open start size s
  | .writeLog tail => Logged start size s ∧ Quiet s ∧ tail ≤ s.n ∧ ∀ j<tail,s.disk (start+j+1)=s.target S0 (s.block j)
  | .install tail _ => Quiet s ∧ s.cur=[] ∧ tail ≤ s.n ∧ s.disk start 0=s.n ∧ (∀ j<s.n,s.disk start (j+1)=s.block j) ∧
      (∀ j<tail,s.disk (s.block j)=s.stable S0 (s.block j)) 
  | .returning => Quiet s ∧ s.cur=[] ∧ s.n=0 ∧ s.disk start 0=0
  | .readHead => Quiet s ∧ s.cur=[] ∧ s.cache=fun _ => none

structure LogInv (s : State) : Prop where
  logArea : ∀ b,¬ Home start size b → (s.buf b).data=s.disk b
  view : ∀ b,Home start size b → s.held b=false →
    (s.buf b).data=s.target S0 b ∨ (s.buf b).data=s.disk b ∧ (s.buf b).dirty=false
  covers : Redo.Covers (Home start size) (onDisk start s.disk) s.disk (s.stable S0)
  headSmall : s.disk start 0≤logSize
  small : s.n≤logSize
  returned : s.returned <+: s.groups
  heldHome : ∀ op∈s.ops,∀ b,op.stage.holds b=true → Home start size b
  committing : s.committing=true ↔ s.phase≠.ready ∧ s.phase.recovering=false
  phase : PhaseInv start size S0 s s.phase

variable {start size S0} {s t : State} {b x tail : ℕ}

@[simp] lemma buf_bread (s : State) (b x : ℕ) : (s.bread b).buf x=s.buf x := by
  unfold State.bread State.buf
  by_cases h : x=b
  · subst h
    simp
  · simp [h]

lemma buf_bwrite (s : State) (b x : ℕ) (data : Block) :
    (s.bwrite b data).buf x=if x=b then ⟨data,false⟩ else s.buf x := by
  unfold State.bwrite State.buf
  by_cases h : x=b
  · subst h
    simp
  · simp [h]

structure Writes (s t : State) (b : ℕ) (data : Block) : Prop where
  disk : t.disk=update s.disk b data
  buf : ∀ x,t.buf x=if x=b then ⟨data,false⟩ else s.buf x

lemma copyBlock_writes (s : State) (src dst : ℕ) : Writes s (copyBlock s src dst) dst (s.buf src).data := by
  unfold copyBlock
  simp only [buf_bread]
  exact ⟨rfl,fun x => by simp only [buf_bwrite,buf_bread]⟩

def headWords (start : ℕ) (s : State) : Block := fun w =>
  if w=0 then s.n else if w ≤ s.n then s.block (w-1) else (s.buf start).data w

lemma writeHead_writes (s : State) : Writes s (writeHead start s) start (headWords start s) := by
  unfold writeHead
  simp only [buf_bread]
  refine ⟨rfl,fun x => ?_⟩
  simp only [buf_bwrite,buf_bread]
  rfl

variable {data : Block}

section
variable (h : Writes s t b data)
include h

lemma Writes.disk_self : t.disk b=data := by
  rw [h.disk,update_self]
lemma Writes.disk_ne (hx : x≠b) : t.disk x=s.disk x := by
  rw [h.disk,update_of_ne hx]
lemma Writes.buf_ne (hx : x≠b) : t.buf x=s.buf x := by
  rw [h.buf,if_neg hx]
lemma Writes.agree (hx : (s.buf x).data=s.disk x) : (t.buf x).data=t.disk x := by
  by_cases hb : x=b
  · subst hb
    rw [h.buf,if_pos rfl,h.disk_self]
  · rw [h.buf_ne hb,h.disk_ne hb,hx]

end

lemma not_home_start (hsize : logSize<size) : ¬ Home start size start := by
  unfold Home
  omega
lemma not_home_slot (hsize : logSize<size) {j : ℕ} (hj : j<logSize) : ¬ Home start size (start+j+1) := by
  unfold Home
  omega
lemma Home.ne {a : ℕ} (ha : Home start size a) (hb : ¬ Home start size b) : a≠b := fun h => hb (h ▸ ha)
lemma Quiet.held (h : Quiet s) (b : ℕ) : s.held b=false := by
  rw [State.held,any_eq_false]
  intro op hop
  rw [h.ops op hop]
  simp [Stage.holds]
lemma mem_header : b∈s.header ↔ ∃ j<s.n,s.block j=b := by
  simp [State.header]

variable {disk : ℕ → Block}

lemma onDisk_empty (h : disk start 0=0) : onDisk start disk=[] := by
  simp [onDisk,h]
lemma LogInv.home_stable (h : LogInv start size S0 s) (hd : s.disk start 0=0) :
    ∀ b,Home start size b → s.disk b=s.stable S0 b :=
  h.covers.done (by simp [onDisk_empty hd])

lemma LogInv.data_target (h : LogInv start size S0 s) (hl : Logged start size s)
    (hb : Home start size b) (hh : s.held b=false) : (s.buf b).data=s.target S0 b := by
  rcases h.view b hb hh with hv | ⟨hv,hd⟩
  · exact hv
  · have hn : b∉s.cur.map Prod.fst := fun hm => by simp [hl.dirty b (hl.keys b hm)] at hd
    rw [hv,State.target,Redo.apply_of_notMem hn]
    exact h.home_stable hl.head b hb

section
variable (hsize : logSize<size) (h : LogInv start size S0 s)
include hsize h

lemma LogInv.writeTurn (hp : s.phase=.writeLog tail) (htail : tail<s.n) :
    LogInv start size S0 { copyBlock s (s.block tail) (start+tail+1) with phase := .writeLog (tail+1) } := by
  have hph:=h.phase
  rw [hp] at hph
  obtain ⟨hl,hq,_,hslots⟩:=hph
  have hw:=copyBlock_writes s (s.block tail) (start+tail+1)
  generalize hu : copyBlock s (s.block tail) (start+tail+1)=u at hw
  have hslot : ¬ Home start size (start+tail+1) := not_home_slot hsize (htail.trans_le h.small)
  have hhead : u.disk start=s.disk start := hw.disk_ne (by omega)
  have hdata:=h.data_target hl (hl.home _ (mem_header.mpr ⟨tail,htail,rfl⟩)) (hq.held _)
  subst hu
  refine ⟨fun b hb => hw.agree (h.logArea b hb),fun b hb hh => ?_,?_,hhead ▸ h.headSmall,h.small,
    h.returned,h.heldHome,?_,⟨⟨hhead ▸ hl.head,fun b hb => ?_,hl.home,hl.keys⟩,
      ⟨hq.ops,hq.outstanding⟩,htail,fun j hj => ?_⟩⟩
  · have hv:=h.view b hb hh
    rw [← hw.buf_ne (hb.ne hslot),← hw.disk_ne (hb.ne hslot)] at hv
    exact hv
  · have hempty : onDisk start (copyBlock s (s.block tail) (start+tail+1)).disk=[] := onDisk_empty (hhead ▸ hl.head)
    refine hempty ▸ Redo.covers_nil fun b hb => ?_
    exact (hw.disk_ne (hb.ne hslot)).trans (h.home_stable hl.head b hb)
  · show s.committing=true ↔ _
    rw [h.committing,hp]
    simp [Phase.recovering]
  · have hd:=hl.dirty b hb
    rw [← hw.buf_ne ((hl.home b hb).ne hslot)] at hd
    exact hd
  · rcases Nat.lt_succ_iff_lt_or_eq.mp hj with hlt | rfl
    · exact (hw.disk_ne (by omega)).trans (hslots j hlt)
    · exact hw.disk_self.trans hdata

lemma LogInv.commitHead
    (hp : s.phase=.writeLog tail) (htail : ¬ tail<s.n) : LogInv start size S0 { writeHead start s with
      phase := .install 0 false,cur := [],groups := s.groups++[s.cur] } := by
  have hph:=h.phase
  rw [hp] at hph
  obtain ⟨hl,hq,hle,hslots⟩:=hph
  have hw : Writes s (writeHead start s) start (headWords start s) := writeHead_writes s
  have hstart : ¬ Home start size start := not_home_start hsize
  have hzero : (writeHead start s).disk start 0=s.n := by
    rw [hw.disk_self]
    rfl
  have hword : ∀ j<s.n,(writeHead start s).disk start (j+1)=s.block j := by
    intro j hj
    rw [hw.disk_self]
    simp [headWords,succ_le_of_lt hj]
  have hstable : Redo.applyAll (s.groups++[s.cur]) S0=s.target S0 := by
    simp [Redo.applyAll,State.target,State.stable]
  have hlog : onDisk start (writeHead start s).disk =
      (List.range s.n).map fun j => (s.block j,s.target S0 (s.block j)) := by
    unfold onDisk
    rw [hzero]
    refine map_congr_left fun j hj => ?_
    have hj : j<s.n := mem_range.mp hj
    rw [hword j hj,hw.disk_ne (by omega),hslots j (by omega)]
  refine ⟨fun b hb => hw.agree (h.logArea b hb),fun b hb _ => .inl ?_,?_,?_,h.small,
    h.returned.trans (prefix_append ..),h.heldHome,?_,?_⟩
  · show ((writeHead start s).buf b).data=Redo.applyAll (s.groups++[s.cur]) S0 b
    rw [hw.buf_ne (hb.ne hstart),hstable]
    exact h.data_target hl hb (hq.held b)
  · show Redo.Covers _ (onDisk start (writeHead start s).disk) (writeHead start s).disk
      (Redo.applyAll (s.groups++[s.cur]) S0)
    rw [hlog,hstable]
    refine Redo.covers_apply (fun b hb => ?_) (fun b hb => ?_) fun e he => ?_
    · exact (hw.disk_ne (hb.ne hstart)).trans (h.home_stable hl.head b hb)
    · obtain ⟨j,hj,rfl⟩:=mem_header.mp (hl.keys b hb)
      exact mem_map.mpr ⟨_,mem_map.mpr ⟨j,mem_range.mpr hj,rfl⟩,rfl⟩
    · obtain ⟨j,hj,rfl⟩:=mem_map.mp he
      exact ⟨hl.home _ (mem_header.mpr ⟨j,mem_range.mp hj,rfl⟩),rfl⟩
  · exact hzero.trans_le h.small
  · show s.committing=true ↔ _
    rw [h.committing,hp]
    simp [Phase.recovering]
  · exact ⟨⟨hq.ops,hq.outstanding⟩,rfl,zero_le _,hzero,hword,fun j hj => by omega⟩

lemma LogInv.installTurn {boot : Bool} (hp : s.phase=.install tail boot) (htail : tail<s.n) :
    LogInv start size S0 { copyBlock s (start+tail+1) (s.block tail) with phase := .install (tail+1) boot } := by
  have hph:=h.phase
  rw [hp] at hph
  obtain ⟨hq,hcur,_,hzero,hword,hdone⟩:=hph
  have hsmall:=h.small
  -- the entry of the log on disk that this turn copies
  have hentry : (s.block tail,s.disk (start+tail+1))∈onDisk start s.disk := by
    refine mem_map.mpr ⟨tail,mem_range.mpr (by omega),?_⟩
    rw [hword tail htail]
  obtain ⟨hhome,hval⟩:=h.covers.entry _ hentry
  have hw:=copyBlock_writes s (start+tail+1) (s.block tail)
  rw [h.logArea _ (not_home_slot hsize (by omega))] at hw
  have harea : ∀ b,¬ Home start size b → (copyBlock s (start+tail+1) (s.block tail)).disk b=s.disk b :=
    fun b hb => hw.disk_ne (hhome.ne hb).symm
  have hhead:=harea start (not_home_start hsize)
  have hlog : onDisk start (copyBlock s (start+tail+1) (s.block tail)).disk=onDisk start s.disk := by
    unfold onDisk
    rw [hhead]
    refine map_congr_left fun j hj => ?_
    have hj : j<s.disk start 0 := mem_range.mp hj
    rw [harea _ (not_home_slot hsize (by omega))]
  refine ⟨fun b hb => hw.agree (h.logArea b hb),fun b hb _ => ?_,?_,hhead ▸ h.headSmall,h.small,
    h.returned,h.heldHome,?_,⟨⟨hq.ops,hq.outstanding⟩,hcur,htail,hhead ▸ hzero,hhead ▸ hword,fun j hj => ?_⟩⟩
  · show ((copyBlock s _ _).buf b).data=s.target S0 b ∨
      ((copyBlock s _ _).buf b).data=(copyBlock s _ _).disk b ∧ ((copyBlock s _ _).buf b).dirty=false
    by_cases hbt : b=s.block tail
    · subst hbt
      rw [hw.buf,if_pos rfl,hw.disk_self]
      exact .inr ⟨rfl,rfl⟩
    · rw [hw.buf_ne hbt,hw.disk_ne hbt]
      exact h.view b hb (hq.held b)
  · show Redo.Covers _ (onDisk start (copyBlock s _ _).disk) (copyBlock s _ _).disk (s.stable S0)
    rw [hlog,hw.disk]
    exact h.covers.install hentry
  · show s.committing=true ↔ _
    rw [h.committing,hp]
    cases boot <;> simp [Phase.recovering]
  · show (copyBlock s _ _).disk (s.block j)=s.stable S0 (s.block j)
    by_cases hjt : s.block j=s.block tail
    · rw [hjt,hw.disk_self]
      exact hval
    rw [hw.disk_ne hjt]
    refine hdone j (Nat.lt_of_le_of_ne (Nat.lt_succ_iff.mp hj) ?_)
    rintro rfl
    exact hjt rfl

end

lemma Quiet.sum_active (h : Quiet s) : (s.ops.map Op.active).sum=0 := by
  refine sum_eq_zero fun x hx => ?_
  obtain ⟨op,hop,rfl⟩:=mem_map.mp hx
  simp [Op.active,h.ops op hop]
lemma Quiet.sum_spare (h : Quiet s) : (s.ops.map Op.spare).sum=0 := by
  refine sum_eq_zero fun x hx => ?_
  obtain ⟨op,hop,rfl⟩:=mem_map.mp hx
  simp [Op.spare,Op.active,h.ops op hop]

lemma Quiet.open_ (hq : Quiet s) (hcur : s.cur=[]) (hn : s.n=0) (hd : s.disk start 0=0)
    (hc : s.committing=false) : Open start size s := by
  have hheader : s.header=[] := by simp [State.header,hn]
  refine ⟨⟨hd,?_,?_,?_⟩,hc,?_,?_,?_,?_⟩
  · simp [hheader]
  · simp [hheader]
  · simp [hcur]
  · rw [hq.sum_active,hq.outstanding]
  · intro op hop hne
    exact absurd (hq.ops op hop) hne
  · rw [hq.sum_spare,hn]
    exact zero_le _
  · intro op hop b hb
    rw [hq.ops op hop] at hb
    cases hb

lemma LogInv.clearHead (hsize : logSize<size) (h : LogInv start size S0 s)
    {boot : Bool} (hp : s.phase=.install tail boot) (htail : ¬ tail<s.n) :
    LogInv start size S0 { writeHead start {s with n := 0} with phase := if boot then .ready else .returning } := by
  have hph:=h.phase
  rw [hp] at hph
  obtain ⟨hq,hcur,hle,hzero,hword,hdone⟩:=hph
  have hstart : ¬ Home start size start := not_home_start hsize
  -- every entry of the log is installed
  have hhome : ∀ b,Home start size b → s.disk b=s.stable S0 b := by
    refine h.covers.done fun e he => ?_
    obtain ⟨j,hj,rfl⟩:=mem_map.mp he
    have hj : j<s.n := hzero ▸ mem_range.mp hj
    rw [(h.covers.entry _ he).2]
    rw [hword j hj]
    exact hdone j (by omega)
  have hw : Writes s (writeHead start {s with n := 0}) start (headWords start {s with n := 0}) :=
    let h:=writeHead_writes {s with n := 0}
    ⟨h.disk,h.buf⟩
  have hclear : (writeHead start {s with n := 0}).disk start 0=0 := by
    rw [hw.disk_self]
    rfl
  have hcommit:=h.committing
  rw [hp] at hcommit
  refine ⟨fun b hb => hw.agree (h.logArea b hb),fun b hb _ => .inl ?_,?_,?_,zero_le _,h.returned,h.heldHome,?_,?_⟩
  · show ((writeHead start {s with n := 0}).buf b).data=s.target S0 b
    rw [hw.buf_ne (hb.ne hstart)]
    rcases h.view b hb (hq.held b) with hv | ⟨hv,_⟩
    · exact hv
    · rw [hv,State.target,hcur]
      exact hhome b hb
  · show Redo.Covers _ (onDisk start (writeHead start _).disk) (writeHead start _).disk (s.stable S0)
    rw [onDisk_empty hclear]
    exact Redo.covers_nil fun b hb => (hw.disk_ne (hb.ne hstart)).trans (hhome b hb)
  · exact hclear.trans_le (zero_le _)
  · show s.committing=true ↔ _
    rw [hcommit]
    cases boot <;> simp [Phase.recovering]
  · cases boot with
    | false => exact ⟨⟨hq.ops,hq.outstanding⟩,hcur,rfl,hclear⟩
    | true =>
      refine Quiet.open_ ⟨hq.ops,hq.outstanding⟩ hcur rfl hclear ?_
      show s.committing=false
      simpa [Phase.recovering] using hcommit

lemma LogInv.finish (h : LogInv start size S0 s) (hp : s.phase=.returning) :
    LogInv start size S0 {s with committing := false,phase := .ready,returned := s.groups} := by
  have hph:=h.phase
  rw [hp] at hph
  obtain ⟨hq,hcur,hn,hd⟩:=hph
  exact ⟨h.logArea,h.view,h.covers,h.headSmall,h.small,prefix_rfl,h.heldHome,
    by simp,Quiet.open_ ⟨hq.ops,hq.outstanding⟩ hcur hn hd rfl⟩

lemma LogInv.readHead (h : LogInv start size S0 s) (hp : s.phase=.readHead) :
    LogInv start size S0 {Log.readHead start s with phase := .install 0 true} := by
  have hph:=h.phase
  rw [hp] at hph
  obtain ⟨hq,hcur,hcache⟩:=hph
  have hhb : ((s.bread start).buf start).data=s.disk start := by
    rw [buf_bread]
    simp [State.buf,hcache]
  have hbuf : ∀ x,(Log.readHead start s).buf x=s.buf x := buf_bread s start
  have hn : (Log.readHead start s).n=s.disk start 0 := congrFun hhb 0
  refine ⟨fun b hb => ?_,fun b hb hh => ?_,h.covers,h.headSmall,hn.trans_le h.headSmall,
    h.returned,h.heldHome,?_,⟨hq.ops,hq.outstanding⟩,hcur,zero_le _,hn.symm,fun j hj => ?_,fun j hj => by omega⟩
  · exact (congrArg Cached.data (hbuf b)).trans (h.logArea b hb)
  · have hv:=h.view b hb hh
    rw [← hbuf b] at hv
    exact hv
  · show s.committing=true ↔ _
    rw [h.committing,hp]
    simp [Phase.recovering]
  · have hj : j<((s.bread start).buf start).data 0 := hj
    show s.disk start (j+1) =
      if j<((s.bread start).buf start).data 0 then ((s.bread start).buf start).data (j+1) else _
    rw [if_pos hj,hhb]

lemma powerOn_logInv {groups returned : List Group}
    (hc : Redo.Covers (Home start size) (onDisk start disk) disk (Redo.applyAll groups S0))
    (hsmall : disk start 0≤logSize) (hr : returned <+: groups) :
    LogInv start size S0 {powerOn disk with groups := groups,returned := returned} :=
  ⟨fun _ _ => rfl,fun _ _ _ => .inr ⟨rfl,rfl⟩,hc,hsmall,zero_le _,hr,
    fun _ hop => (not_mem_nil hop).elim,by simp [powerOn,Phase.recovering],
    ⟨fun _ hop => (not_mem_nil hop).elim,rfl⟩,rfl,rfl⟩

lemma LogInv.advance (hsize : logSize<size) (h : LogInv start size S0 s)
    (hs : Log.advance start s=some t) : LogInv start size S0 t := by
  unfold Log.advance at hs
  split at hs
  next => cases hs
  next tail hp =>
    split_ifs at hs with htail
    · cases hs
      exact h.writeTurn hsize hp htail
    · cases hs
      exact h.commitHead hsize hp htail
  next tail boot hp =>
    by_cases htail : tail<s.n
    · rw [if_pos htail] at hs
      cases hs
      exact h.installTurn hsize hp htail
    · rw [if_neg htail] at hs
      cases hs
      exact h.clearHead hsize hp htail
  next hp =>
    cases hs
    exact h.finish hp
  next hp =>
    cases hs
    exact h.readHead hp

end Auxv6.Fs.Log
