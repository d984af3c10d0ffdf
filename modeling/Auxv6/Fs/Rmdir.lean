import Auxv6.Fs.Ext2.Dirents
import Auxv6.Fs.TmpfsSafety

/-!
# Removing directories on ext2 and tmpfs (core/sysfile.c)

`remove_path(path, 1)` once the parent and the last name are known. It asks `isdirempty`,
which counts the records of the directory by its size, and leaves the removal to the file
system. On tmpfs a directory has size 0; on ext2 its size is that of its blocks.
-/

namespace Auxv6.Fs.Rmdir
open List Tmpfs

open Ext2 (DirData Records Entry direntSize readDirents)

/-- What `remove_path` sees of the inode `inum`: `read` is `inode_dir_read`, which delivers the
number in the record, or not a whole record. -/
structure Target where
  inum : ℕ
  dir : Bool
  nlink : ℤ
  size : ℕ
  read : ℕ → Option ℕ

/-- The loop of `isdirempty` (`sysfile.c:1358-1371`); `none` is its panic. -/
def isdiremptyLoop (t : Target) : ℕ → ℕ → Option Bool
  | 0, _ => some true
  | fuel+1, off =>
    if off<t.size then
      match t.read off with
      | none => none
      | some inum => if inum≠0 then some false else isdiremptyLoop t fuel (off+direntSize)
    else some true

def isdirempty (t : Target) : Option Bool := isdiremptyLoop t t.size (2*direntSize)

lemma isdirempty_of_size {t : Target} (h : t.size=0) : isdirempty t=some true := by
  rw [isdirempty,h]
  rfl

/-- The operations of the file system: the lookup of the name in the parent, which takes a
reference to the inode, the drop of this reference, and `remove`. -/
structure Ops (σ : Type) where
  lookup : σ → Option (Target × σ)
  iput : σ → ℕ → σ
  remove : σ → Option σ

inductive Outcome (σ : Type) where
  | panic
  | returned (ok : Bool) (s : σ)

/-- `remove_path(path, 1)` (`sysfile.c:1373-1448`) from the permission check on; `dots` says that
the name is `.` or `..`. -/
def removeDir {σ : Type} (ops : Ops σ) (access dots : Bool) (s : σ) : Outcome σ :=
  if access=false ∨ dots then .returned false s
  else match ops.lookup s with
    | none => .returned false s
    | some (t,s) =>
      if t.nlink<1 then .panic
      else if t.dir=false then .returned false (ops.iput s t.inum)
      else match isdirempty t with
        | none => .panic
        | some false => .returned false (ops.iput s t.inum)
        | some true =>
          match ops.remove (ops.iput s t.inum) with
          | none => .returned false (ops.iput s t.inum)
          | some s => .returned true s

/-- No panic, 0 is returned exactly if the caller may remove and the directory is empty, and
then the name is gone; otherwise nothing changes in the file system, which is `view`. -/
def Decides {σ β : Type} (view : σ → β) (gone : σ → Prop) (may empty : Prop) (s : σ) : Outcome σ → Prop
  | .panic => False
  | .returned ok t => (ok=true ↔ may ∧ empty) ∧ (ok=true → gone t) ∧ (ok=false → view t=view s)

def dotName : List Ext2.Byte := [46]
def dotdotName : List Ext2.Byte := [46,46]

structure Ext2Dir (d : DirData) (rs : List Entry) : Prop where
  size : 1024≤d.size
  records : Records d 0 rs
  dot : (rs.filter Entry.live).countP (·.name=dotName)=1
  dotdot : (rs.filter Entry.live).countP (·.name=dotdotName)=1

def HoldsNone (rs : List Entry) : Prop := ∀ e∈rs,e.live=true → e.name=dotName ∨ e.name=dotdotName

def ext2Target (d : DirData) (inum : ℕ) (nlink : ℤ) : Target where
  inum := inum
  dir := true
  nlink := nlink
  size := d.size
  read := fun off => match readDirents d off direntSize with
    | some [de] => some de.inum
    | _ => none

variable {d : DirData} {rs : List Entry} {dp : ℕ}

lemma countP_others (l : List Entry) : l.length=l.countP (·.name=dotName)+l.countP (·.name=dotdotName) +
    l.countP fun e => e.name≠dotName ∧ e.name≠dotdotName := by
  have hne : dotName≠dotdotName := by decide
  induction l with
  | nil => rfl
  | cons e l ih =>
    rw [length_cons,ih,countP_cons,countP_cons,countP_cons]
    by_cases h1 : e.name=dotName
    · simp [h1,hne]
      omega
    by_cases h2 : e.name=dotdotName
    · simp [h2,hne.symm]
      omega
    · simp [h1,h2]
      omega

lemma Ext2Dir.third (h : Ext2Dir d rs) : (rs.filter Entry.live).length≤2 ↔ HoldsNone rs := by
  have hcount:=countP_others (rs.filter Entry.live)
  rw [h.dot,h.dotdot] at hcount
  have hzero : (rs.filter Entry.live).length≤2 ↔
      (rs.filter Entry.live).countP (fun e => e.name≠dotName ∧ e.name≠dotdotName)=0 := by omega
  rw [hzero,countP_eq_zero,HoldsNone]
  refine forall_congr' fun e => ?_
  rw [mem_filter,and_imp]
  simp only [decide_eq_true_eq,not_and_or,not_not,ne_eq]

lemma Ext2Dir.isdirempty (h : Ext2Dir d rs) (inum : ℕ) (nlink : ℤ) :
    (HoldsNone rs → Rmdir.isdirempty (ext2Target d inum nlink)=none) ∧
      (¬ HoldsNone rs → Rmdir.isdirempty (ext2Target d inum nlink)=some false) := by
  have hsize:=h.size
  have hread:=h.records.readDirents_eq 2 (by decide)
  obtain ⟨fuel,hfuel⟩ : ∃ k,d.size=k+1 := ⟨d.size-1,by omega⟩
  have hlt : 2*direntSize<(ext2Target d inum nlink).size := lt_of_lt_of_le (by decide) hsize
  rw [Rmdir.isdirempty,show (ext2Target d inum nlink).size=fuel+1 from hfuel,isdiremptyLoop,if_pos hlt,← h.third]
  generalize rs.filter Entry.live=live at hread
  rcases live with _ | ⟨a,_ | ⟨b,_ | ⟨c,live⟩⟩⟩
  · simp [ext2Target,hread]
  · simp [ext2Target,hread]
  · simp [ext2Target,hread]
  have hne : Ext2.visibleInum c.inode≠0 := by
    rw [Ext2.visibleInum]
    split_ifs <;> omega
  simp [ext2Target,hread,Entry.dirent,hne]

open Tmpfs Lib.Transition

/-- `tmpfs_dirlookup`, `iput` and `tmpfs_remove`, and `tmpfs_read` of a directory
(`vfs_tmpfs.c:685-711`). -/
def tmpfsOps (dp : ℕ) (name : Name) : Ops Mount where
  lookup := fun fs => (tmpfsDirlookup fs dp name).map fun (i,fs) =>
    let ip:=fs.cache i
    (⟨i,ip.type=.dir,ip.nlink,ip.size,fun off =>
      if off%direntSize≠0 then none
      else (ip.node.bind fun p => (fs.node p).children[off/direntSize]?).map fun de =>
        (fs.node de.node).inum%2^16⟩,fs)
  iput := iput
  remove := fun fs => tmpfsRemove fs dp name

structure TmpfsDir (fs : Mount) (dp : ℕ) (d : NodeId) (de : Dirent) : Prop where
  node : (fs.cache dp).node=some d
  parent : (fs.node d).type=.dir
  entries : DirOk (fs.node d)
  entry : direntLookup (fs.node d) de.name=some de
  dir : (fs.node de.node).type=.dir
  linked : 1≤(fs.node de.node).nlink
  size : (fs.node de.node).size=0
  below : de.node≠d ∧ (fs.node de.node).inum≠dp

variable {fs : Mount} {p : NodeId} {de : Dirent}

/-- A reference to the directory `p` and a name in it are all that the invariant of the file
system leaves to ask for. -/
lemma TmpfsDir.of_inv {refs : List ℕ} (h : Inv [] refs fs) (hdp : dp∈refs) (hnode : (fs.cache dp).node=some p)
    (hentry : direntLookup (fs.node p) de.name=some de) (hdir : (fs.node de.node).type=.dir) :
    TmpfsDir fs dp p de := by
  obtain ⟨q,hq,hcache,hinum,-⟩:=h.node_of_mem hdp
  obtain rfl : q=p := Option.some.inj (hcache.symm.trans hnode)
  have hok:=h.tree.dirs q hq
  have hmem:=(hok.lookup_mem hentry).1
  have hparent : (fs.node q).type=.dir := by
    by_contra hty
    exact ne_nil_of_mem hmem (hok.leaf hty)
  obtain ⟨hlive,hlink⟩:=h.tree.entry_named hq hmem
  have hlinks:=h.tree.links _ hlive
  have hpos:=entries_pos hq hmem
  -- a directory that names itself would be the root, which no entry names
  have hbelow : de.node≠q := by
    intro heq
    have hup:=h.tree.parent_eq hq hmem hdir
    rw [heq] at hup hlive hlinks hpos
    have hroot:=(h.tree.rooted q ⟨hq,hparent,heq ▸ hlink⟩).eq_root hup
    have honce:=h.tree.once q hq hparent
    rw [if_pos hroot] at hlinks
    omega
  refine ⟨hnode,hparent,hok,hentry,hdir,by omega,?_,hbelow,fun heq => ?_⟩
  · exact (if_pos hdir).symm.trans (h.quota.flat _ hlive)
  · exact hbelow (h.cache.inj _ hlive q hq (heq.trans hinum.symm))

section
variable (h : TmpfsDir fs dp p de)
include h

lemma TmpfsDir.gone : direntLookup ((fs.node p).removeDirent de.name) de.name=none := by
  rw [(h.entries.remove de.name).lookup_eq_none]
  show de.name∉((fs.node p).children.eraseP _).map _
  rw [eraseP_name h.entries.nodup]
  simp

lemma TmpfsDir.remove {fs1 : Mount} (hnode : fs1.node=fs.node) (hcache : (fs1.cache dp).node=some p) :
    ((fs.node de.node).children≠[] → tmpfsRemove fs1 dp de.name=none) ∧
      ((fs.node de.node).children=[] → ∃ fs2,tmpfsRemove fs1 dp de.name=some fs2 ∧
        direntLookup (fs2.node p) de.name=none) := by
  have hfind:=h.entry
  rw [h.entries.lookup] at hfind
  rw [tmpfsRemove,hcache]
  dsimp only
  rw [hnode,if_neg (not_not.mpr h.parent),h.entry]
  refine ⟨fun hne => if_pos ⟨h.dir,hne⟩,fun hempty => ?_⟩
  dsimp only
  rw [if_neg fun hc => hc.2 hempty,direntRemove,hnode,h.entry]
  rw [hfind]
  refine ⟨_,rfl,?_⟩
  have hmake : ∀ fs : Mount,(makeInode fs de.node).node=fs.node := fun _ => rfl
  rw [unlinkNode,(iput_frame _ _).1,hmake,modify_ne _ h.below.1.symm,modify_self,hnode]
  exact h.gone

lemma TmpfsDir.inode : (makeInode fs de.node).cache (fs.node de.node).inum =
    ⟨(fs.cache (fs.node de.node).inum).ref+1,true,.dir,(fs.node de.node).nlink,0,some de.node⟩ := by
  rw [← h.dir,← h.size]
  exact Function.update_self ..

lemma TmpfsDir.iput : (Tmpfs.iput (makeInode fs de.node) (fs.node de.node).inum).node=fs.node ∧
      ((Tmpfs.iput (makeInode fs de.node) (fs.node de.node).inum).cache dp).node=some p := by
  refine ⟨(iput_frame _ _).1,?_⟩
  have hlink:=h.linked
  rw [Tmpfs.iput,if_neg fun hc => by rw [h.inode] at hc; dsimp only at hc; omega]
  simp only [Mount.modifyInode,makeInode,Function.update_of_ne h.below.2.symm]
  exact h.node

lemma TmpfsDir.decides (access dots : Bool) (hdots : dots=decide (de.name=[dot] ∨ de.name=[dot,dot])) :
    Decides Mount.node (fun t => direntLookup (t.node p) de.name=none) (access=true ∧ dots=false)
      ((fs.node de.node).children=[]) fs (removeDir (tmpfsOps dp de.name) access dots fs) := by
  rw [removeDir]
  by_cases hmay : access=false ∨ dots=true
  · rw [if_pos hmay]
    refine ⟨⟨fun hc => (by cases hc),fun hc => ?_⟩,fun hc => (by cases hc),fun _ => rfl⟩
    obtain ⟨⟨rfl,rfl⟩,-⟩:=hc
    rcases hmay with hm | hm <;> cases hm
  rw [not_or,Bool.not_eq_false,Bool.not_eq_true] at hmay
  have hname:=hmay.2
  rw [hdots,decide_eq_false_iff_not,not_or] at hname
  have hlook : tmpfsDirlookup fs dp de.name=some ((fs.node de.node).inum,makeInode fs de.node) := by
    rw [tmpfsDirlookup,h.node]
    dsimp only
    rw [if_neg (not_not.mpr h.parent),if_neg hname.1,if_neg hname.2,h.entry]
  obtain ⟨hnode,hcache⟩:=h.iput
  obtain ⟨hkept,hgone⟩:=h.remove hnode hcache
  rw [if_neg (by simp [hmay])]
  simp only [tmpfsOps,hlook,Option.map_some,h.inode]
  rw [if_neg (not_lt.mpr h.linked),if_neg (by decide),isdirempty_of_size rfl]
  by_cases hempty : (fs.node de.node).children=[]
  · obtain ⟨fs2,heq,hlost⟩:=hgone hempty
    rw [heq]
    exact ⟨⟨fun _ => ⟨hmay,hempty⟩,fun _ => rfl⟩,fun _ => hlost,fun hc => by cases hc⟩
  · rw [hkept hempty]
    exact ⟨⟨(fun hc => by cases hc),fun hc => absurd hc.2 hempty⟩,(fun hc => by cases hc),fun _ => hnode⟩

end

def dirBlock (next : ℕ) (rest : List Ext2.Byte) : DirData :=
  ⟨1024,fun i => ([12,0,0,0,12,0,1,2,46,0,0,0,2,0,0,0,UInt8.ofNat next,UInt8.ofNat (next/256),
    2,2,46,46,0,0]++rest).getD i 0⟩
def dirOps (d : DirData) : Ops Unit := ⟨fun s => some (ext2Target d 12 2,s),fun s _ => s,some⟩
def fileDir : DirData := dirBlock 12 [13,0,0,0,0xE8,3,1,1,97]

lemma fileDir_ok : Ext2Dir fileDir [⟨12,[46]⟩,⟨2,[46,46]⟩,⟨13,[97]⟩] :=
  ⟨le_rfl,.record (by decide) (by decide) (.record (by decide) (by decide) (.record (by decide) (by decide)
    (.done (by decide)))),by decide,by decide⟩

def subdir : Dirent := ⟨[97],1⟩

def oneDir : Mount where
  maxBytes := 10000
  usedBytes := 0
  nextInum := 3
  root := 0
  live := {0,1}
  node := fun p => if p=0 then ⟨1,.dir,1,0,0,[subdir],fun h => [subdir].filter fun de => nameHash de.name=h,[],[]⟩
    else ⟨2,.dir,1,0,0,[],fun _ => [],[],[]⟩
  cache := fun i => ⟨0,true,.dir,1,0,if i=1 then some 0 else none⟩

end Auxv6.Fs.Rmdir
