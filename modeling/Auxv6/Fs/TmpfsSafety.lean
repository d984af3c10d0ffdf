import Auxv6.Fs.TmpfsCalls
import Auxv6.Lib.Transition

/-! # Tree and accounting of a mounted tmpfs -/

namespace Auxv6.Fs.Tmpfs
open Lib Lib.ParentTree Lib.Transition List Option Finset Nat Transition

def Sound (s : Sys) : Action → Prop
  | .openFile path target creat _ _ _ _ _ _ _ => (∀ t∈target,Plain s.fs t false) ∧
      (creat=true → Plain s.fs path true ∧ s.fs.nextInum+1<2^32)
  | .mkdir path _ _ _ => Plain s.fs path true ∧ s.fs.nextInum+1<2^32
  | .link old new _ _ => Plain s.fs old false ∧ Plain s.fs new true ∧
      ∀ r∈tmpfsWalk s.fs old false,(s.fs.node r.1).nlink<2^15-1
  | .symlink target path _ _ _ => Plain s.fs path true ∧ s.fs.nextInum+1<2^32 ∧ s.fs.usedBytes+target.length<2^32
  | .remove path _ _ => Plain s.fs path true ∧ LastKnown s.held s.fs path
  | .rename old new _ _ page' => Plain s.fs old true ∧ Plain s.fs new true ∧
      Movable s.fs old new ∧ LastKnown s.held s.fs new ∧ page'=true
  | .truncate path _ _ => Plain s.fs path false
  | .ftruncate _ _ _ => True
  | .write i src off _ _ => ∀ p∈(s.fs.cache i).node,(s.fs.node p).size<word (off+src.length) →
      s.fs.usedBytes+(word (off+src.length)-(s.fs.node p).size)<2^32
  | .close _ => True

variable {s t : Sys}

lemma step_inv {a : Action} (h : Inv [] s.held s.fs) (hok : Sound s a) (hs : step s a=some t) :
    Inv [] t.held t.fs := by
  have hspare : ∀ {page},¬ s.fs.spare page=false → ∀ p∈page,p∉s.fs.live := fun hp => by
    unfold Mount.spare at hp
    simpa using hp
  cases a
  case openFile path target creat trunc write rdonly access file page dirPage =>
    obtain ⟨hp,hs⟩:=ite_none_left_eq_some.mp hs
    split at hs
    · rename_i ho
      cases hs
      exact sysOpen_inv h hok.1 (hspare hp) hok.2 ho
    · rename_i ho
      cases hs
      exact sysOpen_inv h hok.1 (hspare hp) hok.2 ho
  case mkdir path type page dirPage =>
    obtain ⟨hp,hs⟩:=ite_none_left_eq_some.mp hs
    cases hs
    unfold sysMkdir
    split
    · rename_i hc
      exact create_inv h hok.1 (hspare fun hc => hp (.inl hc)) hok.2 hc
    · rename_i hc
      exact (create_inv h hok.1 (hspare fun hc => hp (.inl hc)) hok.2 hc).iput
  case link old new access page =>
    cases hs
    exact sysLink_inv h hok.1 hok.2.1 hok.2.2
  case symlink target path page text dirPage =>
    obtain ⟨hp,hs⟩:=ite_none_left_eq_some.mp hs
    cases hs
    exact sysSymlink_inv h hok.1 (hspare hp) hok.2.1 hok.2.2
  case remove path dironly access =>
    obtain ⟨fs,hr,rfl⟩:=map_eq_some_iff.mp hs
    exact removePath_inv h hok.1 hok.2 hr
  case rename old new access page page' =>
    cases hs
    obtain ⟨hold,hnew,hmove,hlast,rfl⟩:=hok
    exact sysRename_inv h hold hnew hmove hlast
  case truncate path len access =>
    cases hs
    exact sysTruncate_inv h hok
  case ftruncate i len access =>
    obtain ⟨hi,hs⟩:=ite_none_right_eq_some.mp hs
    cases hs
    exact sysFtruncate_inv h hi
  case write i src off alloc copied =>
    obtain ⟨hi,hs⟩:=ite_none_right_eq_some.mp hs
    cases hs
    exact tmpfsWrite_inv h hi alloc copied hok
  case close i =>
    obtain ⟨hi,hs⟩:=ite_none_right_eq_some.mp hs
    cases hs
    exact (h.perm (perm_cons_erase hi)).iput

variable {data : List Byte}

lemma parseSize_lt {size : ℕ} (h : parseSize data=some size) : size<2^32 := by
  obtain ⟨-,h⟩:=ite_none_left_eq_some.mp h
  obtain ⟨-,h⟩:=ite_none_left_eq_some.mp h
  obtain ⟨-,h⟩:=ite_none_left_eq_some.mp h
  cases h
  -- every turn reduces the value
  induction data.drop 5 using reverseRecOn with
  | nil => decide
  | append_singleton l c _ =>
    rw [foldl_append]
    exact mod_lt _ (by decide)

lemma mountInit_inv {page : Option NodeId} (h : mountInit data page=some s) : Inv [] s.held s.fs := by
  unfold mountInit at h
  split at h
  · rename_i size root hsize
    cases h
    have hlive : ∀ {p : NodeId},p∈({root} : Finset NodeId) → p=root := Finset.mem_singleton.mp
    have hroot : root∈({root} : Finset NodeId) := Finset.mem_singleton_self root
    have hone : (1 : ℤ)≠0 := by decide
    have hshort : (1 : ℤ)<2^15 := by decide
    have hnext : 2<2^32 := by decide
    refine ⟨⟨⟨hroot,rfl,hone⟩,fun p _ => ⟨nodup_nil,fun _ => rfl,fun _ => rfl⟩,
      fun d _ de hde => absurd hde not_mem_nil,fun p hp => absurd hp not_mem_nil,fun p hp => ?_,
      fun p _ => hshort,fun p _ _ => le_rfl,fun p _ hne => ?_,fun p hp hne => ?_,fun p hp => ?_,
      fun p _ _ => rfl,rfl⟩,⟨hnext,fun p _ => one_lt_two,fun p hp q hq _ => ?_,fun i hi => ?_,
      fun i => le_rfl,fun p hp h0 => ?_⟩,⟨?_,zero_le _,parseSize_lt hsize,fun p _ => rfl⟩⟩
    · obtain rfl:=hlive hp
      simp [Mount.entries]
    · exact ⟨hroot,rfl,hone⟩
    · exact absurd (hlive hp.1) hne
    · obtain rfl:=hlive hp.1
      exact .root
    · rw [hlive hp,hlive hq]
    · exact absurd hi (lt_irrefl 0)
    · exact absurd h0 hone
    · simp [charge]
  · cases h

inductive Reach (fs : Mount) : NodeId → Prop where
  | root : Reach fs fs.root
  | entry {d : NodeId} {de : Dirent} (hd : Reach fs d) (hde : de∈(fs.node d).children) : Reach fs de.node

structure TmpfsSafe (s : Sys) : Prop where
  kept : ∀ p∈s.fs.live,Reach s.fs p ∨ (s.fs.node p).nlink=0 ∧ (s.fs.node p).inum∈s.held
  nlink : ∀ p∈s.fs.live,(s.fs.node p).nlink=s.fs.entries p+if p=s.fs.root then 1 else 0
  chains : ∀ d∈s.fs.live,∀ h,(s.fs.node d).hash h = (s.fs.node d).children.filter fun de => nameHash de.name=h
  parent : ∀ p,Reach s.fs p → (s.fs.node p).type=.dir → p≠s.fs.root →
    ∀ d∈s.fs.live,(∃ de∈(s.fs.node d).children,de.node=p) ↔ (s.fs.node p).parent=d
  used : s.fs.usedBytes = ∑ p∈s.fs.live with (s.fs.node p).type=.file ∨ (s.fs.node p).type=.symlink,(s.fs.node p).size
  quota : s.fs.usedBytes ≤ s.fs.maxBytes

variable {fs : Mount} {p : NodeId}

lemma TreeInv.reach_dir (h : TreeInv [] fs) (hr : Rooted fs.root fs.parent p) (hp : fs.Linked p) : Reach fs p := by
  induction hr with
  | root => exact .root
  | @up q _ ih =>
    by_cases hq : q=fs.root
    · exact hq ▸ .root
    · obtain ⟨de,hde,rfl⟩:=h.holds q hp hq not_mem_nil
      exact .entry (ih (h.parents _ hp hq)) hde

lemma TreeInv.reach (h : TreeInv [] fs) (hp : Named fs p) : Reach fs p := by
  by_cases hdir : (fs.node p).type=.dir
  · exact h.reach_dir (h.rooted p (hp.linked hdir)) (hp.linked hdir)
  have hroot : p≠fs.root := fun heq => hdir (heq ▸ h.root.2.1)
  have hlinks:=h.links p hp.1
  rw [if_neg hroot,count_nil] at hlinks
  have hne : fs.entries p≠0 := fun h0 => hp.2 (by omega)
  obtain ⟨d,hd,hcount⟩:=exists_ne_zero_of_sum_ne_zero hne
  obtain ⟨de,hde,heq⟩:=countP_pos_iff.mp (pos_of_ne_zero hcount)
  have hnil : (fs.node d).children≠[] := ne_nil_of_mem hde
  have hlinked : fs.Linked d := by
    refine ⟨hd,?_,fun h0 => hnil (h.empty d hd h0)⟩
    by_contra hty
    exact hnil ((h.dirs d hd).leaf hty)
  obtain rfl : de.node=p := by simpa using heq
  exact .entry (h.reach_dir (h.rooted d hlinked) hlinked) hde

lemma TreeInv.named_of_reach (h : TreeInv [] fs) (hr : Reach fs p) : Named fs p := by
  induction hr with
  | root => exact ⟨h.root.1,h.root.2.2⟩
  | entry _ hde ih => exact h.entry_named ih.1 hde

lemma Inv.safe (h : Inv [] s.held s.fs) : TmpfsSafe s := by
  refine ⟨fun p hp => ?_,fun p hp => ?_,fun d hd => (h.tree.dirs d hd).hash,fun p hr hdir hroot d hd => ?_,
    ?_,h.quota.quota⟩
  · by_cases h0 : (s.fs.node p).nlink=0
    · exact .inr ⟨h0,count_pos_iff.mp (h.cache.unlinked p hp h0).2⟩
    · exact .inl (h.tree.reach ⟨hp,h0⟩)
  · exact (h.tree.links p hp).trans (Int.add_zero _)
  · refine ⟨fun ⟨de,hde,heq⟩ => ?_,fun heq => ?_⟩
    · subst heq
      exact h.tree.parent_eq hd hde hdir
    · have hp:=h.tree.named_of_reach hr
      rw [← heq]
      exact h.tree.holds p (hp.linked hdir) hroot not_mem_nil
  · rw [h.quota.used,sum_filter]
    rfl

/-- In a run of sound calls on a mounted tmpfs, every node not yet freed is reached or held,
counts, chains, parents and the quota are right. -/
theorem tmpfs_safe {data : List Byte} {page : Option NodeId} {actions : List Action}
    (hm : mountInit data page=some s) (hok : Guarded step Sound s actions)
    (hrun : run step s actions=some t) : TmpfsSafe t :=
  (run_guarded (I := fun s => Inv [] s.held s.fs)
    (fun _ _ _ h hok hs => step_inv h hok hs) (mountInit_inv hm) hok hrun).safe

def sizeOption : List Byte := [115,105,122,101,61,57,57]

abbrev makeDir (path : List Byte) (page : NodeId) : Action := .mkdir path .dir (some page) true
abbrev createFile : Action :=
  .openFile [47,97,47,102] (some [47,97,47,102]) true false true false true true (some 3) true
abbrev writeFile : Action := .write 3 [1,2,3] 0 (fun _ => true) (fun _ => 4096)
abbrev removeFile : Action := .remove [47,97,47,102] false true

instance {path : List Byte} : Decidable (Sound s (makeDir path p)) := inferInstanceAs (Decidable (_ ∧ _))
instance : Decidable (Sound s createFile) := inferInstanceAs (Decidable ((∀ t∈some _,_) ∧ (_ → _)))
instance : Decidable (Sound s writeFile) := inferInstanceAs (Decidable (∀ p∈(s.fs.cache 3).node,_<_ → _<_))
instance : Decidable (Sound s removeFile) := inferInstanceAs (Decidable (_ ∧ _))
instance {i : ℕ} : Decidable (Sound s (.close i)) := .isTrue trivial

abbrev openUnlinkClose : List Action := [makeDir [47,97] 2,createFile,writeFile,removeFile,.close 3]

theorem tmpfs_safe_open_unlink_close : ∃ s t,mountInit sizeOption (some 1)=some s ∧
    run step s openUnlinkClose=some t ∧ t.fs.live = {1,2} ∧ t.fs.usedBytes=0 ∧ TmpfsSafe t := by
  obtain ⟨s,hs,hok,t,ht,hend⟩ : ∃ s,mountInit sizeOption (some 1)=some s ∧ Guarded step Sound s openUnlinkClose ∧
      ∃ t,run step s openUnlinkClose=some t ∧ t.fs.live = {1,2} ∧ t.fs.usedBytes=0 := by
    decide +kernel
  exact ⟨s,t,hs,ht,hend.1,hend.2,tmpfs_safe hs hok ht⟩

def renameBelow : List Action :=
  [makeDir [47,97] 2,makeDir [47,97,47,98] 3,.rename [47,97] [47,97,47,98,47,99] true true true]

theorem rename_below_itself : ∃ s t,mountInit sizeOption (some 1)=some s ∧ run step s renameBelow=some t ∧
    ¬ TmpfsSafe t := by
  obtain ⟨s,hs,t,ht,hlive,hroot,hnil,hlink⟩ : ∃ s,mountInit sizeOption (some 1)=some s ∧
      ∃ t,run step s renameBelow=some t ∧ 2∈t.fs.live ∧ t.fs.root=1 ∧
        (t.fs.node 1).children=[] ∧ (t.fs.node 2).nlink=1 := by
    decide +kernel
  -- nothing but the root is reached
  have honly : ∀ p,Reach t.fs p → p=1 := by
    intro p hp
    induction hp with
    | root => exact hroot
    | entry _ hde ih =>
      rw [ih,hnil] at hde
      exact absurd hde not_mem_nil
  refine ⟨s,t,hs,ht,fun hsafe => ?_⟩
  rcases hsafe.kept 2 hlive with hreach | hfree
  · exact absurd (honly 2 hreach) (by decide)
  · rw [hlink] at hfree
    exact absurd hfree.1 (by decide)

end Auxv6.Fs.Tmpfs
