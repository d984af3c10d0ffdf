import Auxv6.Fs.TmpfsNames

/-!
# Renaming across devices (core/sysfile.c)

`sys_rename` of two paths once both parents are found, on different devices. The nodes of every tmpfs are in
one memory: `fs` has them, and the mount data and the inodes of the new parent's device. `V` is
what the ext2 and FAT volumes hold.
-/

namespace Auxv6.Fs.Rename
open Tmpfs

inductive FsType where
  | ext2 | msdos | tmpfs
  deriving DecidableEq

/-- `addr` is `addrs[0]`: the node on tmpfs, the first cluster on FAT, 0 on ext2 (`vfs_ext2.c:1273`). -/
structure Parent where
  dev : ℕ
  type : FsType
  addr : ℕ

variable {V : Type}

/-- The test of `ext2_rename` (`vfs_ext2.c:2697`) and of `msdos_rename` (`vfs_msdosfs.c:2885`);
`rest` is what they do on one device. -/
def volumeRename (rest : Mount × V → Option (ℤ × Mount × V)) (olddp newdp : Parent) (w : Mount × V) :
    Option (ℤ × Mount × V) :=
  if olddp.dev≠newdp.dev then some (-1,w) else rest w

def finish (fs : Mount) (srcdir dstdir : NodeId) (oldname newname : Name) (p : NodeId)
    (page page' : Bool) : ℤ × Mount :=
  (if (direntAdd fs dstdir newname p page).isSome then 0 else -1,attach fs srcdir dstdir oldname newname p page page')

/-- `vfs_tmpfs.c:985-1025`; `none` where `dstdir` is read and is not a node. -/
def tmpfsRename (fs : Mount) (srcdir dstdir : NodeId) (oldname newname : Name) (page page' : Bool) :
    Option (ℤ × Mount) :=
  if srcdir=0 ∨ dstdir=0 then some (-1,fs)
  else match direntRemove fs srcdir oldname with
    | none => some (-1,fs)
    | some (p,fs) =>
      if dstdir∉fs.live then none
      else match direntLookup (fs.node dstdir) newname with
        | none => some (finish fs srcdir dstdir oldname newname p page page')
        | some exist =>
          if (fs.node exist.node).type=.dir ∨ (fs.node p).type=.dir then
            some (-1,restore fs srcdir oldname p page')
          else match direntRemove fs dstdir newname with
            | none => some (finish fs srcdir dstdir oldname newname p page page')
            | some (replace,fs) =>
              some (finish (unlinkNode fs replace) srcdir dstdir oldname newname p page page')

def isDots (name : Name) : Prop := name=[dot] ∨ name=[dot,dot]
  deriving Decidable

/-- `sysfile.c:1297-1349`; `access` says whether `iaccess` allows both. -/
def sysRename (rest : Mount × V → Option (ℤ × Mount × V)) (olddp newdp : Parent) (oldname newname : Name)
    (access page page' : Bool) (w : Mount × V) : Option (ℤ × Mount × V) :=
  if isDots oldname ∨ isDots newname ∨ access=false then some (-1,w)
  else match olddp.type with
    | .tmpfs => (tmpfsRename w.1 olddp.addr newdp.addr oldname newname page page').map
        fun r => (r.1,r.2,w.2)
    | .ext2 | .msdos => volumeRename rest olddp newdp w

structure Unchanged (fs fs' : Mount) : Prop where
  names : ∀ p∈fs.live,∀ name,direntLookup (fs'.node p) name=direntLookup (fs.node p) name
  nlink : ∀ p∈fs.live,(fs'.node p).nlink=(fs.node p).nlink
  used : fs'.usedBytes=fs.usedBytes

def Refused (r : Option (ℤ × Mount × V)) (w : Mount × V) : Prop := ∃ fs',r=some (-1,fs',w.2) ∧ Unchanged w.1 fs'

/-- The entry `de`, which `tmpfs_rename` takes out before it fails, goes back. -/
def PutBack (fs : Mount) (dstdir : NodeId) (newname : Name) (de : Dirent) (page page' : Bool) : Prop :=
  dstdir∈fs.live ∧ page'=true ∧ match direntLookup (fs.node dstdir) newname with
    | none => page=false
    | some exist => (fs.node exist.node).type=.dir ∨ (fs.node de.node).type=.dir

/-- No entry is found on a tmpfs, or it is put back. -/
def Stays (fs : Mount) (olddp newdp : Parent) (oldname newname : Name) (access page page' : Bool) : Prop :=
  olddp.type=.tmpfs → ¬ (isDots oldname ∨ isDots newname ∨ access=false) → newdp.addr≠0 →
    ∀ de,direntLookup (fs.node olddp.addr) oldname=some de → PutBack fs newdp.addr newname de page page'

def Fits (name : Name) : Prop := name.length≠0 ∧ name.length≤nameMax
  deriving Decidable

variable {fs fs' : Mount} {nd : Node} {name oldname newname : Name} {de : Dirent} {p src dst : NodeId}
  (page page' : Bool)

lemma dir_of_lookup (h : DirOk nd) (hl : direntLookup nd name=some de) : nd.type=.dir := by
  by_contra hne
  obtain ⟨hmem,-⟩:=h.lookup_mem hl
  rw [h.leaf hne] at hmem
  cases hmem
lemma lookup_removed (h : DirOk nd) (name : Name) : direntLookup (nd.removeDirent name) name=none := by
  cases hl : direntLookup (nd.removeDirent name) name with
  | none => rfl
  | some de => exact absurd rfl (h.lookup_remove hl).2

lemma lookup_readd (h : DirOk nd) (hl : direntLookup nd name=some de) (n : Name) :
    direntLookup ((nd.removeDirent name).addDirent ⟨name,de.node⟩) n=direntLookup nd n := by
  have hdir:=dir_of_lookup h hl
  have hnew : direntLookup _ (Dirent.mk name de.node).name=none := lookup_removed h name
  have hadd:=(h.remove name).add hdir hnew
  obtain ⟨-,rfl⟩:=h.lookup_mem hl
  rw [hadd.lookup]
  show List.find? _ (de::nd.children.eraseP _)=_
  rw [eraseP_name h.nodup]
  by_cases hn : de.name=n
  · subst hn
    rw [List.find?_cons_of_pos (by simp),hl]
  rw [List.find?_cons_of_neg (by simpa using hn),List.find?_filter,h.lookup]
  congr 1
  funext e
  by_cases he : e.name=n
  · simp [he,Ne.symm hn]
  · simp [he]

lemma direntRemove_eq (h : DirOk (fs.node p)) (hl : direntLookup (fs.node p) name=some de) :
    direntRemove fs p name=some (de.node,fs.modify p (·.removeDirent name)) := by
  unfold direntRemove
  rw [← h.lookup name,hl]

lemma direntAdd_eq (hname : Fits name) (hl : direntLookup (fs.node dst) name=none) : direntAdd fs dst name p page =
      if page then some (fs.modify dst (·.addDirent ⟨name,p⟩)) else none := by
  unfold direntAdd
  rw [if_neg (by have := hname.1; have := hname.2; omega),hl]
  cases page <;> rfl

lemma restore_node (hne : dst≠src) : (restore fs src oldname p page').node dst=fs.node dst := by
  unfold restore
  cases hadd : direntAdd fs src oldname p page' with
  | none => rfl
  | some fs' =>
    obtain ⟨-,rfl⟩:=direntAdd_cases hadd
    exact modify_ne fs hne (·.addDirent ⟨oldname,p⟩)

/-- Once the entry is taken out, only putting it back undoes that. -/
lemma unchanged_restore (hdir : DirOk (fs.node src)) (hsrc : src∈fs.live)
    (hname : Fits oldname) (hl : direntLookup (fs.node src) oldname=some de) :
    Unchanged fs (restore (fs.modify src (·.removeDirent oldname)) src oldname de.node page') ↔ page'=true := by
  have hnone : direntLookup ((fs.modify src (·.removeDirent oldname)).node src) oldname=none := by
    rw [modify_self]
    exact lookup_removed hdir oldname
  unfold restore
  rw [direntAdd_eq _ hname hnone]
  cases page' with
  | false =>
    refine iff_of_false (fun hu => ?_) (by decide)
    have hsame:=hu.names src hsrc oldname
    rw [hl] at hsame
    cases hnone.symm.trans hsame
  | true =>
    rw [if_pos rfl,Option.getD_some]
    refine iff_of_true ⟨fun q _ n => ?_,fun q _ => ?_,rfl⟩ rfl
    · by_cases hq : q=src
      · subst hq
        rw [modify_self,modify_self]
        exact lookup_readd hdir hl n
      · rw [modify_ne _ hq,modify_ne _ hq]
    · rw [modify_field _ Node.nlink rfl,modify_field _ Node.nlink rfl]

lemma tmpfsRename_refused (hdirs : ∀ p∈fs.live,DirOk (fs.node p)) (hsrc : src∈fs.live) (h0 : src≠0)
    (hdst : dst≠0) (hne : dst≠src) (hold : Fits oldname) (hnew : Fits newname)
    (hl : direntLookup (fs.node src) oldname=some de) :
    (∃ fs',tmpfsRename fs src dst oldname newname page page'=some (-1,fs') ∧ Unchanged fs fs') ↔
      PutBack fs dst newname de page page' := by
  have hback:=unchanged_restore page' (hdirs src hsrc) hsrc hold hl
  have hnode : (fs.modify src (·.removeDirent oldname)).node dst=fs.node dst := modify_ne fs hne _
  have htype : ∀ q,((fs.modify src (·.removeDirent oldname)).node q).type=(fs.node q).type :=
    modify_field fs Node.type rfl
  unfold tmpfsRename PutBack
  rw [if_neg (not_or.mpr ⟨h0,hdst⟩),direntRemove_eq (hdirs src hsrc) hl]
  dsimp only
  rw [hnode]
  by_cases hlive : dst∈fs.live
  swap
  · simp [hlive,Mount.modify]
  rw [if_neg (show ¬ dst∉(fs.modify src _).live from fun h => h hlive)]
  simp only [htype]
  cases hex : direntLookup (fs.node dst) newname with
  | none =>
    dsimp only [finish,attach]
    rw [direntAdd_eq _ hnew (hnode ▸ hex)]
    cases page <;> simp [hlive,hback]
  | some exist =>
    dsimp only
    split_ifs with hd
    · simp [hlive,hback,hd]
    rw [direntRemove_eq (hnode ▸ hdirs dst hlive) (hnode ▸ hex)]
    -- The new name is gone whether the entry gets it or not.
    refine iff_of_false ?_ (fun h => hd h.2.2)
    generalize hfs : fs.modify src (·.removeDirent oldname)=fs1 at hnode
    have hne' : dst≠exist.node := by
      rintro rfl
      exact hd (.inl (dir_of_lookup (hdirs _ hlive) hex))
    have hgone : direntLookup ((unlinkNode (fs1.modify dst (·.removeDirent newname))
        exist.node).node dst) newname=none := by
      rw [((unlinkNode_frame _ _).2 dst hne').1,modify_self,hnode]
      exact lookup_removed (hdirs dst hlive) newname
    dsimp only [finish,attach]
    rw [direntAdd_eq _ hnew hgone]
    rintro ⟨fs',hr,hu⟩
    cases page with
    | true => simp at hr
    | false =>
      obtain rfl : restore _ src oldname de.node page'=fs' := by simpa using hr
      have hsame:=hu.names dst hlive newname
      rw [restore_node _ hne,hex] at hsame
      cases hgone.symm.trans hsame

/-- A rename to another device is refused, except that `tmpfs_rename` does not look at the devices:
of an entry it finds, exactly if the entry is put back. -/
theorem rename_across_devices (rest : Mount × V → Option (ℤ × Mount × V)) (olddp newdp : Parent)
    (oldname newname : Name) (access page page' : Bool) (fs : Mount) (v : V)
    (hdev : olddp.dev≠newdp.dev) (hdirs : ∀ p∈fs.live,DirOk (fs.node p))
    (hsrc : olddp.type=.tmpfs → olddp.addr∈fs.live ∧ olddp.addr≠0 ∧ newdp.addr≠olddp.addr)
    (hold : Fits oldname) (hnew : Fits newname) :
    Refused (sysRename rest olddp newdp oldname newname access page page' (fs,v)) (fs,v) ↔
      Stays fs olddp newdp oldname newname access page page' := by
  have hsame : Refused (some (-1,fs,v)) (fs,v) := ⟨fs,rfl,⟨fun _ _ _ => rfl,fun _ _ => rfl,rfl⟩⟩
  unfold sysRename Stays
  split_ifs with hrefuse
  · exact iff_of_true hsame fun _ h => absurd hrefuse h
  cases htype : olddp.type with
  | ext2 | msdos =>
    dsimp only [volumeRename]
    rw [if_pos hdev]
    exact iff_of_true hsame (by simp)
  | tmpfs =>
    obtain ⟨hlive,h0,hne⟩:=hsrc htype
    by_cases hdst : newdp.addr=0
    · rw [tmpfsRename,if_pos (.inr hdst)]
      exact iff_of_true hsame fun _ _ h => absurd hdst h
    cases hl : direntLookup (fs.node olddp.addr) oldname with
    | none =>
      simp only [tmpfsRename,direntRemove,hl]
      rw [if_neg (not_or.mpr ⟨h0,hdst⟩)]
      exact iff_of_true hsame (by simp)
    | some de =>
      have h:=tmpfsRename_refused page page' hdirs hlive h0 hdst hne hold hnew hl
      simpa [Refused,hrefuse,hdst] using h

/-- The nodes 1 and 2 are the roots of two mounts, and 1 has the entry `x`. -/
def twoMounts : Mount where
  maxBytes := 0
  usedBytes := 0
  nextInum := 4
  root := 2
  live := {1,2,3}
  node p:=
    let l:=if p=1 then [⟨[120],3⟩] else []
    ⟨p,.dir,1,0,0,l,fun h => l.filter fun de => nameHash de.name=h,[],[]⟩
  cache _:=⟨0,false,.dir,0,0,none⟩

theorem rename_across_devices_ext2 : Refused (sysRename (fun _ => none) ⟨1,.tmpfs,1⟩ ⟨2,.ext2,0⟩
    [120] [121] true true true (twoMounts,())) (twoMounts,()) := by
  refine (rename_across_devices _ _ _ _ _ _ _ _ _ _ (by decide) (fun p _ => ?_) (fun _ => by decide)
    (by decide) (by decide)).mpr fun _ _ h => absurd rfl h
  refine ⟨?_,fun _ => rfl,fun h => absurd rfl h⟩
  by_cases hp : p=1 <;> simp [twoMounts,hp]

/-- `x` moves from one tmpfs to the other. -/
theorem rename_between_tmpfs : ¬ Refused (sysRename (fun _ => none) ⟨1,.tmpfs,1⟩ ⟨2,.tmpfs,2⟩
    [120] [121] true true true (twoMounts,())) (twoMounts,()) := by
  rintro ⟨fs',hr,-⟩
  have hmoved : _=some (-1 : ℤ) := congrArg (Option.map Prod.fst) hr
  exact absurd hmoved (by decide)

end Auxv6.Fs.Rename
