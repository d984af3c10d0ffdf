import Auxv6.Fs.Ext2.Dirents
import Auxv6.Fs.Tmpfs

/-!
# Listing directories (fs/file.c)

`fileread` of one `struct dirent` after the other. At the root of a mount other than `/` it
makes up records for `.` and `..` and then reads what the file system stores.
-/

namespace Auxv6.Fs.Listing
open List Nat

open Ext2 (DirData Records Entry Dirent direntSize readDirents visibleInum)

inductive Dir where
  | ext2 (d : DirData)
  | tmpfs (fs : Tmpfs.Mount) (dir : Tmpfs.NodeId)

/-- `tmpfs_read` of a directory (`vfs_tmpfs.c:685-711`): the index of a child fits in 32 bits, as
the list is in memory. -/
def tmpfsRead (fs : Tmpfs.Mount) (dir : Tmpfs.NodeId) (off : ℕ) : Option (Option Dirent) :=
  if off%direntSize≠0 then none
  else some ((fs.node dir).children[off/direntSize]?.map fun de =>
    ⟨(fs.node de.node).inum%2^16,de.name.take 255⟩)

def Dir.read : Dir → ℕ → Option (Option Dirent)
  | .ext2 d, off => (readDirents d off direntSize).map head?
  | .tmpfs fs dir, off => tmpfsRead fs dir off
def dot : List UInt8 := [46]
def dotdot : List UInt8 := [46,46]

/-- `fileread` of a record (`file.c:233-328`). `mp` are the inode numbers of the directory and
of its mountpoint if `vfs_mount_crossover` finds one; the offsets are multiples of the size. -/
def fileread (dir : Dir) (mp : Option (ℕ × ℕ)) (off : ℕ) : Option (Option Dirent) :=
  match mp with
  | none => dir.read off
  | some (inum,up) =>
    if off=0 then some (some ⟨visibleInum inum,dot⟩)
    else if off=direntSize then some (some ⟨visibleInum up,dotdot⟩)
    else dir.read (off-2*direntSize)

def listing (dir : Dir) (mp : Option (ℕ × ℕ)) : ℕ → ℕ → Option (List Dirent)
  | 0, _ => none
  | fuel+1, off =>
    match fileread dir mp off with
    | none => none
    | some none => some []
    | some (some r) => (listing dir mp fuel (off+direntSize)).map (r :: ·)

inductive Live : Dir → List Entry → Prop
  | ext2 {d : DirData} {rs : List Entry} : Records d 0 rs → Live (.ext2 d) (rs.filter Entry.live)
  | tmpfs (fs : Tmpfs.Mount) (dir : Tmpfs.NodeId) : Live (.tmpfs fs dir)
      ((fs.node dir).children.map fun de => ⟨(fs.node de.node).inum,de.name⟩)

structure Complete (es : List Entry) (l : List Dirent) : Prop where
  once : ∀ e∈es,(l.map Dirent.name).count e.name=1
  dots : ∀ n ∈ [dot,dotdot],(l.map Dirent.name).count n≤1
  shown : ∀ r∈l,r.name∈es.map Entry.name → r.inum≠0

def Lists (dir : Dir) (mp : Option (ℕ × ℕ)) (es : List Entry) : Prop :=
  ∃ fuel l,listing dir mp fuel 0=some l ∧ Complete es l

/-- No dots of its own at the root of a mount. On ext2 the offsets stay below `2 ^ 32`; on tmpfs
the low 16 bits of the inode numbers are not 0 and the names leave room for the terminator. -/
def Listable (dir : Dir) (mp : Option (ℕ × ℕ)) (es : List Entry) : Prop :=
  (mp≠none → ∀ e∈es,e.name≠dot ∧ e.name≠dotdot) ∧ match dir with
  | .ext2 _ => es.length*direntSize<2^32
  | .tmpfs _ _ => ∀ e∈es,e.inode%2^16≠0 ∧ e.name.length≤255

variable {dir : Dir} {mp : Option (ℕ × ℕ)} {es : List Entry} {l : List Dirent} {K : ℕ}

def made : Option (ℕ × ℕ) → List Dirent
  | none => []
  | some (inum,up) => [⟨visibleInum inum,dot⟩,⟨visibleInum up,dotdot⟩]

lemma fileread_stored (dir : Dir) (mp : Option (ℕ × ℕ)) (j : ℕ) :
    fileread dir mp ((j+(made mp).length)*direntSize)=dir.read (j*direntSize) := by
  cases mp with
  | none => rfl
  | some p =>
    have hoff : (j+2)*direntSize=j*direntSize+2*direntSize := Nat.add_mul ..
    have hpos : direntSize=258 := rfl
    rw [show (made (some p)).length=2 from rfl,fileread,if_neg (by omega),if_neg (by omega),hoff,Nat.add_sub_cancel]

lemma fileread_at (hread : ∀ k<K,dir.read (k*direntSize)=some l[k]?) {j : ℕ}
    (hj : j<K+(made mp).length) : fileread dir mp (j*direntSize)=some (made mp++l)[j]? := by
  rcases Nat.lt_or_ge j (made mp).length with hlt | hge
  · rw [getElem?_append_left hlt]
    match mp, j with
    | some _, 0 => rfl
    | some _, 1 => rfl
  · obtain ⟨k,rfl⟩:=Nat.exists_eq_add_of_le' hge
    rw [fileread_stored,hread k (by omega),getElem?_append_right hge,Nat.add_sub_cancel]

section
variable (h : ∀ j<K,fileread dir mp (j*direntSize)=some l[j]?)
include h

lemma listing_eq (hK : K≤l.length → fileread dir mp (K*direntSize)=none) (fuel : ℕ) {j : ℕ}
    (hj : j≤l.length) (hjK : j≤K) : listing dir mp fuel (j*direntSize) = if l.length<K ∧
      l.length-j<fuel then some (l.drop j) else none := by
  induction fuel generalizing j with
  | zero => rw [if_neg (by omega)]; rfl
  | succ fuel ih =>
    rw [listing]
    rcases lt_or_eq_of_le hjK with hlt | rfl
    · rw [h j hlt]
      rcases lt_or_eq_of_le hj with hl | rfl
      · have hnext:=ih (j := j+1) hl hlt
        rw [add_mul,one_mul] at hnext
        rw [getElem?_eq_getElem hl,drop_eq_getElem_cons hl]
        rw [hnext,if_congr (show _ ↔ l.length<K ∧ l.length-j<fuel+1 by omega) rfl rfl]
        split_ifs <;> rfl
      · simp [hlt]
    · rw [hK hj,if_neg (by omega)]

lemma lists_iff (hK : K≤l.length → fileread dir mp (K*direntSize)=none) :
    Lists dir mp es ↔ l.length<K ∧ Complete es l := by
  have hrun:=fun fuel => listing_eq h hK fuel (zero_le _) (zero_le _)
  simp only [zero_mul,drop_zero] at hrun
  constructor
  · rintro ⟨fuel,l',hl,hc⟩
    rw [hrun] at hl
    split_ifs at hl with hlt
    exact ⟨hlt.1,Option.some.inj hl ▸ hc⟩
  · exact fun ⟨hlt,hc⟩ => ⟨l.length+1,l,by rw [hrun,if_pos ⟨hlt,lt_succ_self _⟩],hc⟩

end

lemma visibleInum_ne_zero (n : ℕ) : visibleInum n≠0 := by
  unfold visibleInum
  split_ifs with h
  · exact one_ne_zero
  · exact h

lemma name_made {r : Dirent} (h : r∈made mp) : r.name=dot ∨ r.name=dotdot := by
  match mp with
  | none => cases h
  | some _ =>
    simp only [made,mem_cons,not_mem_nil,or_false] at h
    rcases h with rfl | rfl
    · exact .inl rfl
    · exact .inr rfl

lemma complete_iff {sh : Entry → Dirent} (hn : (es.map Entry.name).Nodup)
    (hsh : (∀ e,(sh e).name=e.name) ∨ ∀ e,(sh e).name=e.name.take 255) :
    Complete es (made mp++es.map sh) ↔ (mp≠none → ∀ e∈es,e.name≠dot ∧ e.name≠dotdot) ∧
        ∀ e∈es,(sh e).inum≠0 ∧ (sh e).name=e.name := by
  have hsplit : (made mp++es.map sh).map Dirent.name =
      (made mp).map Dirent.name++es.map fun e => (sh e).name := by simp
  constructor
  · intro hc
    have hname : ∀ e∈es,(sh e).name=e.name := by
      rcases hsh with hsh | hsh
      · exact fun e _ => hsh e
      -- no record has a longer name
      intro e he
      have hmem:=count_pos_iff.mp ((hc.once e he).symm ▸ one_pos)
      obtain ⟨r,hr,hre⟩:=mem_map.mp hmem
      rw [hsh,take_of_length_le]
      rw [← hre]
      rcases mem_append.mp hr with hr | hr
      · rcases name_made hr with h | h <;> rw [h] <;> decide
      · obtain ⟨e',-,rfl⟩:=mem_map.mp hr
        rw [hsh]
        exact length_take_le _ _
    refine ⟨fun hmp e he => ?_,fun e he => ⟨hc.shown (sh e) ?_ ?_,hname e he⟩⟩
    · have hone:=hc.once e he
      have hpos : 0<(es.map fun e => (sh e).name).count e.name := count_pos_iff.mpr (mem_map.mpr ⟨e,he,hname e he⟩)
      rw [hsplit,count_append] at hone
      obtain ⟨p,rfl⟩:=Option.ne_none_iff_exists'.mp hmp
      have hmade : (made (some p)).map Dirent.name=[dot,dotdot] := rfl
      have hcount : [dot,dotdot].count dot=1 ∧ [dot,dotdot].count dotdot=1 := by decide
      rw [hmade] at hone
      constructor
      all_goals
        intro heq
        rw [heq] at hone hpos
        omega
    · exact mem_append_right _ (mem_map_of_mem he)
    · rw [hname e he]
      exact mem_map_of_mem he
  rintro ⟨hdots,hshow⟩
  have hnames : (es.map fun e => (sh e).name)=es.map Entry.name := map_congr_left fun e he => (hshow e he).2
  rw [hnames] at hsplit
  have hapart : ∀ n∈(made mp).map Dirent.name,n∉es.map Entry.name := by
    intro n hr hn
    obtain ⟨e,he,rfl⟩:=mem_map.mp hn
    obtain ⟨r,hr,hre⟩:=mem_map.mp hr
    have hmp : mp≠none := by
      rintro rfl
      cases hr
    obtain ⟨h1,h2⟩:=hdots hmp e he
    rcases name_made hr with h | h
    · exact h1 (hre.symm.trans h)
    · exact h2 (hre.symm.trans h)
  have hmade : ((made mp).map Dirent.name).Nodup := by
    cases mp with
    | none => exact nodup_nil
    | some p => exact (by decide : [dot,dotdot].Nodup)
  have hnodup : ((made mp++es.map sh).map Dirent.name).Nodup := by
    rw [hsplit]
    exact hmade.append hn hapart
  refine ⟨fun e he => count_eq_one_of_mem hnodup ?_,fun n _ => nodup_iff_count_le_one.mp hnodup n,fun r hr _ => ?_⟩
  · rw [hsplit]
    exact mem_append_right _ (mem_map_of_mem he)
  rcases mem_append.mp hr with hr | hr
  · cases mp with
    | none => cases hr
    | some p =>
      simp only [made,mem_cons,not_mem_nil,or_false] at hr
      rcases hr with rfl | rfl <;> exact visibleInum_ne_zero _
  · obtain ⟨e,he,rfl⟩:=mem_map.mp hr
    exact (hshow e he).1

lemma ext2_read_at {d : DirData} {rs : List Entry} (hr : Records d 0 rs) {k : ℕ} (hk : k<16647161) :
    (Dir.ext2 d).read (k*direntSize)=some ((rs.filter Entry.live).map Entry.dirent)[k]? := by
  have hlt : k*direntSize<2^32 := by
    simp only [direntSize]
    omega
  rw [Dir.read,hr.readDirents_eq k hlt,Option.map_some,head?_map,head?_take,head?_drop,getElem?_map]
  rfl

lemma tmpfs_read_at (fs : Tmpfs.Mount) (dir : Tmpfs.NodeId) (k : ℕ) :
    (Dir.tmpfs fs dir).read (k*direntSize)=some (((fs.node dir).children.map fun de =>
      (⟨(fs.node de.node).inum,de.name⟩ : Entry)).map fun e => ⟨e.inode%2^16,e.name.take 255⟩)[k]? := by
  have hpos : 0<direntSize := by decide
  rw [Dir.read,tmpfsRead,if_neg (by simp),Nat.mul_div_cancel _ hpos,map_map,getElem?_map]
  rfl

def oneFile (inum : ℕ) : Dir :=
  .tmpfs ⟨0,0,0,0,∅,fun p => ⟨if p=0 then 1 else inum,.dir,1,0,0,if p=0 then [⟨[97],1⟩] else [],
    fun _ => [],[],[]⟩,fun _ => ⟨0,false,.dir,0,0,none⟩⟩ 0

end Auxv6.Fs.Listing
