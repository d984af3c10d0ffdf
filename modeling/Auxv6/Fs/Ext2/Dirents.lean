import Auxv6.Fs.Ext2.Device

/-!
# Reading ext2 directories (fs/vfs_ext2.c)

A directory is the bytes that `ext2_read_data` delivers for it. Its size is a multiple of
the block size below `2 ^ 32`, so the sums of positions do not wrap. The records follow
each other by their lengths; a removed entry keeps its record with inode number 0.
-/

namespace Auxv6.Fs.Ext2

open Lib.ByteMemory List

structure DirData where
  size : ℕ
  byte : Bytes

/-- `ext2_read_data` (`vfs_ext2.c:1340-1394`) on a directory. -/
def readData (d : DirData) (off n : ℕ) : List Byte :=
  if d.size≤off then [] else (List.range (min n (d.size-off))).map fun i => d.byte (off+i)

structure DirentHdr where
  inode : ℕ
  recLen : ℕ
  nameLen : ℕ

def hdrOf (bs : List Byte) : DirentHdr :=
  ⟨load32 (fun i => bs.getD i 0) 0,(bs.getD 4 0).toNat+256*(bs.getD 5 0).toNat,(bs.getD 6 0).toNat⟩
def direntValid (h : DirentHdr) (remain : ℕ) : Bool :=
  8≤h.recLen && h.recLen%4=0 && h.recLen≤remain && h.nameLen≤h.recLen-8 && h.nameLen≤255

structure Dirent where
  inum : ℕ
  name : List Byte
  deriving DecidableEq

def direntSize : ℕ := 258

/-- The 16 bits of `de.inum`, never 0. -/
def visibleInum (inode : ℕ) : ℕ := if inode%2^16=0 then 1 else inode%2^16

/-- The loop of `ext2_read_dirents` (`vfs_ext2.c:1416-1469`). -/
def direntsLoop (d : DirData) (want n : ℕ) : ℕ → ℕ → ℕ → List Dirent → List Dirent
  | 0, _, _, out => out
  | fuel+1, doff, cur, out =>
    if doff+8≤d.size then
      let bs:=readData d doff 8
      let h:=hdrOf bs
      if bs.length≠8 ∨ direntValid h (d.size-doff)=false then out
      else if h.inode≠0 ∧ 0<h.nameLen then
        if want≤cur then
          if (out.length+1)*direntSize > n then out
          else
            let nm:=readData d (doff+8) h.nameLen
            if nm.length≠h.nameLen then out
            else direntsLoop d want n fuel (doff+h.recLen) (cur+1) (out++[⟨visibleInum h.inode,nm⟩])
        else direntsLoop d want n fuel (doff+h.recLen) (cur+1) out
      else direntsLoop d want n fuel (doff+h.recLen) cur out
    else out

/-- `ext2_read` of a directory (`vfs_ext2.c:1396-1472`, `1786-1793`). -/
def readDirents (d : DirData) (off n : ℕ) : Option (List Dirent) :=
  if n≠direntSize ∨ word off%direntSize≠0 then none
  else some (direntsLoop d (word off/direntSize) n d.size 0 0 [])

structure Entry where
  inode : ℕ
  name : List Byte
  deriving DecidableEq

inductive Records (d : DirData) : ℕ → List Entry → Prop
  | done {off : ℕ} : d.size<off+8 → Records d off []
  | record {off : ℕ} {rs : List Entry} : off+8≤d.size → direntValid (hdrOf (readData d off 8)) (d.size-off)=true →
      Records d (off+(hdrOf (readData d off 8)).recLen) rs → Records d off (⟨(hdrOf (readData d off 8)).inode,
        readData d (off+8) (hdrOf (readData d off 8)).nameLen⟩::rs)

def Entry.live (e : Entry) : Bool := e.inode≠0 && e.name≠[]
def Entry.dirent (e : Entry) : Dirent := ⟨visibleInum e.inode,e.name⟩

section

variable {d : DirData} {off n : ℕ} {rs : List Entry} {h : DirentHdr}

lemma length_readData (hoff : off+n≤d.size) : (readData d off n).length=n := by
  rw [readData]
  split_ifs <;> simp <;> omega
lemma direntValid_bounds {remain : ℕ} (hv : direntValid h remain=true) :
    8≤h.recLen ∧ h.recLen≤remain ∧ 8+h.nameLen≤remain := by
  simp only [direntValid,Bool.and_eq_true,decide_eq_true_eq] at hv
  omega

lemma Records.length_le (hr : Records d off rs) : rs.length≤d.size-off := by
  induction hr with
  | done _ => exact Nat.zero_le _
  | record hoff hv _ ih =>
    obtain ⟨h1,h2,-⟩:=direntValid_bounds hv
    rw [length_cons]
    omega

lemma Records.direntsLoop_eq (hr : Records d off rs) (want n fuel cur : ℕ) (hfuel : rs.length≤fuel)
    (out : List Dirent) : direntsLoop d want n fuel off cur out=out ++
      (((rs.filter Entry.live).drop (want-cur)).take (n/direntSize-out.length)).map Entry.dirent := by
  induction hr generalizing fuel cur out with
  | done hend =>
    cases fuel with
    | zero => simp [direntsLoop]
    | succ fuel => rw [direntsLoop,if_neg (by omega)]; simp
  | @record off rs hoff hv _ ih =>
    obtain ⟨fuel,rfl⟩ : ∃ k,fuel=k+1 := ⟨fuel-1,by rw [length_cons] at hfuel; omega⟩
    rw [length_cons] at hfuel
    replace hfuel : rs.length≤fuel := by omega
    obtain ⟨-,-,hname⟩:=direntValid_bounds hv
    have hlen:=length_readData hoff
    generalize hbs : readData d off 8=bs at *
    have hnm : (readData d (off+8) (hdrOf bs).nameLen).length=(hdrOf bs).nameLen := length_readData (by omega)
    generalize hn : readData d (off+8) (hdrOf bs).nameLen=nm at *
    have hlive : (Entry.mk (hdrOf bs).inode nm).live=true ↔ (hdrOf bs).inode≠0 ∧ 0<(hdrOf bs).nameLen := by
      rw [← hnm,length_pos_iff]
      simp [Entry.live]
    rw [direntsLoop,if_pos hoff]
    rw [hbs,if_neg (by rw [hlen,hv]; simp),hn]
    by_cases hl : (hdrOf bs).inode≠0 ∧ 0<(hdrOf bs).nameLen
    · rw [if_pos hl,filter_cons_of_pos (hlive.mpr hl)]
      by_cases hw : want≤cur
      · rw [if_pos hw,Nat.sub_eq_zero_of_le hw,drop_zero]
        by_cases hroom : (out.length+1)*direntSize > n
        · have : n/direntSize<out.length+1 := Nat.div_lt_of_lt_mul (by rwa [Nat.mul_comm])
          rw [if_pos hroom,show n/direntSize-out.length=0 by omega]
          simp
        have : out.length+1≤n/direntSize := (Nat.le_div_iff_mul_le (by decide)).mpr (by omega)
        rw [if_neg hroom,if_neg (not_not.mpr hnm),ih _ _ hfuel,show want-(cur+1)=0 by omega,
          length_append,length_singleton,drop_zero,
          show n/direntSize-out.length=n/direntSize-(out.length+1)+1 by omega,take_succ_cons,append_assoc]
        rfl
      · rw [if_neg hw,ih _ _ hfuel,show want-cur=want-(cur+1)+1 by omega,drop_succ_cons]
    · rw [if_neg hl,filter_cons_of_neg (by rwa [hlive]),ih _ _ hfuel]

lemma Records.readDirents_eq (hr : Records d 0 rs) (k : ℕ) (hk : k*direntSize<2^32) :
    readDirents d (k*direntSize) direntSize = some (((rs.filter Entry.live).drop k).take 1 |>.map Entry.dirent) := by
  have hpos : 0<direntSize := by decide
  rw [readDirents,word_of_lt hk,if_neg (by simp),Nat.mul_div_cancel _ hpos,
    hr.direntsLoop_eq k direntSize d.size 0 hr.length_le [],Nat.sub_zero,length_nil,Nat.sub_zero,Nat.div_self hpos,
    nil_append]

end

end Auxv6.Fs.Ext2
