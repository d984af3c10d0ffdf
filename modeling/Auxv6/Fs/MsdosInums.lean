import Auxv6.Machine

/-!
# Inode numbers on FAT volumes (fs/vfs_msdosfs.c)

A file has the number of its directory entry: a slot of the fixed root of a FAT16 volume, or a
cluster and a slot in it, packed into 32 bits.
-/

namespace Auxv6.Fs.Msdos
open Machine Option Nat

structure Bpb where
  bytsPerSec : UInt16
  secPerClus : UInt8
  rsvdSecCnt : UInt16
  numFats : UInt8
  rootEntCnt : UInt16
  totSec16 : UInt16
  totSec32 : UInt32
  fatsz16 : UInt16
  fatsz32 : UInt32

structure MountData where
  fat16 : Bool
  sectorsPerCluster : ℕ
  rootDirEntries : ℕ
  rootStart : ℕ
  dataStart : ℕ
  totalClusters : ℕ
deriving DecidableEq

def Bpb.fatsz (b : Bpb) : ℕ := if b.fatsz16=0 then b.fatsz32.toNat else b.fatsz16.toNat
def Bpb.totsec (b : Bpb) : ℕ := if b.totSec16=0 then b.totSec32.toNat else b.totSec16.toNat

/-- `vfs_msdosfs.c:1849-1964`; `nblocks` is the size of the device after
`bdev_set_nblocks`. -/
def msdosMountInit (b : Bpb) (nblocks : ℕ) : Option MountData :=
  let rootsz:=(b.rootEntCnt.toNat*32+(b.bytsPerSec.toNat-1))/b.bytsPerSec.toNat
  let rootStart:=(b.rsvdSecCnt.toNat+b.numFats.toNat*b.fatsz)%wordMod
  let dataStart:=(rootStart+rootsz)%wordMod
  let clusters:=(b.totsec-dataStart)/b.secPerClus.toNat
  if b.secPerClus=0 ∨ b.numFats=0 ∨ b.fatsz=0 ∨ b.totsec=0 ∨ b.bytsPerSec≠512 ∨
      b.totsec≤dataStart ∨ nblocks<b.totsec then none
  else some ⟨clusters<65525,b.secPerClus.toNat,b.rootEntCnt.toNat,rootStart,dataStart,clusters⟩

inductive Slot where
  | root (i : ℕ)
  | cluster (c i : ℕ)
deriving DecidableEq

/-- The number of a slot of a cluster, as the scan of a chain (`vfs_msdosfs.c:1508-1512`) and
`msdos_find_free_run` compute it. -/
def cinum (c i : ℕ) : ℕ :=
  let inum:=c <<< 11%wordMod ||| i%2048
  if inum=1 ∨ inum.testBit 31 then inum ^^^ 1 else inum

def Slot.inum : Slot → ℕ
  | .root i => 2^31 ||| i
  | .cluster c i => cinum c i

/-- `msdos_cluster_first_sector` (`vfs_msdosfs.c:1071-1078`). -/
def MountData.clusterFirstSector (v : MountData) (c : ℕ) : ℕ :=
  if c<2 ∨ (v.totalClusters+1)%wordMod<c then 0
  else (v.dataStart+(c-2)*v.sectorsPerCluster)%wordMod

/-- `msdos_inode_dirent_location` (`vfs_msdosfs.c:909-953`): the sector, and the offset in it. -/
def MountData.direntLocation (v : MountData) (inum : ℕ) : Option (ℕ × ℕ) :=
  if inum=1 then none
  else if inum.testBit 31 then
    let off:=inum%2^31*32%wordMod
    some ((v.rootStart+off/512)%wordMod,off%512)
  else if inum >>> 11<2 then none
  else
    let off:=inum%2048*32
    let csec:=v.clusterFirstSector (inum >>> 11)
    if csec=0 then none else some ((csec+off/512)%wordMod,off%512)

inductive Dir where
  | fixedRoot
  | chain (first : ℕ) (rest : List ℕ)

def MountData.clusterSlots (v : MountData) (c : ℕ) : List Slot :=
  (List.range (16*v.sectorsPerCluster)).map (.cluster c)
def MountData.slots (v : MountData) : Dir → List Slot
  | .fixedRoot => (List.range v.rootDirEntries).map .root
  | .chain first rest => (first::rest).flatMap v.clusterSlots

/-- The search for `n` free slots in a row among those from index `k` on; `run` were found, from
index `start` on. -/
def runLoop (free : Slot → Bool) (n : ℕ) : List Slot → ℕ → ℕ → ℕ → Option (ℕ × ℕ)
  | [], _, _, _ => none
  | x::xs, k, run, start =>
    if free x then
      let start:=if run=0 then k else start
      if run+1=n then some (start,x.inum) else runLoop free n xs (k+1) (run+1) start
    else runLoop free n xs (k+1) 0 start

/-- `msdos_find_free_run` (`vfs_msdosfs.c:569-723`): the first slot of the run, and the number for the last.
`free` says whether the first byte of a slot is 0 or 0xE5; `spare` is what `msdos_alloc_cluster` finds. -/
def MountData.findFreeRun (v : MountData) (dir : Dir) (free : Slot → Bool) (spare : Option ℕ) (n : ℕ) :
    Option (ℕ × ℕ) :=
  if n<1 then none
  else match runLoop free n (v.slots dir) 0 0 0, dir with
    | some r, _ => some r
    | none, .fixedRoot => none
    | none, .chain _ _ =>
      spare.map fun c => ((v.slots dir).length,cinum c (16*v.sectorsPerCluster-1))

def MountData.HasCluster (v : MountData) (c : ℕ) : Prop := 2≤c ∧ c≤v.totalClusters+1
/-- The clusters of a directory lie in the volume. -/
structure MountData.Directory (v : MountData) where
  dir : Dir
  inside : ∀ first rest,dir=.chain first rest → ∀ c∈first::rest,v.HasCluster c

def MountData.HasSlot (v : MountData) : Slot → Prop
  | .root i => v.fat16=true ∧ i<v.rootDirEntries
  | .cluster c i => v.HasCluster c ∧ i<16*v.sectorsPerCluster
def MountData.place (v : MountData) : Slot → ℕ × ℕ
  | .root i => ((v.rootStart+i*32/512)%wordMod,i*32%512)
  | .cluster c i => (v.dataStart+(c-2)*v.sectorsPerCluster+i*32/512,i*32%512)

structure Positions (v : MountData) : Prop where
  distinct : ∀ x y,v.HasSlot x → v.HasSlot y → x.inum=y.inum → x=y
  notRoot : ∀ x,v.HasSlot x → x.inum≠1
  located : ∀ x,v.HasSlot x → v.direntLocation x.inum=some (v.place x)

/-- A run of `n` slots found from index `i` on comes with the number of its last slot. -/
def Agrees (v : MountData) (dir : Dir) (free : Slot → Bool) (spare : Option ℕ) (n : ℕ) : Prop :=
  ∀ i inum,v.findFreeRun dir free spare n=some (i,inum) →
    (v.slots dir++spare.elim [] v.clusterSlots)[i+n-1]?.map Slot.inum=some inum

def Packs (v : MountData) : Prop :=
  v.totalClusters=0 ∨ 0<v.dataStart ∧ v.sectorsPerCluster≤128 ∧ v.totalClusters+1<2^20
def HasRun (free : Slot → Bool) (n : ℕ) (l : List Slot) : Prop := ∃ i,∀ j<n,l[i+j]?.any free=true

/-- There are `n` free slots in a row, or the directory is not extended, or by exactly `n` slots. -/
def RunFits (v : MountData) (dir : Dir) (free : Slot → Bool) (spare : Option ℕ) (n : ℕ) : Prop :=
  HasRun free n (v.slots dir) ∨ dir=.fixedRoot ∨ spare=none ∨ n=16*v.sectorsPerCluster

variable {v : MountData} {c i n run start : ℕ}

lemma cinum_eq (h2 : 2≤c) (hc : c<2^20) (hi : i<2048) : cinum c i=c*2048+i := by
  have hpack : c <<< 11%wordMod ||| i%2048=c*2048+i := by
    rw [mod_eq_of_lt hi,shiftLeft_eq,mod_eq_of_lt (by simp only [wordMod]; omega),
      ← shiftLeft_eq,← shiftLeft_add_eq_or_of_lt (by simpa using hi),shiftLeft_eq]
  rw [cinum,hpack,if_neg]
  rw [testBit_lt_two_pow (by omega)]
  simp only [Bool.false_eq_true,or_false]
  omega

structure Bounds (v : MountData) : Prop where
  data : v.dataStart+v.totalClusters*v.sectorsPerCluster<wordMod
  sectors : 0<v.sectorsPerCluster
  entries : v.rootDirEntries<2^16

lemma mountInit_bounds {b : Bpb} {nblocks : ℕ} (h : msdosMountInit b nblocks=some v) : Bounds v := by
  simp only [msdosMountInit] at h
  split_ifs at h with hok
  cases h
  simp only [not_or,not_le] at hok
  refine ⟨?_,pos_of_ne_zero fun hz => hok.1 (UInt8.toNat_inj.mp hz),b.rootEntCnt.toNat_lt⟩
  have htot : b.totsec<wordMod := by
    unfold Bpb.totsec
    split_ifs
    · exact b.totSec32.toNat_lt
    · exact b.totSec16.toNat_lt.trans (by decide)
  have hle:=div_mul_le_self (b.totsec-(((b.rsvdSecCnt.toNat+b.numFats.toNat*b.fatsz)%wordMod +
    (b.rootEntCnt.toNat*32+(b.bytsPerSec.toNat-1))/b.bytsPerSec.toNat)%wordMod)) b.secPerClus.toNat
  dsimp only
  omega

def decode (inum : ℕ) : Slot := if 2^31 ≤ inum then .root (inum-2^31) else .cluster (inum/2048) (inum%2048)

structure Decodes (v : MountData) (x : Slot) : Prop where
  slot : decode x.inum=x
  notRoot : x.inum≠1
  located : v.direntLocation x.inum=some (v.place x)

lemma decodes_root (hi : i<2^16) : Decodes v (.root i) := by
  have hinum : (Slot.root i).inum=2^31+i := (Nat.two_pow_add_eq_or_of_lt (i := 31) (by omega) 1).symm
  have hbit : (2^31+i).testBit 31=true := by
    rw [Nat.testBit_two_pow_add_eq,Nat.testBit_lt_two_pow (by omega)]
    rfl
  have hoff : (2^31+i)%2^31*32%wordMod=i*32 := by
    simp only [wordMod]
    omega
  refine ⟨?_,by omega,?_⟩ <;> rw [hinum]
  · rw [decode,if_pos (by omega),Nat.add_sub_cancel_left]
  · rw [MountData.direntLocation,if_neg (by omega),if_pos hbit,hoff]
    rfl

lemma decodes_cluster (hb : Bounds v) (hp : Packs v) (hx : v.HasSlot (.cluster c i)) : Decodes v (.cluster c i) := by
  obtain ⟨⟨h2,hle⟩,hi⟩:=hx
  obtain ⟨hd,hs,ht⟩:=hp.resolve_left (by omega)
  have hdata:=hb.data
  have hmul : (c-2+1)*v.sectorsPerCluster≤v.totalClusters*v.sectorsPerCluster := Nat.mul_le_mul_right _ (by omega)
  rw [Nat.succ_mul] at hmul
  have htotal : v.totalClusters≤v.totalClusters*v.sectorsPerCluster := Nat.le_mul_of_pos_right _ hb.sectors
  have hcsec : v.clusterFirstSector c=v.dataStart+(c-2)*v.sectorsPerCluster := by
    rw [MountData.clusterFirstSector,Nat.mod_eq_of_lt (by omega),if_neg (by omega),Nat.mod_eq_of_lt (by omega)]
  have hinum : (Slot.cluster c i).inum=c*2048+i := cinum_eq h2 (by omega) (by omega)
  have hdiv : (c*2048+i)/2048=c ∧ (c*2048+i)%2048=i := by omega
  refine ⟨?_,by omega,?_⟩ <;> rw [hinum]
  · rw [decode,if_neg (by omega),hdiv.1,hdiv.2]
  rw [MountData.direntLocation,if_neg (by omega),Nat.testBit_lt_two_pow (by omega),if_neg (by simp),
    Nat.shiftRight_eq_div_pow,hdiv.1,if_neg (by omega),hdiv.2,hcsec]
  rw [if_neg (by omega),Nat.mod_eq_of_lt (by omega)]
  rfl

lemma positions_iff (hb : Bounds v) : Positions v ↔ Packs v := by
  constructor
  · intro h
    by_contra hp
    simp only [Packs,not_or] at hp
    have hs:=hb.sectors
    have hslot : ∀ c i,2≤c → c≤v.totalClusters+1 → i<16*v.sectorsPerCluster → v.HasSlot (.cluster c i) :=
      fun c i h1 h2 h3 => ⟨⟨h1,h2⟩,h3⟩
    rcases Nat.eq_zero_or_pos v.dataStart with hd | hd
    · -- sector 0 stands for an error
      have hcsec : v.clusterFirstSector 2=0 := by simp [MountData.clusterFirstSector,hd]
      have hloc:=h.located _ (hslot 2 0 le_rfl (by omega) (by omega))
      change (if v.clusterFirstSector 2=0 then none else _) = _ at hloc
      rw [if_pos hcsec] at hloc
      cases hloc
    rcases Nat.lt_or_ge 128 v.sectorsPerCluster with hbig | hsmall
    · cases h.distinct _ _ (hslot 2 0 le_rfl (by omega) (by omega)) (hslot 2 2048 le_rfl (by omega) (by omega)) rfl
    -- the number is taken for that of a slot of the fixed root
    have hloc:=h.located _ (hslot (2^20) 0 (by omega) (by omega) (by omega))
    have hoff : some 32=some 0 := congrArg (Option.map Prod.snd) hloc
    cases hoff
  · intro hp
    have hdec : ∀ x,v.HasSlot x → Decodes v x
      | .root _, hx => decodes_root (hx.2.trans hb.entries)
      | .cluster _ _, hx => decodes_cluster hb hp hx
    refine ⟨fun x y hx hy heq => ?_,fun x hx => (hdec x hx).notRoot,fun x hx => (hdec x hx).located⟩
    rw [← (hdec x hx).slot,heq,(hdec y hy).slot]

variable {free : Slot → Bool} {l xs : List Slot} {r : ℕ × ℕ}

lemma runLoop_some (hxs : l.drop (i+run)=xs) (hstart : 0<run → start=i)
    (hfree : ∀ j<run,l[i+j]?.any free=true) (h : runLoop free n xs (i+run) run start=some r) :
    HasRun free n l ∧ l[r.1+n-1]?.map Slot.inum=some r.2 := by
  induction xs generalizing i run start with
  | nil => cases h
  | cons x xs ih =>
    have hx : l[i+run]? = some x := by rw [← List.head?_drop,hxs]; rfl
    have hnext : l.drop (i+run+1)=xs := by rw [← List.tail_drop,hxs]; rfl
    rw [runLoop] at h
    by_cases hf : free x=true
    · rw [if_pos hf] at h
      have hstart' : (if run=0 then i+run else start)=i := by
        split_ifs with hz
        · rw [hz,Nat.add_zero]
        · exact hstart (Nat.pos_of_ne_zero hz)
      have hfree' : ∀ j<run+1,l[i+j]?.any free=true := by
        intro j hj
        rcases Nat.lt_succ_iff_lt_or_eq.mp hj with hj | rfl
        · exact hfree j hj
        · rw [hx]
          exact hf
      rw [hstart'] at h
      by_cases hlast : run+1=n
      · rw [if_pos hlast] at h
        cases h
        refine ⟨⟨i,hlast ▸ hfree'⟩,?_⟩
        rw [← hlast,← Nat.add_assoc,Nat.add_sub_cancel,hx]
        rfl
      · rw [if_neg hlast] at h
        exact @ih i (run+1) _ hnext (fun _ => rfl) hfree' h
    · rw [if_neg hf] at h
      exact @ih (i+run+1) 0 _ hnext (fun hz => absurd hz (lt_irrefl 0)) (fun j hj => absurd hj (Nat.not_lt_zero j)) h

lemma runLoop_ne_none (k : ℕ) (hrun : run<n)
    (h : (∀ j,j+run<n → xs[j]?.any free=true) ∨ HasRun free n xs) : runLoop free n xs k run start≠none := by
  induction xs generalizing k run start with
  | nil =>
    rcases h with h | ⟨i,h⟩
    · simpa using h 0 (by omega)
    · simpa using h 0 (by omega)
  | cons x xs ih =>
    have hrest : (∀ j,j+run<n → (x::xs)[j]?.any free=true) ∨ HasRun free n xs := by
      rcases h with h | ⟨_ | i,h⟩
      · exact .inl h
      · exact .inl fun j hj => by simpa using h j (by omega)
      · exact .inr ⟨i,fun j hj => by simpa [succ_add] using h j hj⟩
    rw [runLoop]
    by_cases hf : free x=true
    · rw [if_pos hf]
      by_cases hlast : run+1=n
      · simp [hlast]
      · simp only [if_neg hlast]
        exact ih _ (by omega) (hrest.imp_left fun h j hj => by simpa using h (j+1) (by omega))
    · rw [if_neg hf]
      refine ih _ (by omega) (.inr (hrest.resolve_left fun h => hf ?_))
      simpa using h 0 (by omega)

lemma extended_iff (hpos : Positions v) (hc : v.HasCluster c) (hn : 0<n) :
    (l++v.clusterSlots c)[l.length+n-1]?.map Slot.inum=some (cinum c (16*v.sectorsPerCluster-1)) ↔
      n=16*v.sectorsPerCluster := by
  rw [Nat.add_sub_assoc hn,List.getElem?_append_right (Nat.le_add_right ..),Nat.add_sub_cancel_left,
    MountData.clusterSlots,List.getElem?_map,map_map]
  rcases Nat.lt_or_ge (n-1) (16*v.sectorsPerCluster) with hlt | hge
  · rw [List.getElem?_range hlt,map_some,some.injEq]
    refine ⟨fun heq => ?_,fun heq => by rw [heq]; rfl⟩
    have hsame:=hpos.distinct (.cluster c (n-1)) (.cluster c (16*v.sectorsPerCluster-1)) ⟨hc,hlt⟩ ⟨hc,by omega⟩ heq
    rw [Slot.cluster.injEq] at hsame
    omega
  · rw [List.getElem?_eq_none (by simpa using hge)]
    exact iff_of_false (by simp) (by omega)

lemma agrees_iff {dir : Dir} {spare : Option ℕ} (hpos : Positions v) (hspare : ∀ c∈spare,v.HasCluster c) :
    Agrees v dir free spare n ↔ RunFits v dir free spare n := by
  rcases Nat.eq_zero_or_pos n with rfl | hn
  · exact iff_of_true (fun _ _ h => by cases h) (.inl ⟨0,fun j hj => absurd hj (Nat.not_lt_zero j)⟩)
  unfold Agrees MountData.findFreeRun
  rw [if_neg (not_lt.mpr hn)]
  cases hrun : runLoop free n (v.slots dir) 0 0 0 with
  | some r =>
    obtain ⟨hhas,hlast⟩:=@runLoop_some 0 n 0 0 free (v.slots dir) _ r rfl (fun _ => rfl)
      (fun j hj => absurd hj (Nat.not_lt_zero j)) hrun
    refine iff_of_true (fun i inum h => ?_) (.inl hhas)
    cases h
    obtain ⟨x,hx,-⟩:=map_eq_some_iff.mp hlast
    rwa [List.getElem?_append_left (List.getElem?_eq_some_iff.mp hx).1]
  | none =>
    rw [RunFits,or_iff_right fun h => runLoop_ne_none 0 hn (.inr h) hrun]
    cases dir with
    | fixedRoot => exact iff_of_true (fun _ _ h => by cases h) (.inl rfl)
    | chain first rest =>
      cases spare with
      | none => exact iff_of_true (fun _ _ h => by cases h) (.inr (.inl rfl))
      | some c =>
        rw [or_iff_right nofun,or_iff_right nofun,← extended_iff hpos (hspare c rfl) hn]
        exact ⟨fun h => h _ _ rfl,fun h i inum heq => by cases heq; exact h⟩

theorem fat_inums_are_positions (b : Bpb) (nblocks : ℕ) (v : MountData) (hv : msdosMountInit b nblocks=some v)
    (d : v.Directory) (free : Slot → Bool) (spare : Option ℕ) (hspare : ∀ c∈spare,v.HasCluster c) (n : ℕ) :
    Positions v ∧ Agrees v d.dir free spare n ↔ Packs v ∧ RunFits v d.dir free spare n := by
  rw [← positions_iff (mountInit_bounds hv)]
  exact and_congr_right fun hpos => agrees_iff hpos hspare

def smallBpb : Bpb := ⟨512,4,1,2,512,20000,0,20,0⟩

theorem fat_inums_small : ∃ v,msdosMountInit smallBpb 20000=some v ∧ Positions v ∧
    Agrees v (.chain 2 []) (fun _ => false) (some 3) 64 :=
  ⟨⟨true,4,512,41,73,4981⟩,by decide,(fat_inums_are_positions smallBpb 20000 _ (by decide)
    ⟨.chain 2 [],fun _ _ h c hc => by cases h; cases List.mem_singleton.mp hc; exact ⟨by decide,by decide⟩⟩ _ _
    (fun c hc => by cases hc; exact ⟨by decide,by decide⟩) 64).mpr ⟨.inr (by decide),.inr (.inr (.inr rfl))⟩⟩
theorem fat_new_cluster_misnumbered : ∃ v,msdosMountInit smallBpb 20000=some v ∧
    v.findFreeRun (.chain 2 []) (fun _ => false) (some 3) 1=some (64,(Slot.cluster 3 63).inum) ∧
    (v.slots (.chain 2 [])++v.clusterSlots 3)[64]? = some (.cluster 3 0) ∧
    (Slot.cluster 3 63).inum≠(Slot.cluster 3 0).inum :=
  ⟨⟨true,4,512,41,73,4981⟩,by decide,by decide,by decide,by decide⟩

end Auxv6.Fs.Msdos
