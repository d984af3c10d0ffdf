import Auxv6.Lib.Buckets
import Auxv6.Lib.Transition

/-!
# The inode cache (fs/fs.c)

A step is a section of `iget`, `idup` or `iput` under `icache.lock`. After its last `iput` a slot keeps its
number and its place on a hash chain, and `inum != 0` stands for being on a chain. The locks, the copy of the
disk inode and what `iput` does to the disk are left out.
-/

namespace Auxv6.Fs.InodeCache
open Lib Function Option List Transition

def ninode : ℕ := 200
def icacheHashSize : ℕ := 64

abbrev Slot := Fin ninode
abbrev Bucket := Fin icacheHashSize

def ihash (dev inum : ℕ) : Bucket := ⟨(dev*31+inum)%2^32%icacheHashSize,Nat.mod_lt _ (by decide)⟩

structure Inode where
  dev : ℕ
  inum : ℕ
  ref : ℤ
  given : Bool

structure Icache where
  inode : Slot → Inode
  hash : Buckets.Table Bucket Slot

/-- `fs.c:211-226` on zeroed memory. -/
def icacheInit : Icache := ⟨fun _ => ⟨0,0,0,false⟩,⟨fun _ => none,fun _ => none⟩⟩

def Icache.chain (s : Icache) (k : Bucket) : List Slot := Buckets.walk s.hash.next ninode (s.hash.head k)

/-- `ip->ref` is an `int`. -/
def Icache.addRef (s : Icache) (i : Slot) (d : ℤ) : Icache :=
  { s with inode := update s.inode i {s.inode i with ref := Int.bmod ((s.inode i).ref+d) (2^32)} }

/-- `fs.c:297-348`; `none` is the panic. -/
def iget (s : Icache) (dev inum : ℕ) : Option Icache :=
  match (s.chain (ihash dev inum)).find? fun i => (s.inode i).dev=dev ∧ (s.inode i).inum=inum with
  | some i => some (s.addRef i 1)
  | none =>
    ((finRange ninode).find? fun i => (s.inode i).ref=0).map fun i =>
      let old:=s.inode i
      let hash:=if old.inum≠0 then s.hash.unlink ninode (ihash old.dev old.inum) i else s.hash
      ⟨update s.inode i ⟨dev,inum,1,true⟩,hash.insert (ihash dev inum) i⟩

inductive Action where
  | iget (dev inum : ℕ)
  | idup (i : Slot)
  | iput (i : Slot)

/-- Who calls `idup` (`fs.c:352-359`) or `iput` (`fs.c:464-497`) has the inode from `iget`. -/
def step (s : Icache) : Action → Option Icache
  | .iget dev inum => iget s dev inum
  | .idup i => if (s.inode i).given then some (s.addRef i 1) else none
  | .iput i => if (s.inode i).given then some (s.addRef i (-1)) else none

def Icache.key (s : Icache) (i : Slot) : Option (ℕ × ℕ) :=
  if (s.inode i).given then some ((s.inode i).dev,(s.inode i).inum) else none

structure Inv (s : Icache) (H : Bucket → List Slot) : Prop where
  keyed : Buckets.Keyed s.hash H s.key fun p => ihash p.1 p.2
  numbered : ∀ i,(s.inode i).given=true ↔ (s.inode i).inum≠0
  ref : ∀ i,(s.inode i).ref≠0 → (s.inode i).given=true

variable {s t : Icache} {H : Bucket → List Slot} {i j : Slot} {dev inum : ℕ}

lemma key_eq_some : s.key i=some (dev,inum) ↔
    (s.inode i).given=true ∧ (s.inode i).dev=dev ∧ (s.inode i).inum=inum := by
  rw [Icache.key]
  split_ifs with h <;> simp [h]
lemma Inv.length_le (h : Inv s H) (k : Bucket) : (H k).length≤ninode := by
  simpa using (h.keyed.rep.nodup k).length_le_card
lemma Inv.chain_eq (h : Inv s H) (k : Bucket) : s.chain k=H k := by
  rw [Icache.chain,h.keyed.rep.head k]
  exact (h.keyed.rep.linked k).walk (h.length_le k)

lemma addRef_inode (s : Icache) (i j : Slot) (d : ℤ) : ((s.addRef i d).inode j).dev=(s.inode j).dev ∧
    ((s.addRef i d).inode j).inum=(s.inode j).inum ∧ ((s.addRef i d).inode j).given=(s.inode j).given := by
  by_cases hj : j=i
  · subst hj
    simp [Icache.addRef]
  · simp [Icache.addRef,hj]

lemma Inv.addRef (h : Inv s H) (hi : (s.inode i).given=true) (d : ℤ) : Inv (s.addRef i d) H := by
  have hkey : (s.addRef i d).key=s.key := by
    funext j
    obtain ⟨h1,h2,h3⟩:=addRef_inode s i j d
    rw [Icache.key,Icache.key,h1,h2,h3]
  refine ⟨hkey ▸ h.keyed,fun j => ?_,fun j hj => ?_⟩
  · obtain ⟨-,h2,h3⟩:=addRef_inode s i j d
    rw [h2,h3]
    exact h.numbered j
  rw [(addRef_inode s i j d).2.2]
  by_cases hji : j=i
  · rw [hji]
    exact hi
  rw [Icache.addRef] at hj
  dsimp only at hj
  rw [update_of_ne hji] at hj
  exact h.ref j hj

lemma Inv.iget (h : Inv s H) (hnum : inum≠0) (hs : InodeCache.iget s dev inum=some t) : ∃ H',Inv t H' := by
  rw [InodeCache.iget,h.chain_eq] at hs
  split at hs
  next i hfind =>
    cases hs
    obtain ⟨p,hp,-⟩:=(h.keyed.mem _ i).mp (mem_of_find?_eq_some hfind)
    exact ⟨H,h.addRef (key_eq_some.mp hp).1 1⟩
  rename_i hnone
  obtain ⟨i,hfree,rfl⟩:=map_eq_some_iff.mp hs
  -- no slot stands for the inode yet
  have hnew : ∀ j,s.key j≠some (dev,inum) := by
    intro j hj
    refine find?_eq_none.mp hnone j ((h.keyed.mem _ j).mpr ⟨_,hj,rfl⟩) ?_
    simpa using (key_eq_some.mp hj).2
  obtain ⟨H',hk⟩:=h.keyed.rekey h.length_le i hnew
  have hdrop : s.hash.drop ninode (fun p => ihash p.1 p.2) i (s.key i)=if (s.inode i).inum≠0 then
      s.hash.unlink ninode (ihash (s.inode i).dev (s.inode i).inum) i else s.hash := by
    rw [Icache.key]
    by_cases hi : (s.inode i).given=true
    · rw [if_pos hi,if_pos ((h.numbered i).mp hi)]
      rfl
    · rw [if_neg hi,if_neg fun hne => hi ((h.numbered i).mpr hne)]
      rfl
  rw [hdrop] at hk
  refine ⟨H',⟨?_,fun j => ?_,fun j => ?_⟩⟩
  · convert hk using 1
    funext j
    by_cases hj : j=i
    · subst hj
      simp [Icache.key]
    · simp [Icache.key,hj]
  · by_cases hj : j=i
    · subst hj
      simpa using hnum
    · simpa [hj] using h.numbered j
  · by_cases hj : j=i
    · subst hj
      simp
    · simpa [hj] using h.ref j

def Numbered (_ : Icache) : Action → Prop
  | .iget _ inum => inum≠0
  | _ => True

lemma Inv.step {a : Action} (h : Inv s H) (hok : Numbered s a) (hs : InodeCache.step s a=some t) : ∃ H',Inv t H' := by
  cases a with
  | iget dev inum => exact h.iget hok hs
  | idup i =>
    obtain ⟨hi,hs⟩:=ite_none_right_eq_some.mp hs
    cases hs
    exact ⟨H,h.addRef hi 1⟩
  | iput i =>
    obtain ⟨hi,hs⟩:=ite_none_right_eq_some.mp hs
    cases hs
    exact ⟨H,h.addRef hi (-1)⟩

lemma inv_init : Inv icacheInit fun _ => [] :=
  ⟨⟨⟨fun _ => rfl,fun _ => trivial,fun _ => nodup_nil,fun _ _ _ hx => absurd hx not_mem_nil⟩,
    by simp [Icache.key,icacheInit],by simp [Icache.key,icacheInit]⟩,by simp [icacheInit],fun _ h => absurd rfl h⟩

structure IcacheSafe (s : Icache) : Prop where
  unique : ∀ i j,0<(s.inode i).ref → 0<(s.inode j).ref → (s.inode i).dev=(s.inode j).dev →
    (s.inode i).inum=(s.inode j).inum → i=j
  found : ∀ i,0<(s.inode i).ref → i∈s.chain (ihash (s.inode i).dev (s.inode i).inum)
  once : ∀ k,(s.chain k).Nodup
  apart : ∀ k k' i,i∈s.chain k → i∈s.chain k' → k=k'
  ends : ∀ k,(fun o : Option Slot => o.bind s.hash.next)^[ninode] (s.hash.head k)=none

lemma Inv.safe (h : Inv s H) : IcacheSafe s := by
  have hkey : ∀ i,0<(s.inode i).ref → s.key i=some ((s.inode i).dev,(s.inode i).inum) := fun i hi =>
    key_eq_some.mpr ⟨h.ref i hi.ne',rfl,rfl⟩
  refine ⟨fun i j hi hj hd hn => ?_,fun i hi => ?_,fun k => ?_,fun k k' i => ?_,fun k => ?_⟩
  · exact h.keyed.unique i j _ (hkey i hi) (by rw [hkey j hj,hd,hn])
  · rw [h.chain_eq,h.keyed.mem]
    exact ⟨_,hkey i hi,rfl⟩
  · rw [h.chain_eq]
    exact h.keyed.rep.nodup k
  · rw [h.chain_eq,h.chain_eq]
    exact h.keyed.rep.disjoint k k' i
  · rw [h.keyed.rep.head k]
    exact (h.keyed.rep.linked k).ends (h.length_le k)

lemma step_keeps {a : Action} (hs : step s a=some t) (hi : 0<(s.inode i).ref) :
    (t.inode i).dev=(s.inode i).dev ∧ (t.inode i).inum=(s.inode i).inum := by
  have hadd : ∀ j d,((s.addRef j d).inode i).dev=(s.inode i).dev ∧ ((s.addRef j d).inode i).inum=(s.inode i).inum :=
    fun j d => ⟨(addRef_inode s j i d).1,(addRef_inode s j i d).2.1⟩
  cases a with
  | iget dev inum =>
    rw [step,iget] at hs
    split at hs
    next j _ =>
      cases hs
      exact hadd j 1
    obtain ⟨j,hfree,rfl⟩:=map_eq_some_iff.mp hs
    have hz : (s.inode j).ref=0 := by simpa using find?_some hfree
    have hij : i≠j := by
      rintro rfl
      omega
    simp [hij]
  | idup j =>
    cases (ite_none_right_eq_some.mp hs).2
    exact hadd j 1
  | iput j =>
    cases (ite_none_right_eq_some.mp hs).2
    exact hadd j (-1)

/-- In every run that never asks for inode 0 the cache is safe in every state, and no step
gives a slot in use to another inode. -/
theorem icache_safe {as : List Action} (hok : Guarded step Numbered icacheInit as)
    (hrun : run step icacheInit as=some s) : IcacheSafe s ∧ ∀ a t,step s a=some t → ∀ i,0<(s.inode i).ref →
        (t.inode i).dev=(s.inode i).dev ∧ (t.inode i).inum=(s.inode i).inum := by
  obtain ⟨H,h⟩ : ∃ H,Inv s H:=run_guarded (I := fun s => ∃ H,Inv s H)
    (fun _ _ _ ⟨_,h⟩ hok hs => h.step hok hs) ⟨_,inv_init⟩ hok hrun
  exact ⟨h.safe,fun a t hs i hi => step_keeps hs hi⟩

def slot0 : Slot := ⟨0,by decide⟩
def reuse : List Action := [.iget 1 5,.idup slot0,.iput slot0,.iput slot0,.iget 1 69]

theorem icache_safe_reuse : ∃ s,run step icacheInit reuse=some s ∧ (s.inode slot0).inum=69 ∧ IcacheSafe s := by
  obtain ⟨s,hs,hnum⟩ : ∃ s,run step icacheInit reuse=some s ∧ (s.inode slot0).inum=69 := by
    decide +kernel
  have hok : Guarded step Numbered icacheInit reuse :=
    ⟨Nat.succ_ne_zero _,fun _ _ => ⟨trivial,fun _ _ => ⟨trivial,fun _ _ => ⟨trivial,fun _ _ =>
      ⟨Nat.succ_ne_zero _,fun _ _ => trivial⟩⟩⟩⟩⟩
  exact ⟨s,hs,hnum,(icache_safe hok hs).1⟩

theorem icache_zero_circle : ∃ s,run step icacheInit [.iget 1 0,.iput slot0,.iget 1 64]=some s ∧
    s.hash.head (ihash 1 64)=some slot0 ∧ s.hash.next slot0=some slot0 := by
  decide +kernel

end Auxv6.Fs.InodeCache
