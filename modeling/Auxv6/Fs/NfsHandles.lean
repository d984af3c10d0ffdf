import Mathlib.Tactic
import Auxv6.Lib.Transition

/-!
# The file handles of an NFS mount (kernel/fs/vfs_nfs.c)

The server answers every request: `lookup` gives the handle of a name in a directory and `fileid`
the id in a file's attributes. A path is the list of elements that `nfs_path_next` cuts it into.
`held` lists, for each reference to an inode of the mount, the handle its inode was made from.
-/

namespace Auxv6.Fs.Nfs
open Function List Lib.Transition Option

abbrev Name := List UInt8

structure Server (FH : Type) where
  root : FH
  lookup : FH → Name → Option FH
  fileid : FH → UInt64

def fhCacheMax : ℕ := 128
def rootIno : UInt32 := 1

abbrev Cache (FH : Type) := Fin fhCacheMax → Option (UInt32 × FH)

variable {FH : Type}

/-- `nfs_inum_from_attr` of the attributes of a handle. -/
def Server.inum (srv : Server FH) (fh : FH) : UInt32 :=
  if (srv.fileid fh).toUInt32=0 then rootIno else (srv.fileid fh).toUInt32

def slotOf (t : Cache FH) (inum : UInt32) : Option (Fin fhCacheMax) :=
  (finRange fhCacheMax).find? fun i => (t i).any (·.1=inum)

/-- `nfs_cache_store_fh`: a full table loses its first entry. -/
def cacheStoreFh (t : Cache FH) (inum : UInt32) (fh : FH) : Cache FH :=
  match slotOf t inum with
  | some i => update t i (some (inum,fh))
  | none =>
    match (finRange fhCacheMax).find? fun i => (t i).isNone with
    | some i => update t i (some (inum,fh))
    | none => update t ⟨0,by decide⟩ (some (inum,fh))

def cacheGetFh (t : Cache FH) (inum : UInt32) : Option FH := (slotOf t inum).bind fun i => (t i).map Prod.snd

structure State (FH : Type) where
  cache : Cache FH
  held : List FH

def makeInode (srv : Server FH) (s : State FH) (fh : FH) : State FH :=
  ⟨cacheStoreFh s.cache (srv.inum fh) fh,fh::s.held⟩
def dot : Name := [46]
def dotdot : Name := [46,46]

/-- The loop of `nfs_namei`: the handle it ends with, and the table. The inode made for an element
is put again at the end of its turn. -/
def nameiLoop (srv : Server FH) : List Name → FH → Cache FH → Option FH × Cache FH
  | [],cur,t => (some cur,t)
  | elem::rest,cur,t =>
    if elem=dot ∨ elem=dotdot then nameiLoop srv rest cur t
    else match srv.lookup cur elem with
      | none => (none,t)
      | some child =>
        let t:=cacheStoreFh t (srv.inum child) child
        match cacheGetFh t (srv.inum child) with
        | none => (none,t)
        | some cur => nameiLoop srv rest cur t

def namei (srv : Server FH) (s : State FH) (path : List Name) : State FH :=
  match nameiLoop srv path srv.root s.cache with
  | (none,t) => {s with cache := t}
  | (some cur,t) => makeInode srv {s with cache := t} cur

/-- `nfs_dirlookup_vop` on the inode made from `dp`. -/
def dirlookup (srv : Server FH) (s : State FH) (dp : FH) (name : Name) : State FH :=
  if name=dot ∨ (name=dotdot ∧ srv.inum dp=srv.inum srv.root) then {s with held := dp::s.held}
  else match (cacheGetFh s.cache (srv.inum dp)).bind fun fh => srv.lookup fh name with
    | none => s
    | some child => makeInode srv s child

inductive Action (FH : Type)
  | namei (path : List Name)
  | dirlookup (dp : FH) (name : Name)
  | iput (fh : FH)

def mountInit (srv : Server FH) : State FH := ⟨cacheStoreFh (fun _ => none) (srv.inum srv.root) srv.root,[]⟩
def step [DecidableEq FH] (srv : Server FH) (s : State FH) : Action FH → Option (State FH)
  | .namei path => some (namei srv s path)
  | .dirlookup dp name => if dp∈s.held then some (dirlookup srv s dp name) else none
  | .iput fh => if fh∈s.held then some {s with held := s.held.erase fh} else none

/-- A read or stat of a referenced inode asks the server with the handle of its file. -/
def HandlesKept (srv : Server FH) (s : State FH) : Prop := ∀ fh∈s.held,cacheGetFh s.cache (srv.inum fh)=some fh

/-- The files that the server gives for the elements of a path. -/
def visited (srv : Server FH) : List Name → FH → List FH
  | [],_ => []
  | elem::rest,cur =>
    if elem=dot ∨ elem=dotdot then visited srv rest cur
    else match srv.lookup cur elem with
      | none => []
      | some child => child::visited srv rest child

def Within (srv : Server FH) (V : Finset FH) (_ : State FH) : Action FH → Prop
  | .namei path => ∀ fh∈visited srv path srv.root,fh∈V
  | .dirlookup dp name => ∀ fh,srv.lookup dp name=some fh → fh∈V
  | .iput _ => True

structure CacheInv (srv : Server FH) (V : Finset FH) (t : Cache FH) : Prop where
  entries : ∀ i e,t i=some e → e.2∈V ∧ e.1=srv.inum e.2
  once : ∀ i j e,t i=some e → t j=some e → i=j

def Cached (srv : Server FH) (t : Cache FH) (fh : FH) : Prop := ∃ i,t i=some (srv.inum fh,fh)

variable {srv : Server FH} {V : Finset FH} {t : Cache FH} {fh : FH} {s s' : State FH}

lemma slotOf_some {inum : UInt32} {i : Fin fhCacheMax} (h : slotOf t inum=some i) : ∃ fh,t i=some (inum,fh) := by
  have hi:=find?_some h
  cases he : t i with
  | none => simp [he] at hi
  | some e => exact ⟨e.2,by simp_all [Prod.ext_iff]⟩

lemma slotOf_none {inum : UInt32} (h : slotOf t inum=none) (i : Fin fhCacheMax) (fh : FH) : t i≠some (inum,fh) := by
  intro he
  simpa [he] using find?_eq_none.mp h i (mem_finRange i)

/-- While no more files are visited than the table has entries, a new file finds one free. -/
lemma CacheInv.exists_free (h : CacheInv srv V t) (hcard : V.card≤fhCacheMax) (hf : fh∈V)
    (hnone : slotOf t (srv.inum fh)=none) : ∃ i,t i=none := by
  classical
  by_contra hfull
  have hall : ∀ i,∃ e,t i=some e := fun i => ne_none_iff_exists'.mp fun hi => hfull ⟨i,hi⟩
  choose e he using hall
  have hmem : ∀ i∈Finset.univ,(e i).2∈V.erase fh := by
    intro i _
    obtain ⟨hV,hnum⟩:=h.entries i _ (he i)
    refine Finset.mem_erase.mpr ⟨fun heq => ?_,hV⟩
    exact slotOf_none hnone i (e i).2 (by rw [he,← heq,← hnum])
  have hone : Set.InjOn (fun i => (e i).2) (Finset.univ : Finset (Fin fhCacheMax)) := by
    intro i _ j _ hij
    have hnum : (e i).1=(e j).1 := by
      rw [(h.entries i _ (he i)).2,(h.entries j _ (he j)).2]
      exact congrArg srv.inum hij
    have heq : e i=e j := Prod.ext hnum hij
    exact h.once i j (e i) (he i) (heq ▸ he j)
  have hle:=Finset.card_le_card_of_injOn _ hmem hone
  have hpos:=Finset.card_pos.mpr ⟨fh,hf⟩
  rw [Finset.card_univ,Fintype.card_fin,Finset.card_erase_of_mem hf] at hle
  omega

section
variable (hinj : ∀ f∈V,∀ g∈V,srv.inum f=srv.inum g → f=g)
include hinj

lemma CacheInv.slotOf_eq (h : CacheInv srv V t) (hf : fh∈V) {i : Fin fhCacheMax}
    (hi : slotOf t (srv.inum fh)=some i) : t i=some (srv.inum fh,fh) := by
  obtain ⟨g,hg⟩:=slotOf_some hi
  obtain ⟨hgV,hnum⟩:=h.entries i _ hg
  rw [hg,hinj fh hf g hgV hnum]

lemma CacheInv.get (h : CacheInv srv V t) (hc : Cached srv t fh) : cacheGetFh t (srv.inum fh)=some fh := by
  obtain ⟨j,hj⟩:=hc
  cases hi : slotOf t (srv.inum fh) with
  | none => exact absurd hj (slotOf_none hi j fh)
  | some i =>
    rw [cacheGetFh,hi,bind_some,h.slotOf_eq hinj (h.entries j _ hj).1 hi]
    rfl

lemma CacheInv.store (h : CacheInv srv V t) (hcard : V.card≤fhCacheMax) (hf : fh∈V) :
    CacheInv srv V (cacheStoreFh t (srv.inum fh) fh) ∧ Cached srv (cacheStoreFh t (srv.inum fh) fh) fh ∧
      ∀ g,Cached srv t g → Cached srv (cacheStoreFh t (srv.inum fh) fh) g := by
  rw [cacheStoreFh]
  cases hi : slotOf t (srv.inum fh) with
  | some i =>
    have hsame:=h.slotOf_eq hinj hf hi
    simp only [← hsame,update_eq_self]
    exact ⟨h,⟨i,hsame⟩,fun _ hg => hg⟩
  | none =>
    obtain ⟨k,hk⟩:=h.exists_free hcard hf hi
    cases hj : (finRange fhCacheMax).find? fun i => (t i).isNone with
    | none => simpa [hk] using find?_eq_none.mp hj k (mem_finRange k)
    | some j =>
      have hfree : t j=none := by simpa using find?_some hj
      have hold : ∀ {i e},t i=some e → update t j (some (srv.inum fh,fh)) i=some e := by
        intro i e he
        rw [update_of_ne (by rintro rfl; simp [hfree] at he),he]
      dsimp only
      refine ⟨⟨fun i e he => ?_,fun i k e he he' => ?_⟩,⟨j,update_self ..⟩,fun g ⟨i,hg⟩ => ⟨i,hold hg⟩⟩
      · rw [update_apply] at he
        split at he
        · cases he
          exact ⟨hf,rfl⟩
        · exact h.entries i e he
      rw [update_apply] at he he'
      split at he <;> split at he'
      · exact ‹i=j›.trans ‹k=j›.symm
      · cases he
        exact absurd he' (slotOf_none hi k fh)
      · cases he'
        exact absurd he (slotOf_none hi i fh)
      · exact h.once i k e he he'

end

structure Inv (srv : Server FH) (V : Finset FH) (s : State FH) : Prop where
  cache : CacheInv srv V s.cache
  held : ∀ fh∈s.held,Cached srv s.cache fh

section
variable (hinj : ∀ f∈V,∀ g∈V,srv.inum f=srv.inum g → f=g) (hcard : V.card≤fhCacheMax)
include hinj hcard

lemma Inv.makeInode (h : Inv srv V s) (hf : fh∈V) : Inv srv V (makeInode srv s fh) := by
  obtain ⟨hi,hc,hkeep⟩:=h.cache.store hinj hcard hf
  refine ⟨hi,fun g hg => ?_⟩
  rcases mem_cons.mp hg with rfl | hg
  · exact hc
  · exact hkeep g (h.held g hg)

lemma nameiLoop_spec (path : List Name) {cur : FH} (hcur : cur∈V)
    (hv : ∀ fh∈visited srv path cur,fh∈V) (h : CacheInv srv V t) : CacheInv srv V (nameiLoop srv path cur t).2 ∧
      (∀ g,Cached srv t g → Cached srv (nameiLoop srv path cur t).2 g) ∧
      ∀ fh,(nameiLoop srv path cur t).1=some fh → fh∈V := by
  induction path generalizing cur t with
  | nil => exact ⟨h,fun _ hg => hg,fun fh he => some.inj he ▸ hcur⟩
  | cons elem rest ih =>
    rw [visited] at hv
    rw [nameiLoop]
    split
    case isTrue hdot => exact ih hcur (by rwa [if_pos hdot] at hv) h
    case isFalse hdot =>
      rw [if_neg hdot] at hv
      cases hl : srv.lookup cur elem with
      | none => exact ⟨h,fun _ hg => hg,nofun⟩
      | some child =>
        simp only [hl,mem_cons] at hv
        have hchild:=hv child (.inl rfl)
        obtain ⟨hi,hc,hkeep⟩:=h.store hinj hcard hchild
        simp only [hi.get hinj hc]
        obtain ⟨hi',hkeep',hend⟩:=ih hchild (fun fh hfh => hv fh (.inr hfh)) hi
        exact ⟨hi',fun g hg => hkeep' g (hkeep g hg),hend⟩

lemma Inv.step [DecidableEq FH] (hroot : srv.root∈V) (h : Inv srv V s) {a : Action FH}
    (hok : Within srv V s a) (ht : step srv s a=some s') : Inv srv V s' := by
  cases a with
  | namei path =>
    cases ht
    obtain ⟨hi,hkeep,hend⟩:=nameiLoop_spec hinj hcard path hroot hok h.cache
    rw [namei]
    generalize nameiLoop srv path srv.root s.cache=r at hi hkeep hend
    obtain ⟨_ | cur,t⟩:=r
    · exact ⟨hi,fun g hg => hkeep g (h.held g hg)⟩
    · exact Inv.makeInode hinj hcard ⟨hi,fun g hg => hkeep g (h.held g hg)⟩ (hend cur rfl)
  | dirlookup dp name =>
    rw [Nfs.step] at ht
    split_ifs at ht with hdp
    cases ht
    rw [dirlookup,h.cache.get hinj (h.held dp hdp),bind_some]
    split
    · exact ⟨h.cache,fun g hg => (mem_cons.mp hg).elim (fun heq => heq ▸ h.held dp hdp) (h.held g)⟩
    · cases hl : srv.lookup dp name with
      | none => exact h
      | some child => exact h.makeInode hinj hcard (hok child hl)
  | iput fh =>
    rw [Nfs.step] at ht
    split at ht <;> cases ht
    exact ⟨h.cache,fun g hg => h.held g (mem_of_mem_erase hg)⟩

/-- Of the files that a run visits: as long as there are no more than the table has entries and no
two have one inode number, every referenced inode keeps the handle of its file. -/
theorem nfs_handles_kept [DecidableEq FH] (hroot : srv.root∈V) {l : List (Action FH)}
    (hok : Guarded (step srv) (Within srv V) (mountInit srv) l)
    (hrun : run (step srv) (mountInit srv) l=some s) : HandlesKept srv s := by
  have hempty : CacheInv srv V fun _ => none := ⟨nofun,nofun⟩
  have hinit : Inv srv V (mountInit srv) := ⟨(hempty.store hinj hcard hroot).1,nofun⟩
  have h:=run_guarded (fun _ _ _ h ok => h.step hinj hcard hroot ok) hinit hok hrun
  exact fun fh hfh => h.cache.get hinj (h.held fh hfh)

end

/-- A flat export: the name of one byte `n` leads to the file `n`. -/
def flat (fileid : ℕ → UInt64) : Server ℕ := ⟨0,fun _ name => name.head?.map UInt8.toNat,fileid⟩

theorem nfs_handles_kept_one_file : ∃ s,run (step (flat fun n => n.toUInt64+2))
    (mountInit (flat fun n => n.toUInt64+2)) [.namei [],.namei [[65]]]=some s ∧ s.held=[65,0] ∧
      HandlesKept (flat fun n => n.toUInt64+2) s := by
  refine ⟨_,rfl,rfl,nfs_handles_kept (V := {0,65}) (by decide) (by decide) (by decide)
    (l := [.namei [],.namei [[65]]])
    ⟨nofun,fun _ _ => ⟨by simp [Within,visited,flat,dot,dotdot],fun _ _ => trivial⟩⟩ rfl⟩

/-- Two open files whose ids agree in the low 32 bits: the first is read through the second. -/
theorem nfs_ids_collide : ∃ s,run (step (flat fun n => n.toUInt64*4294967296+7))
    (mountInit (flat fun n => n.toUInt64*4294967296+7)) [.namei [[65]],.namei [[66]]]=some s ∧
      s.held=[66,65] ∧ cacheGetFh s.cache ((flat fun n => n.toUInt64*4294967296+7).inum 65)=some 66 := by
  decide +kernel

end Auxv6.Fs.Nfs
