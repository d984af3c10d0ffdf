import Auxv6.Lib.ByteMemory

/-!
# write

`sys_write` copies pieces of a page (512 bytes at most go over the stack) into the kernel, and `filewrite`
hands a piece to the filesystem in transactions of 1536 bytes. An oracle says what the filesystem does at an
offset: the operation there fails and keeps a part of its bytes (`tmpfs_write_pages` the pages and `ext2_write`
the blocks before the failure), or stores up to so many bytes and reports them.
-/

namespace Auxv6.FileWrite
open Prod

open Lib.ByteMemory (Bytes)

/-- An open regular file; `valid` is `file_handle_valid`, `data` the bytes of the inode. -/
structure File where
  valid : Bool
  writable : Bool
  data : Bytes
  off : ℕ

structure UserBuf where
  byte : Bytes
  readable : ℕ → ℕ → Bool

def patch (data : Bytes) (off : ℕ) (src : Bytes) (k : ℕ) : Bytes := fun p =>
  if off≤p ∧ p<off+k then src (p-off) else data p
def File.store (f : File) (src : Bytes) (k : ℕ) : File := {f with data := patch f.data f.off src k,off := f.off+k}
def File.keep (f : File) (src : Bytes) (k : ℕ) : File := {f with data := patch f.data f.off src k}

inductive Reply where
  | fails (kept : ℕ)
  | stores (m : ℕ)

def maxWrite : ℕ := (10-1-1-2)/2*512

/-- The loop of `filewrite` (`file.c:371-410`); the result `none` is `panic("short filewrite")`. -/
def filewriteLoop (reply : ℕ → Reply) (addr : Bytes) (n i : ℕ) (f : File) : Option (Int × File) :=
  if i<n then
    let n1:=min (n-i) maxWrite
    match reply f.off with
    | .fails kept => some (-1,f.keep (fun j => addr (i+j)) (min kept n1))
    | .stores m =>
      let r:=min m n1
      let f:=f.store (fun j => addr (i+j)) r
      if r=n1 then filewriteLoop reply addr n (i+n1) f else none
  else some (if i=n then n else -1,f)
termination_by n-i
decreasing_by simp only [maxWrite]; omega

/-- `filewrite` of a regular file (`file.c:335-412`). -/
def filewrite (reply : ℕ → Reply) (f : File) (addr : Bytes) (n : ℕ) : Option (Int × File) :=
  if f.valid=false ∨ f.writable=false then some (-1,f) else filewriteLoop reply addr n 0 f

/-- The loop of `sys_write` (`sysfile.c:1076-1101`). -/
def sysWriteLoop (reply : ℕ → Reply) (u : UserBuf) (n cap tot : ℕ) (f : File) : Option (Int × File) :=
  if tot<n then
    let want:=min (n-tot) cap
    if u.readable tot want then
      match filewrite reply f (fun j => u.byte (tot+j)) want with
      | none => none
      | some (r,f) =>
        if r≤0 then some (if 0<tot then tot else r,f)
        else if r<want then some (tot+r,f)
        else sysWriteLoop reply u n cap (tot+r.toNat) f
    else some (if 0<tot then tot else -1,f)
  else some (tot,f)
termination_by n-tot
decreasing_by omega

/-- `sysfile.c:1039-1104`; `heap` says whether `kmalloc` has a page. -/
def sysWrite (reply : ℕ → Reply) (heap : Bool) (u : UserBuf) (f : File) (n : Int) : Option (Int × File) :=
  if n<0 then some (-1,f)
  else if n=0 then some (0,f)
  else if 512<n ∧ heap=false then some (-1,f)
  else sysWriteLoop reply u n.toNat (if 512<n then 4096 else 512) 0 f

variable {reply : ℕ → Reply} {b : Bytes} {u : UserBuf} {f g t : File} {i k m n x : ℕ} {r : Int}

def Stored (b : Bytes) (f : File) (k : ℕ) (g : File) : Prop := g=f.store b k

lemma patch_zero (data : Bytes) (off : ℕ) (b : Bytes) : patch data off b 0=data := funext fun p => if_neg (by omega)
lemma Stored.nothing (b : Bytes) (f : File) : Stored b f 0 f := by
  rw [Stored,File.store,patch_zero,Nat.add_zero]

lemma patch_patch (data : Bytes) (off : ℕ) (b : Bytes) (m k : ℕ) :
    patch (patch data off b m) (off+m) (fun j => b (m+j)) k=patch data off b (m+k) := by
  funext p
  simp only [patch]
  by_cases hk : off+m≤p ∧ p<off+m+k
  · rw [if_pos hk,if_pos (by omega),show m+(p-(off+m))=p-off by omega]
  · rw [if_neg hk]
    exact if_congr (by omega) rfl rfl

lemma patch_add_eq_iff {data : Bytes} {off : ℕ} :
    patch data off b (m+k)=patch data off b m ↔ ∀ j<k,b (m+j)=data (off+m+j) := by
  constructor
  · intro h j hj
    have hp:=congrFun h (off+m+j)
    simp only [patch] at hp
    rw [if_pos (by omega),if_neg (by omega)] at hp
    rwa [show off+m+j-off=m+j by omega] at hp
  intro h
  funext p
  simp only [patch]
  by_cases hp : off+m≤p ∧ p<off+m+k
  · have hj:=h (p-(off+m)) (by omega)
    rw [if_pos (by omega),if_neg (by omega),show p-off=m+(p-(off+m)) by omega,hj,Nat.add_sub_cancel' hp.1]
  · exact if_congr (by omega) rfl rfl

lemma Stored.extend (h : Stored b f m g) (k : ℕ) : Stored b f (m+k) (g.store (fun j => b (m+j)) k) := by
  rw [Stored] at h ⊢
  rw [h,File.store,File.store,File.store,patch_patch,Nat.add_assoc]

def IsChunk (x : ℕ) : Prop := x%4096%1536=0
/-- The size of the write operation at position `x` of a call for `n` bytes. -/
def opSize (n x : ℕ) : ℕ := min (min (n-x) (4096-x%4096)) 1536

structure Upto (reply : ℕ → Reply) (b : Bytes) (f : File) (x : ℕ) (g : File) : Prop where
  stored : Stored b f x g
  went : ∀ y<x,IsChunk y → ∀ kept,reply (f.off+y)≠.fails kept

lemma filewriteLoop_spec (hm : 4096 ∣ m) (hn : n≤4096) (hi : i≤n) (hc : i%1536=0 ∨ i=n)
    (h : Upto reply b f (m+i) g) (hs : filewriteLoop reply (fun j => b (m+j)) n i g=some (r,t)) :
      (r=n ∧ Upto reply b f (m+n) t) ∨ (r = -1 ∧ ∃ x kept g',m≤x ∧ x < m+n ∧ IsChunk x ∧ Upto reply b f x g' ∧
        reply (f.off+x)=.fails kept ∧ t=g'.keep (fun j => b (x+j)) (min kept (min (m+n-x) 1536))) := by
  have hpos : ∀ y,m≤y → y < m+n → y%4096=y-m := by omega
  induction hd : n-i using Nat.strong_induction_on generalizing i g with
  | _ d ih =>
  rw [filewriteLoop] at hs
  by_cases hlt : i<n
  · have hmax : maxWrite=1536 := rfl
    have hoff : g.off=f.off+(m+i) := congrArg File.off h.stored
    rw [if_pos hlt,hoff,hmax] at hs
    dsimp only at hs
    split at hs
    · rename_i kept hfail
      obtain ⟨rfl,rfl⟩:=mk.inj (Option.some.inj hs)
      refine .inr ⟨rfl,m+i,kept,g,by omega,by omega,?_,h,hfail,?_⟩
      · rw [IsChunk,hpos (m+i) (by omega) (by omega)]
        omega
      · simp only [Nat.add_assoc,Nat.add_sub_add_left]
    rename_i a hsome
    split_ifs at hs with hfull
    rw [hfull] at hs
    simp only [← Nat.add_assoc] at hs
    refine ih _ (by omega) (i := i+min (n-i) 1536) (by omega) (by omega)
      ⟨Nat.add_assoc m i _ ▸ h.stored.extend _,fun y hy hyc => ?_⟩ hs rfl
    -- the only new operation is the one at `m + i`
    by_cases hlow : y < m+i
    · exact h.went y hlow hyc
    · rw [IsChunk,hpos y (by omega) (by omega)] at hyc
      obtain rfl : y=m+i := by omega
      simp [hsome]
  · obtain rfl : i=n := by omega
    rw [if_neg hlt,if_pos rfl] at hs
    obtain ⟨rfl,rfl⟩:=mk.inj (Option.some.inj hs)
    exact .inl ⟨rfl,h⟩

/-- The write operation at position `x` of a call for `n` bytes is reached, and fails. -/
structure BreaksAt (reply : ℕ → Reply) (u : UserBuf) (f : File) (n x kept : ℕ) : Prop where
  inside : x<n
  chunk : IsChunk x
  copied : ∀ q,4096*q≤x → u.readable (4096*q) (min (n-4096*q) 4096)=true
  went : ∀ y<x,IsChunk y → ∀ kept,reply (f.off+y)≠.fails kept
  fails : reply (f.off+x)=.fails kept

lemma BreaksAt.unique {x y k l : ℕ} (hx : BreaksAt reply u f n x k) (hy : BreaksAt reply u f n y l) : y=x ∧ l=k := by
  obtain rfl : y=x := le_antisymm (not_lt.mp fun hlt => hy.went _ hlt hx.chunk _ hx.fails)
    (not_lt.mp fun hlt => hx.went _ hlt hy.chunk _ hy.fails)
  exact ⟨rfl,Reply.fails.inj (hy.fails.symm.trans hx.fails)⟩

/-- An operation that fails does no harm at the start of a piece, where the bytes it keeps are the
ones the file had. -/
def Harmless (u : UserBuf) (f : File) (n x kept : ℕ) : Prop :=
  4096 ∣ x ∧ ∀ j < min kept (opSize n x),u.byte (x+j)=f.data (f.off+x+j)

/-- A result `r ≥ 0` is the number of bytes stored and the advance of the offset; -1 is a call
that did nothing. -/
structure Accounted (u : UserBuf) (f : File) (r : Int) (g : File) : Prop where
  stored : 0≤r → g.off=f.off+r.toNat ∧ g.data=patch f.data f.off u.byte r.toNat
  failed : r = -1 → g.off=f.off ∧ g.data=f.data

lemma Stored.accounted (h : Stored u.byte f r.toNat g) : Accounted u f r g where
  stored _ := ⟨congrArg File.off h,congrArg File.data h⟩
  failed hr := by
    subst hr
    cases h.trans (Stored.nothing u.byte f).symm
    exact ⟨rfl,rfl⟩

lemma stopped_accounted_iff {tot : ℕ} (hoff : g.off=f.off+tot) :
    Accounted u f (if 0<tot then (tot : Int) else -1) g ↔ g.data=patch f.data f.off u.byte tot := by
  by_cases htot : 0<tot
  · rw [if_pos htot]
    exact ⟨fun h => (h.stored (by omega)).2,fun h => ⟨fun _ => ⟨hoff,h⟩,by omega⟩⟩
  · obtain rfl : tot=0 := by omega
    rw [if_neg htot,patch_zero]
    exact ⟨fun h => (h.failed rfl).2,fun h => ⟨by omega,fun _ => ⟨hoff,h⟩⟩⟩
lemma stopped_accounted {tot : ℕ} (h : Stored u.byte f tot g) : Accounted u f (if 0<tot then (tot : Int) else -1) g :=
  (stopped_accounted_iff (congrArg File.off h)).mpr (congrArg File.data h)

lemma sysWriteLoop_accounted {cap q : ℕ} (hcap : ∀ q,min (n-4096*q) cap=min (n-4096*q) 4096)
    (hopen : f.valid=true ∧ f.writable=true) (hq : 4096*q<n) (h : Upto reply u.byte f (4096*q) g)
    (hread : ∀ p<q,u.readable (4096*p) (min (n-4096*p) 4096)=true)
    (hs : sysWriteLoop reply u n cap (4096*q) g=some (r,t)) :
    Accounted u f r t ↔ ∀ x kept,BreaksAt reply u f n x kept → Harmless u f n x kept := by
  induction hd : n-4096*q using Nat.strong_induction_on generalizing q g with
  | _ d ih =>
  -- a break is not among the operations that went through
  have hlate : ∀ x kept,BreaksAt reply u f n x kept → 4096*q≤x := fun x kept hx =>
    not_lt.mp fun hlt => h.went x hlt hx.chunk kept hx.fails
  have hvalid : ¬ (g.valid=false ∨ g.writable=false) := by
    rw [h.stored]
    simp [File.store,hopen]
  rw [sysWriteLoop,if_pos hq] at hs
  dsimp only at hs
  rw [hcap,filewrite,if_neg hvalid] at hs
  by_cases hcopy : u.readable (4096*q) (min (n-4096*q) 4096)=true
  · rw [if_pos hcopy] at hs
    have hrd : ∀ p≤q,u.readable (4096*p) (min (n-4096*p) 4096)=true := fun p hp => by
      rcases Nat.lt_or_eq_of_le hp with hp | rfl
      · exact hread p hp
      · exact hcopy
    split at hs
    · cases hs
    rename_i r' g' hfw
    rcases filewriteLoop_spec ⟨q,rfl⟩ (min_le_right _ _) (Nat.zero_le _) (.inl rfl) h hfw with
      ⟨rfl,hup⟩ | ⟨rfl,x,kept,g1,hx,hxn,hxc,hup,hfail,rfl⟩
    · rw [if_neg (by omega),if_neg (by omega),Int.toNat_natCast] at hs
      by_cases hlast : n≤4096*q+4096
      · -- the last piece
        rw [min_eq_left (by omega),Nat.add_sub_cancel' hq.le] at hup hs
        rw [sysWriteLoop,if_neg (lt_irrefl n)] at hs
        obtain ⟨rfl,rfl⟩:=mk.inj (Option.some.inj hs)
        exact iff_of_true (Stored.accounted hup.stored) fun x kept hx =>
          absurd hx.fails (hup.went x hx.inside hx.chunk kept)
      · rw [min_eq_right (by omega)] at hup hs
        exact ih _ (by omega) (q := q+1) (by omega) hup (fun p hp => hrd p (by omega)) hs rfl
    obtain ⟨rfl,rfl⟩:=mk.inj (Option.some.inj hs)
    have hbreak : BreaksAt reply u f n x kept := ⟨by omega,hxc,fun p hp => hrd p (by omega),hup.went,hfail⟩
    have hall : (∀ y kept',BreaksAt reply u f n y kept' → Harmless u f n y kept') ↔ Harmless u f n x kept :=
      ⟨fun h => h x kept hbreak,fun h y kept' hy => by obtain ⟨rfl,rfl⟩:=hbreak.unique hy; exact h⟩
    have hoff : (g1.keep (fun j => u.byte (x+j)) (min kept (min (4096*q+min (n-4096*q) 4096-x) 1536))).off =
        f.off+x := congrArg File.off hup.stored
    rw [hall]
    by_cases hfirst : x=4096*q
    · subst hfirst
      rw [stopped_accounted_iff hoff,Harmless,and_iff_right (Dvd.intro q rfl),← patch_add_eq_iff,← patch_patch]
      have hsize : min (4096*q+min (n-4096*q) 4096-4096*q) 1536=opSize n (4096*q) := by
        simp [opSize]
      rw [hsize,File.keep,hup.stored,File.store]
    refine iff_of_false (fun hacc => ?_) fun hharm => ?_
    · -- `filewrite` dropped the operations from `4096 * q` to `x`
      split_ifs at hacc
      · have := (hacc.stored (by omega)).1
        omega
      · have := (hacc.failed rfl).1
        omega
    · obtain ⟨p,hp⟩:=hharm.1
      omega
  · rw [if_neg hcopy] at hs
    obtain ⟨rfl,rfl⟩:=mk.inj (Option.some.inj hs)
    exact iff_of_true (stopped_accounted h.stored) fun x kept hx =>
      absurd (hx.copied q (hlate x kept hx)) hcopy

def Starts (heap : Bool) (f : File) (n : Int) : Prop := f.valid=true ∧ f.writable=true ∧ (n≤512 ∨ heap=true)

def emptyFile : File := ⟨true,true,fun _ => 0,0⟩
def wholeBuf : UserBuf := ⟨fun _ => 1,fun _ _ => true⟩

/-- The second transaction fails with nothing kept. -/
def secondFails (x : ℕ) : Reply := if x=1536 then .fails 0 else .stores 4096

end Auxv6.FileWrite
