import Auxv6.File.Fdtable

/-!
# What the table functions do

A table is read as the map from descriptors to files below its capacity.
-/

namespace Auxv6.File
open Machine Lib Function

def slots : ℕ := 1024
def Fdtable.get (ft : Fdtable) (i : ℕ) : Option FileId := if i<ft.capacity then ft.entries i else none
def Fdtable.flag (ft : Fdtable) (i : ℕ) : Bool := if i<ft.capacity then ft.fdflags i else false

structure TableInv (ft : Fdtable) : Prop where
  nfds_le : ft.nfds≤ft.capacity
  cap_ge : 32≤ft.capacity
  cap_le : ft.capacity ≤ slots
  null : ∀ i,ft.nfds ≤ i → i<ft.capacity → ft.entries i=none
  hint : ∀ i<ft.nextFdHint,ft.get i≠none
  flags : ∀ i,ft.get i=none → ft.flag i=false

structure Same (ft ft' : Fdtable) : Prop where
  get : ft'.get=ft.get
  flag : ft'.flag=ft.flag
  hint : ft'.nextFdHint=ft.nextFdHint
  cap : ft.capacity≤ft'.capacity

variable {ft ft' : Fdtable} {i n fd : ℕ}

lemma Same.refl (ft : Fdtable) : Same ft ft := ⟨rfl,rfl,rfl,le_rfl⟩
lemma Same.trans {ft'' : Fdtable} (h : Same ft ft') (h' : Same ft' ft'') : Same ft ft'' :=
  ⟨h'.get.trans h.get,h'.flag.trans h.flag,h'.hint.trans h.hint,h.cap.trans h'.cap⟩
lemma get_of_lt (h : i<ft.capacity) : ft.get i=ft.entries i := if_pos h
lemma flag_of_lt (h : i<ft.capacity) : ft.flag i=ft.fdflags i := if_pos h
lemma lt_of_get {f : FileId} (h : ft.get i=some f) : i<ft.capacity := by
  unfold Fdtable.get at h
  split_ifs at h with hi
  exact hi

section
variable (h : TableInv ft)
include h

lemma TableInv.lt_nfds (hi : ft.get i≠none) : i<ft.nfds := by
  obtain ⟨f,hf⟩:=Option.ne_none_iff_exists'.mp hi
  by_contra hn
  have hlt:=lt_of_get hf
  rw [get_of_lt hlt,h.null i (by omega) hlt] at hf
  cases hf

lemma expand_spec {mem : Option Page} (he : ft.expand mem=some ft') :
    TableInv ft' ∧ Same ft ft' ∧ ft'.nfds=ft.nfds ∧ ft'.capacity=newCapacity ft.capacity := by
  have hcap : ft.capacity<newCapacity ft.capacity := by
    unfold newCapacity
    split_ifs <;> omega
  simp only [Fdtable.expand] at he
  split_ifs at he with hbytes hflags
  cases mem with
  | none => cases he
  | some page =>
    injection he with he
    have hget : ∀ i,ft'.get i=ft.get i := by
      intro i
      subst he
      by_cases hi : i<ft.capacity
      · simp [Fdtable.get,hi,hi.trans hcap]
      · by_cases hn : i<newCapacity ft.capacity <;> simp [Fdtable.get,hi,hn]
    have hflag : ∀ i,ft'.flag i=ft.flag i := by
      intro i
      subst he
      by_cases hi : i<ft.capacity
      · simp [Fdtable.flag,hi,hi.trans hcap]
      · by_cases hn : i<newCapacity ft.capacity <;> simp [Fdtable.flag,hi,hn]
    subst he
    refine ⟨⟨?_,?_,?_,?_,?_,?_⟩,⟨funext hget,funext hflag,rfl,hcap.le⟩,rfl,rfl⟩
    · exact h.nfds_le.trans hcap.le
    · exact h.cap_ge.trans hcap.le
    · have hb : ¬ newCapacity ft.capacity*4 > 4096 := hbytes
      show newCapacity ft.capacity≤1024
      omega
    · intro i hi hlt
      by_cases hic : i<ft.capacity
      · simp [hic,h.null i hi hic]
      · have hlt : i<newCapacity ft.capacity := hlt
        simp [hic,hlt]
    · intro i hi
      rw [hget]
      exact h.hint i hi
    · intro i hi
      rw [hget] at hi
      rw [hflag]
      exact h.flags i hi

lemma grow_spec (mem : ℕ → Option Page) (need k : ℕ) :
    TableInv (ft.grow mem need k).1 ∧ Same ft (ft.grow mem need k).1 ∧
      ((ft.grow mem need k).2=true → need≤(ft.grow mem need k).1.capacity) := by
  induction k generalizing ft with
  | zero => exact ⟨h,Same.refl ft,fun hk => of_decide_eq_true hk⟩
  | succ k ih =>
    unfold Fdtable.grow
    split_ifs with hneed
    · exact ⟨h,Same.refl ft,fun _ => hneed⟩
    cases he : ft.expand (mem k) with
    | none => exact ⟨h,Same.refl ft,fun hf => by cases hf⟩
    | some ft' =>
      obtain ⟨h',hsame,-,-⟩:=expand_spec h he
      obtain ⟨hinv,hs,hn⟩:=ih h'
      exact ⟨hinv,hsame.trans hs,hn⟩

lemma grow_succeeds {mem : ℕ → Option Page} (hmem : ∀ k,(mem k).isSome)
    {need : ℕ} (hneed : need≤nofileHard) : (ft.grow mem need growTurns).2=true := by
  have hstep : ∀ (ft : Fdtable) (k : ℕ),ft.capacity<nofileHard → ∃ ft',ft.expand (mem k)=some ft' := by
    intro ft k hlt
    obtain ⟨page,hp⟩:=Option.isSome_iff_exists.mp (hmem k)
    have hcap : newCapacity ft.capacity≤1024 := by
      have : ft.capacity<512 := hlt
      unfold newCapacity
      split_ifs <;> omega
    have h4 : ¬ newCapacity ft.capacity*4 > pgsize := by
      show ¬ _ > 4096
      omega
    have h1 : ¬ newCapacity ft.capacity > pgsize := by
      omega
    simp [Fdtable.expand,h4,h1,hp]
  -- two expansions are enough
  have hone : ∀ {ft : Fdtable} (k : ℕ),288≤ft.capacity → TableInv ft → (ft.grow mem need (k+2)).2=true := by
    intro ft k hge h
    unfold Fdtable.grow
    split_ifs with hlt
    · rfl
    obtain ⟨ft',he⟩:=hstep ft (k+1) (by omega)
    obtain ⟨_,_,_,hcap⟩:=expand_spec h he
    have hcap' : need≤ft'.capacity := by
      have : need≤512 := hneed
      rw [hcap]
      unfold newCapacity
      split_ifs <;> omega
    rw [he]
    dsimp only
    unfold Fdtable.grow
    rw [if_pos hcap']
  unfold growTurns Fdtable.grow
  split_ifs with hlt
  · rfl
  obtain ⟨ft',he⟩:=hstep ft 4 (by omega)
  obtain ⟨h',_,_,hcap⟩:=expand_spec h he
  rw [he]
  refine hone 2 ?_ h'
  have := h.cap_ge
  rw [hcap]
  unfold newCapacity
  split_ifs <;> omega

lemma TableInv.setNfds (hle : ft.nfds≤n) (hn : n≤ft.capacity) : TableInv {ft with nfds := n} :=
  ⟨hn,h.cap_ge,h.cap_le,fun i hi hlt => h.null i (hle.trans hi) hlt,h.hint,h.flags⟩

lemma ensureSlot_spec (mem : ℕ → Option Page) (fd : ℕ) :
    TableInv (ft.ensureSlot mem fd).1 ∧ Same ft (ft.ensureSlot mem fd).1 ∧
      ((ft.ensureSlot mem fd).2=true → fd<(ft.ensureSlot mem fd).1.nfds) := by
  obtain ⟨hinv,hsame,hn⟩:=grow_spec h mem (fd+1) growTurns
  unfold Fdtable.ensureSlot
  generalize ft.grow mem (fd+1) growTurns=r at hinv hsame hn
  obtain ⟨g,ok⟩:=r
  cases ok with
  | false => exact ⟨hinv,hsame,fun hf => by cases hf⟩
  | true =>
    have hcap : fd+1≤g.capacity := hn rfl
    have hnfds:=hinv.nfds_le
    refine ⟨hinv.setNfds ?_ ?_,⟨hsame.get,hsame.flag,hsame.hint,hsame.cap⟩,fun _ => ?_⟩
    all_goals
      dsimp only at *
      split_ifs <;> omega

end

structure Sets (ft ft' : Fdtable) (fd : ℕ) (o : Option FileId) (b : Bool) : Prop where
  lt : fd<ft'.capacity
  get : ft'.get=update ft.get fd o
  flag : ft'.flag=update ft.flag fd b

lemma Same.sets {ft'' : Fdtable} (h : Same ft ft') {o : Option FileId} {b : Bool}
    (hs : Sets ft' ft'' fd o b) : Sets ft ft'' fd o b :=
  ⟨hs.lt,by rw [hs.get,h.get],by rw [hs.flag,h.flag]⟩

lemma sets_update (hfd : fd<ft.capacity) (o : Option FileId) (b : Bool) (nfds hint : ℕ) :
    Sets ft ⟨update ft.entries fd o,update ft.fdflags fd b,ft.capacity,nfds,hint⟩ fd o b := by
  refine ⟨hfd,funext fun i => ?_,funext fun i => ?_⟩
  · by_cases hi : i=fd
    · subst hi
      simp [Fdtable.get,hfd]
    · simp [Fdtable.get,hi]
  by_cases hi : i=fd
  · subst hi
    simp [Fdtable.flag,hfd]
  · simp [Fdtable.flag,hi]

lemma TableInv.fill (h : TableInv ft) (hfd : fd<ft.nfds) (f : FileId) (b : Bool)
    (hint : ℕ) (hhint : ∀ i<hint,i=fd ∨ ft.get i≠none) :
    TableInv ⟨update ft.entries fd (some f),update ft.fdflags fd b,ft.capacity,ft.nfds,hint⟩ := by
  have hcap : fd<ft.capacity := hfd.trans_le h.nfds_le
  have hs:=sets_update hcap (some f) b ft.nfds hint
  refine ⟨h.nfds_le,h.cap_ge,h.cap_le,fun i hi hlt => ?_,fun i hi => ?_,fun i hi => ?_⟩
  · have hne : i≠fd := by
      have : ft.nfds ≤ i := hi
      omega
    show update ft.entries fd (some f) i=none
    rw [update_of_ne hne]
    exact h.null i hi hlt
  · rw [hs.get,update_apply]
    split_ifs with hif
    · simp
    · exact (hhint i hi).resolve_left hif
  · rw [hs.get,update_apply] at hi
    rw [hs.flag,update_apply]
    split_ifs at hi ⊢ with hif
    exact h.flags i hi

inductive Scanned (ft ft' : Fdtable) (f : FileId) (b : Bool) (fd n : ℕ) : Option ℕ → Prop
  | found {r : ℕ} (hle : fd≤r) (hlt : r<fd+n) (free : ft.get r=none)
      (below : ∀ j,fd≤j → j<r → ft.get j≠none) (sets : Sets ft ft' r (some f) b) :
      Scanned ft ft' f b fd n (some r)
  | full (same : Same ft ft') (all : ∀ j,fd≤j → j<fd+n → ft.get j≠none) :
      Scanned ft ft' f b fd n none

lemma Scanned.later {g : Fdtable} {f : FileId} {b : Bool} {o : Option ℕ} (hsame : Same ft g)
    (hopen : ft.get fd≠none) (h : Scanned g ft' f b (fd+1) n o) : Scanned ft ft' f b fd (n+1) o := by
  cases h with
  | found hle hlt free below sets =>
    rw [hsame.get] at free below
    refine .found (by omega) (by omega) free (fun j h1 h2 => ?_) (hsame.sets sets)
    by_cases hj : j=fd
    · rw [hj]
      exact hopen
    · exact below j (by omega) h2
  | full same all =>
    rw [hsame.get] at all
    refine .full (hsame.trans same) fun j h1 h2 => ?_
    by_cases hj : j=fd
    · rw [hj]
      exact hopen
    · exact all j (by omega) (by omega)

lemma scan_spec (f : FileId) (limit : ℕ) (h : TableInv ft) (hcap : fd+n≤ft.capacity)
    (hbelow : ∀ i<fd,ft.get i≠none) : TableInv (ft.scan f limit n fd).1 ∧
      Scanned ft (ft.scan f limit n fd).1 f false fd n (ft.scan f limit n fd).2 := by
  induction n generalizing fd ft with
  | zero => exact ⟨h,.full (Same.refl ft) fun j _ _ => by omega⟩
  | succ n ih =>
    -- the mark is raised to cover the descriptor
    have hraise : ∃ g : Fdtable,(if fd ≥ ft.nfds then {ft with nfds := fd+1} else ft)=g ∧
        TableInv g ∧ Same ft g ∧ g.capacity=ft.capacity ∧ fd<g.nfds := by
      split_ifs with hfd
      · exact ⟨_,rfl,h.setNfds (by omega) (by omega),⟨rfl,rfl,rfl,le_rfl⟩,rfl,Nat.lt_succ_self fd⟩
      · exact ⟨_,rfl,h,Same.refl ft,rfl,by omega⟩
    obtain ⟨g,hg,hinv,hsame,hgcap,hgn⟩:=hraise
    have hfdcap : fd<g.capacity := by omega
    have hgget : ft.get fd=g.entries fd := by rw [← hsame.get,get_of_lt hfdcap]
    rw [← hsame.get] at hbelow
    unfold Fdtable.scan
    rw [hg]
    by_cases hfree : g.entries fd=none
    · rw [if_pos hfree]
      -- a free descriptor has no flag
      have hoff : g.fdflags fd=false := by
        rw [← flag_of_lt hfdcap]
        exact hinv.flags fd ((get_of_lt hfdcap).trans hfree)
      have hflag : update g.fdflags fd false=g.fdflags := by
        rw [← hoff,update_eq_self]
      have hfill:=hinv.fill hgn f false (if fd+1 ≥ limit then 0 else fd+1) fun i hi => by
        by_cases hif : i=fd
        · exact .inl hif
        · refine .inr (hbelow i ?_)
          split_ifs at hi <;> omega
      have hsets:=sets_update hfdcap (some f) false g.nfds (if fd+1 ≥ limit then 0 else fd+1)
      rw [hflag] at hfill hsets
      exact ⟨hfill,.found le_rfl (by omega) (hgget.trans hfree) (fun j h1 h2 => by omega) (hsame.sets hsets)⟩
    · rw [if_neg hfree]
      have hopen : ft.get fd≠none := by rwa [hgget]
      obtain ⟨hres,hscan⟩:=ih hinv (show fd+1+n≤g.capacity by omega) fun i hi => by
        by_cases hif : i=fd
        · rw [hif,hsame.get]
          exact hopen
        · exact hbelow i (by omega)
      exact ⟨hres,hscan.later hsame hopen⟩

lemma dupScan_spec (f : FileId) (cloexec : Bool) (mem : ℕ → ℕ → Option Page) (h : TableInv ft) :
    TableInv (ft.dupScan f cloexec mem n i).1 ∧
      ((ft.dupScan f cloexec mem n i).2=none → Same ft (ft.dupScan f cloexec mem n i).1) ∧
      ∀ r,(ft.dupScan f cloexec mem n i).2=some r →
        ft.get r=none ∧ Sets ft (ft.dupScan f cloexec mem n i).1 r (some f) cloexec := by
  induction n generalizing i ft with
  | zero => exact ⟨h,fun _ => Same.refl ft,fun r hr => by cases hr⟩
  | succ n ih =>
    obtain ⟨hinv,hsame,hn⟩:=ensureSlot_spec h (mem i) i
    unfold Fdtable.dupScan
    generalize ft.ensureSlot (mem i) i=e at hinv hsame hn
    obtain ⟨g,ok⟩:=e
    cases ok with
    | false => exact ⟨hinv,fun _ => hsame,fun r hr => by cases hr⟩
    | true =>
      have hi : i<g.nfds := hn rfl
      have hcap : i<g.capacity := hi.trans_le hinv.nfds_le
      dsimp only
      by_cases hfree : g.entries i=none
      · rw [if_pos hfree]
        have hget : ft.get i=none := by rw [← hsame.get,get_of_lt hcap,hfree]
        refine ⟨hinv.fill hi f cloexec g.nextFdHint fun j hj => .inr (hinv.hint j hj),
          fun hr => (by cases hr),fun r hr => ?_⟩
        cases hr
        exact ⟨hget,hsame.sets (sets_update hcap (some f) cloexec g.nfds g.nextFdHint)⟩
      · rw [if_neg hfree]
        obtain ⟨hres,hnone,hsome⟩:=ih (i := i+1) hinv
        refine ⟨hres,fun hr => hsame.trans (hnone hr),fun r hr => ?_⟩
        obtain ⟨hget,hsets⟩:=hsome r hr
        exact ⟨by rw [← hsame.get]; exact hget,hsame.sets hsets⟩

lemma fdalloc_spec (h : TableInv ft) (f : FileId) (limit : ℕ) (mem : ℕ → Option Page) :
    TableInv (ft.fdalloc f limit mem).1 ∧ ((ft.fdalloc f limit mem).2=none → Same ft (ft.fdalloc f limit mem).1 ∧
        ((ft.grow mem limit growTurns).2=true → ∀ j<limit,ft.get j≠none)) ∧
      ∀ r,(ft.fdalloc f limit mem).2=some r → r<limit ∧ ft.get r=none ∧
        (∀ j<r,ft.get j≠none) ∧ Sets ft (ft.fdalloc f limit mem).1 r (some f) false := by
  obtain ⟨hinv,hsame,hn⟩:=grow_spec h mem limit growTurns
  unfold Fdtable.fdalloc
  generalize ft.grow mem limit growTurns=e at hinv hsame hn
  obtain ⟨g,ok⟩:=e
  cases ok with
  | false => exact ⟨hinv,fun _ => ⟨hsame,fun hf => by cases hf⟩,fun r hr => by cases hr⟩
  | true =>
    have hcap : limit≤g.capacity := hn rfl
    dsimp only
    -- the scan starts at the hint or at 0, and every descriptor below is open
    obtain ⟨start,hstart,hle,hbelow⟩ : ∃ start,(if (if g.nextFdHint ≥ limit then 0 else g.nextFdHint) ≥ g.nfds then 0
          else if g.nextFdHint ≥ limit then 0 else g.nextFdHint)=start ∧ start≤limit ∧ ∀ i<start,g.get i≠none := by
      refine ⟨_,rfl,?_,fun i hi => hinv.hint i ?_⟩
      all_goals split_ifs at * <;> omega
    rw [hstart]
    obtain ⟨hfirst,hscan⟩:=scan_spec f limit hinv (show start+(limit-start)≤g.capacity by omega) hbelow
    generalize g.scan f limit (limit-start) start=e at hfirst hscan
    obtain ⟨g',o⟩:=e
    dsimp only at hfirst hscan
    cases hscan with
    | found hr hlt free below sets =>
      refine ⟨hfirst,fun hf => (by cases hf),fun r hr' => ?_⟩
      cases hr'
      rw [hsame.get] at free below hbelow
      refine ⟨by omega,free,fun j hj => ?_,hsame.sets sets⟩
      by_cases hjs : j<start
      · exact hbelow j hjs
      · exact below j (by omega) hj
    | full same all =>
      dsimp only
      -- nothing is free from the start on, and nothing below it
      have hall : ∀ j<limit,ft.get j≠none := by
        rw [hsame.get] at all hbelow
        intro j hj
        by_cases hjs : j<start
        · exact hbelow j hjs
        · exact all j (by omega) (by omega)
      have hcap' : (if start<limit then start else limit)≤g'.capacity := by
        have := same.cap
        split_ifs <;> omega
      obtain ⟨hsecond,hscan⟩:=scan_spec f limit hfirst
        (show 0+(if start<limit then start else limit)≤g'.capacity by omega)
        fun i hi => by omega
      generalize g'.scan f limit (if start<limit then start else limit) 0=e at hsecond hscan
      obtain ⟨g'',o⟩:=e
      cases hscan with
      | found hr hlt free below sets =>
        rw [same.get,hsame.get] at free
        exact absurd free (hall _ (by split_ifs at hlt <;> omega))
      | full same' _ =>
        exact ⟨hsecond,fun _ => ⟨hsame.trans (same.trans same'),fun _ => hall⟩,fun r hr => by cases hr⟩

lemma trimNfds_le (entries : ℕ → Option FileId) (n : ℕ) : trimNfds entries n≤n := by
  induction n with
  | zero => exact le_rfl
  | succ n ih =>
    unfold trimNfds
    split_ifs
    · exact ih.trans (Nat.le_succ n)
    · exact le_rfl

lemma trimNfds_null (entries : ℕ → Option FileId) (n : ℕ) : ∀ i,trimNfds entries n ≤ i → i<n → entries i=none := by
  induction n with
  | zero => exact fun i _ hi => by omega
  | succ n ih =>
    intro i hle hlt
    unfold trimNfds at hle
    split_ifs at hle with hn
    · by_cases hi : i=n
      · rw [hi,hn]
      · exact ih i hle (by omega)
    · omega

lemma TableInv.trim (h : TableInv ft) {entries : ℕ → Option FileId} {fdflags : ℕ → Bool}
    {hint : ℕ} (hentries : ∀ i,entries i=ft.entries i ∨ entries i=none)
    (hflags : ∀ i,i<ft.capacity → entries i=none → fdflags i=false)
    (hhint : ∀ i<hint,i<ft.nextFdHint ∧ entries i=ft.entries i) :
    TableInv ⟨entries,fdflags,ft.capacity,trimNfds entries ft.nfds,hint⟩ := by
  have hle:=trimNfds_le entries ft.nfds
  refine ⟨hle.trans h.nfds_le,h.cap_ge,h.cap_le,fun i hi hlt => ?_,fun i hi => ?_,fun i hi => ?_⟩
  · by_cases hin : i<ft.nfds
    · exact trimNfds_null entries ft.nfds i hi hin
    · rcases hentries i with he | he
      · exact he.trans (h.null i (by omega) hlt)
      · exact he
  · obtain ⟨hlt,he⟩:=hhint i hi
    have hget:=h.hint i hlt
    unfold Fdtable.get at hget ⊢
    rw [← he] at hget
    exact hget
  · by_cases hlt : i<ft.capacity
    · have hnone : entries i=none := by
        rw [← hi]
        exact (if_pos hlt).symm
      exact (if_pos hlt).trans (hflags i hlt hnone)
    · exact if_neg hlt

lemma clear_spec (h : TableInv ft) (hfd : fd<ft.nfds) :
    TableInv (ft.clear fd) ∧ Sets ft (ft.clear fd) fd none false ∧ (ft.clear fd).capacity=ft.capacity := by
  have hcap : fd<ft.capacity := hfd.trans_le h.nfds_le
  have hclear : ft.clear fd=⟨update ft.entries fd none,update ft.fdflags fd false,
      ft.capacity,trimNfds (update ft.entries fd none) ft.nfds,if fd<ft.nextFdHint then fd else ft.nextFdHint⟩ := by
    unfold Fdtable.clear
    rw [if_neg (by omega)]
  rw [hclear]
  refine ⟨h.trim (fun i => ?_) (fun i hlt hi => ?_) fun i hi => ?_,sets_update hcap none false _ _,rfl⟩
  · by_cases hif : i=fd
    · exact .inr (by rw [hif,update_self])
    · exact .inl (update_of_ne hif ..)
  · by_cases hif : i=fd
    · rw [hif,update_self]
    · rw [update_of_ne hif] at hi ⊢
      rw [← flag_of_lt hlt]
      exact h.flags i ((get_of_lt hlt).trans hi)
  · have hif : i≠fd ∧ i<ft.nextFdHint := by split_ifs at hi <;> omega
    exact ⟨hif.2,update_of_ne hif.1 ..⟩

end Auxv6.File
