import Auxv6.Vm.Vma

/-!
# The representation invariant of the VMA list

The ranges are non-empty, each ends before the next one starts, and they fit the array. The bound
`va_end <= vm_size` is kept by the calls that set `vm_size` themselves (`KeepsVmSize`).
-/

namespace Auxv6.Vm
open Machine List

def VaddrRange.Overlaps (a b : VaddrRange) : Prop := ∃ va,(a.vaStart≤va ∧ va<a.vaEnd) ∧ (b.vaStart≤va ∧ va<b.vaEnd)
def AddressSpace.StrictlySorted (as : AddressSpace) : Prop := as.vmas.Pairwise fun a b => a.vaStart<b.vaStart
def AddressSpace.NonEmpty (as : AddressSpace) : Prop := ∀ r∈as.vmas,r.vaStart<r.vaEnd
def AddressSpace.PairwiseDisjoint (as : AddressSpace) : Prop := as.vmas.Pairwise fun a b => ¬ a.Overlaps b
def AddressSpace.InsideVmSize (as : AddressSpace) : Prop := ∀ r∈as.vmas,r.vaEnd≤as.vmSize
def Tiled (l : List VaddrRange) : Prop := l.Pairwise (fun a b => a.vaEnd≤b.vaStart) ∧ ∀ r∈l,r.vaStart<r.vaEnd

structure AddressSpace.Rep (as : AddressSpace) : Prop where
  tiled : Tiled as.vmas
  cap : as.vmaCount≤as.vmaCap

variable {l : List VaddrRange} {ok : Bool} {n : ℕ}

lemma Tiled.disjoint (h : Tiled l) : l.Pairwise fun a b => ¬ a.Overlaps b := by
  refine h.1.imp fun {a b} hab => ?_
  rintro ⟨va,ha,hb⟩
  omega

variable {r v last x : VaddrRange}

lemma Tiled.cons (h : Tiled (r::l)) : (∀ x∈l,r.vaEnd≤x.vaStart) ∧ r.vaStart<r.vaEnd ∧ Tiled l := by
  obtain ⟨hp,hn⟩:=h
  rw [pairwise_cons] at hp
  exact ⟨hp.1,hn r (mem_cons_self ..),hp.2,fun x hx => hn x (mem_cons_of_mem _ hx)⟩

lemma tiled_cons (hl : ∀ x∈l,r.vaEnd≤x.vaStart) (hr : r.vaStart<r.vaEnd) (h : Tiled l) : Tiled (r::l) := by
  refine ⟨pairwise_cons.mpr ⟨hl,h.1⟩,?_⟩
  intro x hx
  rcases mem_cons.mp hx with rfl | hx
  · exact hr
  · exact h.2 x hx

lemma Tiled.sublist {l' : List VaddrRange} (hs : l'.Sublist l) (h : Tiled l) : Tiled l' :=
  ⟨h.1.sublist hs,fun r hr => h.2 r (hs.subset hr)⟩

lemma vmaScan_isSome (v : VaddrRange) (hv : v.vaStart<v.vaEnd) (l : List VaddrRange)
    (h : Tiled l) : (vmaScan v l).isSome ↔ ∀ r∈l,¬ v.Overlaps r := by
  induction l with
  | nil => simp [vmaScan]
  | cons r rest ih =>
    obtain ⟨hr,hne,hrest⟩:=h.cons
    simp only [vmaScan]
    split_ifs with h1 h2
    · -- the new range lies before `r`, hence before everything after `r`
      simp only [Option.isSome_some,true_iff]
      rintro x hx ⟨va,hva,hxa⟩
      rcases mem_cons.mp hx with rfl | hx
      · omega
      · have := hr x hx
        omega
    · simp only [Option.isSome_map,ih hrest,mem_cons,forall_eq_or_imp,iff_and_self]
      rintro _ ⟨va,hva,hra⟩
      omega
    · simp only [Option.isSome_none,Bool.false_eq_true,false_iff]
      intro hall
      refine hall r (mem_cons_self ..) ⟨max v.vaStart r.vaStart,?_,?_⟩ <;> omega

lemma vmaScan_insert (v : VaddrRange) (hv : v.vaStart<v.vaEnd) (l : List VaddrRange) (pos : ℕ)
    (h : Tiled l) (hs : vmaScan v l=some pos) : Tiled (l.insertIdx pos v) := by
  induction l generalizing pos with
  | nil =>
    cases hs
    exact tiled_cons (by simp) hv h
  | cons r rest ih =>
    obtain ⟨hr,hne,hrest⟩:=h.cons
    simp only [vmaScan] at hs
    split_ifs at hs with h1 h2
    · cases hs
      refine tiled_cons ?_ hv h
      intro x hx
      rcases mem_cons.mp hx with rfl | hx
      · exact h1
      · have := hr x hx
        omega
    · obtain ⟨p,hp,rfl⟩:=Option.map_eq_some_iff.mp hs
      refine tiled_cons ?_ hne (ih p hrest hp)
      intro x hx
      rcases eq_or_mem_of_mem_insertIdx hx with rfl | hx
      · omega
      · exact hr x hx

lemma vmaScan_le (v : VaddrRange) (l : List VaddrRange) (pos : ℕ) (hs : vmaScan v l=some pos) : pos≤l.length := by
  induction l generalizing pos with
  | nil =>
    simp only [vmaScan,Option.some.injEq] at hs
    omega
  | cons r rest ih =>
    simp only [vmaScan] at hs
    split_ifs at hs with h1 h2
    · simp only [Option.some.injEq] at hs
      omega
    obtain ⟨p,hp,rfl⟩:=Option.map_eq_some_iff.mp hs
    have := ih p hp
    simp only [length_cons]
    omega

lemma vmaEnsureCapacity_fail {ok : Bool} {as : AddressSpace} {need : ℕ}
    (h : (vmaEnsureCapacity ok as need).1<0) : ok=false := by
  cases ok with
  | false => rfl
  | true =>
    simp only [vmaEnsureCapacity] at h
    split_ifs at h <;> simp at h

lemma vmaEnsureCapacity_spec {ok : Bool} {as : AddressSpace} {need : ℕ} (h : ¬ (vmaEnsureCapacity ok as need).1<0) :
    need≤(vmaEnsureCapacity ok as need).2.vmaCap ∧ (vmaEnsureCapacity ok as need).2.vmSize=as.vmSize := by
  simp only [vmaEnsureCapacity] at h ⊢
  split_ifs at h ⊢ with h1 h2 h3
  · exact ⟨h1,rfl⟩
  · exact ⟨vmaNewcap_enough _ _ (by omega),rfl⟩
  · exact ⟨vmaNewcap_enough _ _ (by omega),rfl⟩
  all_goals simp at h

lemma vmaInsert_cases (ok : Bool) (as : AddressSpace) (v : VaddrRange) :
    (vmaInsert ok as v=(-1,as) ∧ (v.vaEnd≤v.vaStart ∨ vmaScan v as.vmas=none ∨ ok=false)) ∨
    ∃ pos,v.vaStart<v.vaEnd ∧ vmaScan v as.vmas=some pos ∧ (vmaInsert ok as v).1=0 ∧
      (vmaInsert ok as v).2.vmas=as.vmas.insertIdx pos v ∧ (vmaInsert ok as v).2.vmSize=as.vmSize ∧
      as.vmaCount+1≤(vmaInsert ok as v).2.vmaCap := by
  by_cases hv : v.vaEnd≤v.vaStart
  · exact .inl ⟨by simp [vmaInsert,hv],.inl hv⟩
  cases hs : vmaScan v as.vmas with
  | none => exact .inl ⟨by simp [vmaInsert,hs],.inr (.inl rfl)⟩
  | some pos =>
    by_cases hc : (vmaEnsureCapacity ok as (as.vmaCount+1)).1<0
    · exact .inl ⟨by simp [vmaInsert,hs,hc],.inr (.inr (vmaEnsureCapacity_fail hc))⟩
    obtain ⟨hcap,hsz⟩:=vmaEnsureCapacity_spec hc
    refine .inr ⟨pos,by omega,rfl,?_⟩
    simp only [vmaInsert,hv,hs,hc,if_false]
    exact ⟨trivial,trivial,hsz,hcap⟩

lemma vmaInsert_rep (ok : Bool) (as : AddressSpace) (v : VaddrRange) (h : as.Rep) : (vmaInsert ok as v).2.Rep := by
  rcases vmaInsert_cases ok as v with ⟨he,_⟩ | ⟨pos,hv,hs,_,hl,_,hcap⟩
  · rw [he]
    exact h
  refine ⟨?_,?_⟩
  · rw [hl]
    exact vmaScan_insert v hv as.vmas pos h.tiled hs
  · have hlen:=length_insertIdx_of_le_length (vmaScan_le v as.vmas pos hs) v
    simp only [AddressSpace.vmaCount,hl] at hcap ⊢
    omega

lemma mem_vmaInsert {ok : Bool} {as : AddressSpace} (hr : r∈(vmaInsert ok as v).2.vmas) : r=v ∨ r∈as.vmas := by
  rcases vmaInsert_cases ok as v with ⟨he,_⟩ | ⟨pos,_,_,_,hl,_⟩
  · rw [he] at hr
    exact .inr hr
  · rw [hl] at hr
    exact eq_or_mem_of_mem_insertIdx hr

lemma vmaInsert_vmSize (ok : Bool) (as : AddressSpace) (v : VaddrRange) : (vmaInsert ok as v).2.vmSize=as.vmSize := by
  rcases vmaInsert_cases ok as v with ⟨he,_⟩ | ⟨pos,_,_,_,_,hsz,_⟩
  · rw [he]
  · exact hsz

lemma vmaInsert_succeeds_iff (as : AddressSpace) (v : VaddrRange) (h : as.Rep) (hv : v.vaStart<v.vaEnd) :
    (vmaInsert true as v).1=0 ↔ ∀ r∈as.vmas,¬ v.Overlaps r := by
  rw [← vmaScan_isSome v hv as.vmas h.tiled]
  rcases vmaInsert_cases true as v with ⟨he,hwhy⟩ | ⟨pos,_,hs,hz,_⟩
  · rw [he]
    rcases hwhy with hw | hw | hw
    · omega
    · simp [hw]
    · simp at hw
  · simp [hz,hs]

lemma tiled_snoc : Tiled (l++[r]) ↔ Tiled l ∧ r.vaStart<r.vaEnd ∧ ∀ x∈l,x.vaEnd≤r.vaStart := by
  simp only [Tiled,pairwise_append,mem_append,mem_singleton,pairwise_singleton,true_and,forall_eq]
  constructor
  · rintro ⟨⟨hp,hl⟩,hn⟩
    exact ⟨⟨hp,fun x hx => hn x (.inl hx)⟩,hn r (.inr rfl),fun x hx => hl x hx⟩
  rintro ⟨⟨hp,hn⟩,hr,hl⟩
  refine ⟨⟨hp,fun x hx => hl x hx⟩,?_⟩
  rintro x (hx | rfl)
  · exact hn x hx
  · exact hr

lemma eq_dropLast_append (h : l.getLast? = some last) : l=l.dropLast++[last] := by
  obtain ⟨ys,rfl⟩:=getLast?_eq_some_iff.mp h
  simp

lemma Tiled.extendLast {newEnd : ℕ} (h : Tiled l) (hl : l.getLast? = some last)
    (hle : last.vaEnd≤newEnd) : Tiled (l.dropLast++[{last with vaEnd := newEnd}]) := by
  have hsplit:=eq_dropLast_append hl
  rw [hsplit,tiled_snoc] at h
  obtain ⟨hd,hne,hb⟩:=h
  refine tiled_snoc.mpr ⟨hd,?_,hb⟩
  simp only
  omega

lemma length_extendLast (hl : l.getLast? = some last) : (l.dropLast++[x]).length=l.length := by
  have hpos : l≠[] := by
    rintro rfl
    simp at hl
  have := length_pos_iff.mpr hpos
  simp only [length_append,length_dropLast,length_singleton]
  omega

lemma vmaShrinkRev_spec (n : ℕ) (l : List VaddrRange) (h : Tiled l.reverse) :
    Tiled (vmaShrinkRev n l).reverse ∧ (vmaShrinkRev n l).length≤l.length ∧ ∀ r∈vmaShrinkRev n l,r.vaEnd≤n := by
  induction l with
  | nil => exact ⟨h,le_rfl,by simp [vmaShrinkRev]⟩
  | cons r rest ih =>
    rw [reverse_cons,tiled_snoc] at h
    obtain ⟨hrest,hne,hbelow⟩:=h
    simp only [vmaShrinkRev]
    split_ifs with h1 h2
    · obtain ⟨ht,hlen,hend⟩:=ih hrest
      exact ⟨ht,by simp only [length_cons]; omega,hend⟩
    · refine ⟨?_,by simp,?_⟩
      · rw [reverse_cons,tiled_snoc]
        exact ⟨hrest,by simp only; omega,hbelow⟩
      intro x hx
      rcases mem_cons.mp hx with rfl | hx
      · exact le_rfl
      · have := hbelow x (mem_reverse.mpr hx)
        omega
    · refine ⟨?_,le_rfl,?_⟩
      · rw [reverse_cons,tiled_snoc]
        exact ⟨hrest,hne,hbelow⟩
      intro x hx
      rcases mem_cons.mp hx with rfl | hx
      · omega
      · have := hbelow x (mem_reverse.mpr hx)
        omega

inductive Grows (ok : Bool) (as : AddressSpace) (n : ℕ) : Int × AddressSpace → Prop
  | unchanged (e : Int) : Grows ok as n (e,as)
  | extend (last : VaddrRange) (t : Bool) (hlast : as.vmas.getLast? = some last)
      (hend : last.vaEnd≤n) (hsize : as.vmSize≤n) :
      Grows ok as n (0,{ as with
        vmas := as.vmas.dropLast++[{last with vaEnd := n}],vmSize := n,transitional := t })
  | append (v : VaddrRange) (t : Bool) (hend : v.vaEnd=n) (hsize : as.vmSize≤n) :
      Grows ok as n (0,{(vmaInsert ok as v).2 with vmSize := n,transitional := t})

lemma vmaExpand_grows (ok : Bool) (as : AddressSpace) (n : ℕ) : Grows ok as n (vmaExpand ok as n) := by
  simp only [vmaExpand]
  split_ifs with h1 h2 h3
  · exact .unchanged _
  · exact .unchanged _
  · split
    · exact .unchanged _
    · split_ifs with hm
      · exact .extend _ _ (by assumption) (by omega) (by omega)
      · exact .unchanged _
  · split
    · exact .append _ _ rfl (by omega)
    · split_ifs with hm
      · exact .extend _ _ (by assumption) (by omega) (by omega)
      · exact .append _ _ rfl (by omega)

lemma vmaReserveZerofill_grows (ok : Bool) (as : AddressSpace) (start end_ : ℕ) :
    Grows ok as end_ (vmaReserveZerofill ok as start end_) := by
  simp only [vmaReserveZerofill]
  split_ifs with h1 h2 h3
  · exact .unchanged _
  · exact .unchanged _
  · split
    · exact .unchanged _
    · split_ifs with hm
      · exact .extend _ _ (by assumption) (by omega) (by omega)
      · exact .unchanged _
  · split
    · exact .append _ (vmaInsert ok as _).2.transitional rfl (by omega)
    · split_ifs with hm
      · exact .extend _ _ (by assumption) (by omega) (by omega)
      · exact .append _ (vmaInsert ok as _).2.transitional rfl (by omega)

section Grows

variable {as : AddressSpace} {res : Int × AddressSpace}

lemma Grows.rep (hg : Grows ok as n res) (h : as.Rep) : res.2.Rep := by
  cases hg with
  | unchanged e => exact h
  | extend last t hlast hend hsize =>
    refine ⟨h.tiled.extendLast hlast hend,?_⟩
    simp only [AddressSpace.vmaCount,length_extendLast hlast]
    exact h.cap
  | append v t hend hsize =>
    have hi:=vmaInsert_rep ok as v h
    exact ⟨hi.tiled,hi.cap⟩

lemma Grows.insideVmSize (hg : Grows ok as n res) (h : as.InsideVmSize) : res.2.InsideVmSize := by
  cases hg with
  | unchanged e => exact h
  | extend last t hlast hend hsize =>
    intro r hr
    rcases mem_append.mp hr with hr | hr
    · exact (h r (mem_of_mem_dropLast hr)).trans hsize
    · rw [mem_singleton.mp hr]
  | append v t hend hsize =>
    intro r hr
    rcases mem_vmaInsert hr with rfl | hr
    · exact hend.le
    · exact (h r hr).trans hsize

lemma Grows.unchanged_of_fail (hg : Grows ok as n res) (hf : res.1<0) : res.2=as := by
  cases hg with
  | unchanged e => rfl
  | extend => simp at hf
  | append => simp at hf

end Grows

lemma vmaShrink_rep (as : AddressSpace) (n : ℕ) (h : as.Rep) : (vmaShrink as n).2.Rep := by
  simp only [vmaShrink]
  split_ifs with h1 h2
  · exact h
  · exact h
  obtain ⟨ht,hlen,_⟩:=vmaShrinkRev_spec n as.vmas.reverse (by simpa using h.tiled)
  refine ⟨ht,?_⟩
  have hcap:=h.cap
  simp only [AddressSpace.vmaCount,length_reverse] at hcap hlen ⊢
  omega

lemma vmaShrink_insideVmSize (as : AddressSpace) (n : ℕ) (h : as.Rep) (hi : as.InsideVmSize) :
    (vmaShrink as n).2.InsideVmSize := by
  simp only [vmaShrink]
  split_ifs with h1 h2
  · exact hi
  · exact hi
  · obtain ⟨_,_,hend⟩:=vmaShrinkRev_spec n as.vmas.reverse (by simpa using h.tiled)
    intro r hr
    exact hend r (mem_reverse.mp hr)

def Proghdr.pages (ph : Proghdr) : List ℕ :=
  segmentPages (pgrounddown ph.vaddr) (pgroundup ((ph.vaddr+ph.memsz)%wordMod))

lemma execMapLoadSegment_cases (ok : Bool) (mapPage : ℕ → Bool) (as : AddressSpace) (ph : Proghdr) :
    (execMapLoadSegment ok mapPage as ph).2=as ∨ (execMapLoadSegment ok mapPage as ph =
      (0,{(vmaInsert ok as ph.vma).2 with vmSize := max as.vmSize ph.vma.vaEnd})) ∨
    (execMapLoadSegment ok mapPage as ph=(-1,(vmaInsert ok as ph.vma).2) ∧ ¬ ph.pages.all mapPage=true) := by
  have hsz:=vmaInsert_vmSize ok as ph.vma
  simp only [execMapLoadSegment,Proghdr.pages]
  split_ifs with h1 h2 h3 h4 h5
  · exact .inl rfl
  · exact .inl rfl
  · exact .inl rfl
  · refine .inr (.inl ?_)
    rw [max_eq_right (by omega)]
  · refine .inr (.inl ?_)
    rw [max_eq_left (by omega),← hsz]
  · exact .inr (.inr ⟨rfl,h4⟩)

lemma execMapLoadSegment_rep (ok : Bool) (mapPage : ℕ → Bool) (as : AddressSpace)
    (ph : Proghdr) (h : as.Rep) : (execMapLoadSegment ok mapPage as ph).2.Rep := by
  have hi:=vmaInsert_rep ok as ph.vma h
  rcases execMapLoadSegment_cases ok mapPage as ph with he | he | ⟨he,_⟩
  · rw [he]
    exact h
  · rw [he]
    exact ⟨hi.tiled,hi.cap⟩
  · rw [he]
    exact hi

lemma addressSpaceDupVmas_spec {allocOk ok : Bool} {src dst : AddressSpace}
    (h : addressSpaceDupVmas allocOk ok src=some dst) :
    dst.vmas=src.vmas ∧ dst.vmSize=src.vmSize ∧ src.vmaCount≤dst.vmaCap := by
  simp only [addressSpaceDupVmas] at h
  split_ifs at h with h1 h2 h3
  · cases h
    exact ⟨rfl,rfl,(vmaEnsureCapacity_spec h3).1⟩
  cases h
  have hnil : src.vmas=[] := length_eq_zero_iff.mp (by
    simp only [AddressSpace.vmaCount] at h2
    omega)
  exact ⟨hnil.symm,rfl,by simp only [AddressSpace.vmaCount,hnil,length_nil]; omega⟩

end Auxv6.Vm
