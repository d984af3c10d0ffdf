import Mathlib.Tactic

/-!
# Circular free lists in address order

A sequence of blocks with a gap after each of them, in memory a cycle of links through a sentinel.
-/

namespace Auxv6.Lib.FreeList
open List Nat

abbrev Block := ℕ × ℕ

def Apart (x y : Block) : Prop := x.1+x.2≤y.1 ∨ y.1+y.2≤x.1

variable {x b p : Block} {a c stop : ℕ} {ns ms : List ℕ}

lemma Apart.symm {y : Block} (h : Apart x y) : Apart y x := h.elim .inr .inl

def Gapped (l : List Block) : Prop := l.Pairwise fun x y => x.1+x.2<y.1
def joinRight (b : Block) : List Block → List Block
  | [] => [b]
  | y::ys => if b.1+b.2=y.1 then (b.1,b.2+y.2)::ys else b::y::ys
def insertAt (xs : List Block) (b : Block) (ys : List Block) : List Block :=
  match xs.getLast? with
  | none => joinRight b ys
  | some p => if p.1+p.2=b.1 then xs.dropLast++joinRight (p.1,p.2+b.2) ys else xs++joinRight b ys
def Joins (Q : Block → Prop) : Prop := ∀ x y : Block,x.1+x.2=y.1 → Q x → Q y → Q (x.1,x.2+y.2)

variable {Q : Block → Prop} {xs ys l zs : List Block}

lemma forall_joinRight (hQ : Joins Q) (hb : Q b) (hys : ∀ y∈ys,Q y) : ∀ z∈joinRight b ys,Q z := by
  intro z hz
  cases ys with
  | nil =>
    rw [joinRight,mem_singleton] at hz
    exact hz ▸ hb
  | cons y ys =>
    rw [joinRight] at hz
    split at hz
    next htouch =>
      rcases mem_cons.mp hz with rfl | hz
      · exact hQ b y htouch hb (hys y (mem_cons_self ..))
      · exact hys z (mem_cons_of_mem _ hz)
    · rcases mem_cons.mp hz with rfl | hz
      · exact hb
      · exact hys z hz

lemma forall_insertAt (hQ : Joins Q) (hxs : ∀ x∈xs,Q x) (hb : Q b) (hys : ∀ y∈ys,Q y) : ∀ z∈insertAt xs b ys,Q z := by
  intro z hz
  rw [insertAt] at hz
  split at hz
  · exact forall_joinRight hQ hb hys z hz
  rename_i p hp
  have hmem : p∈xs := mem_of_getLast? hp
  split at hz
  next htouch =>
    rcases mem_append.mp hz with hz | hz
    · exact hxs z (mem_of_mem_dropLast hz)
    · exact forall_joinRight hQ (hQ p b htouch (hxs p hmem) hb) hys z hz
  · rcases mem_append.mp hz with hz | hz
    · exact hxs z hz
    · exact forall_joinRight hQ hb hys z hz

lemma gapped_joinRight (hys : Gapped ys) (hb : ∀ y∈ys,b.1+b.2≤y.1) : Gapped (joinRight b ys) := by
  cases ys with
  | nil => exact pairwise_singleton ..
  | cons y ys =>
    obtain ⟨hy,htail⟩:=pairwise_cons.mp hys
    have hle:=hb y (mem_cons_self ..)
    rw [joinRight]
    split
    next htouch =>
      refine pairwise_cons.mpr ⟨fun z hz => ?_,htail⟩
      have := hy z hz
      omega
    refine pairwise_cons.mpr ⟨fun z hz => ?_,hys⟩
    rcases mem_cons.mp hz with rfl | hz
    · omega
    · have := hy z hz
      omega

lemma joinRight_ge (hb : ∀ y∈ys,b.1≤y.1) : ∀ z∈joinRight b ys,b.1≤z.1 := by
  intro z hz
  cases ys with
  | nil =>
    rw [joinRight,mem_singleton] at hz
    rw [hz]
  | cons y ys =>
    rw [joinRight] at hz
    split at hz
    · rcases mem_cons.mp hz with rfl | hz
      · exact le_rfl
      · exact hb z (mem_cons_of_mem _ hz)
    · rcases mem_cons.mp hz with rfl | hz
      · exact le_rfl
      · exact hb z hz

lemma gapped_insertAt (hl : Gapped (xs++ys)) (hxs : ∀ x∈xs,x.1+x.2≤b.1)
    (hys : ∀ y∈ys,b.1+b.2≤y.1) : Gapped (insertAt xs b ys) := by
  obtain ⟨hgx,hgy,-⟩:=pairwise_append.mp hl
  rw [insertAt]
  split
  · exact gapped_joinRight hgy hys
  rename_i p hp
  have hsplit : xs=xs.dropLast++[p] := (dropLast_append_getLast? p hp).symm
  have hmem : p∈xs := mem_of_getLast? hp
  have hpre : ∀ x∈xs.dropLast,x.1+x.2<p.1 := by
    rw [hsplit] at hgx
    intro x hx
    exact (pairwise_append.mp hgx).2.2 x hx p (mem_singleton_self p)
  split
  next htouch =>
    -- the block extends its left neighbour
    refine pairwise_append.mpr ⟨hgx.sublist (dropLast_sublist _),?_,fun x hx z hz => ?_⟩
    · refine gapped_joinRight hgy fun y hy => ?_
      have := hys y hy
      omega
    have hz':=joinRight_ge (b := (p.1,p.2+b.2)) (fun y hy => by
      have := hys y hy
      omega) z hz
    have := hpre x hx
    omega
  rename_i hgap
  refine pairwise_append.mpr ⟨hgx,gapped_joinRight hgy hys,fun x hx z hz => ?_⟩
  have hz':=joinRight_ge (fun y hy => by have := hys y hy; omega) z hz
  have hx' : x.1+x.2<b.1 := by
    rw [hsplit,mem_append,mem_singleton] at hx
    rcases hx with hx | rfl
    · have := hpre x hx
      have := hxs p hmem
      omega
    · have := hxs x hmem
      omega
  omega

lemma exists_place (hl : Gapped l) (hap : ∀ x∈l,Apart x b) :
    ∃ xs ys,l=xs++ys ∧ (∀ x∈xs,x.1+x.2≤b.1) ∧ ∀ y∈ys,b.1+b.2≤y.1 := by
  induction l with
  | nil => exact ⟨[],[],rfl,by simp,by simp⟩
  | cons x l ih =>
    obtain ⟨hx,htail⟩:=pairwise_cons.mp hl
    rcases hap x (mem_cons_self ..) with hlow | hhigh
    · obtain ⟨xs,ys,rfl,h1,h2⟩:=ih htail fun y hy => hap y (mem_cons_of_mem _ hy)
      refine ⟨x::xs,ys,rfl,fun z hz => ?_,h2⟩
      rcases mem_cons.mp hz with rfl | hz
      · exact hlow
      · exact h1 z hz
    · refine ⟨[],x::l,rfl,by simp,fun z hz => ?_⟩
      rcases mem_cons.mp hz with rfl | hz
      · exact hhigh
      · have := hx z hz
        omega

lemma joins_within {lo hi : ℕ} : Joins fun x => lo≤x.1 ∧ 0<x.2 ∧ x.1+x.2≤hi := by
  intro x y htouch hx hy
  omega
lemma insertAt_nil : insertAt [] b ys=joinRight b ys := rfl
lemma insertAt_concat : insertAt (xs++[p]) b ys =
    if p.1+p.2=b.1 then xs++joinRight (p.1,p.2+b.2) ys else xs++p::joinRight b ys := by
  simp [insertAt,getLast?_append]

lemma joinRight_suffix (h : joinRight b ys=x::zs) : zs <:+ ys ∧ b.2≤x.2 := by
  cases ys with
  | nil =>
    rw [joinRight,cons.injEq] at h
    exact ⟨h.2 ▸ suffix_refl _,h.1 ▸ le_rfl⟩
  | cons y ys =>
    rw [joinRight] at h
    split at h
    · rw [cons.injEq] at h
      exact ⟨h.2 ▸ suffix_cons y ys,h.1 ▸ Nat.le_add_right ..⟩
    · rw [cons.injEq] at h
      exact ⟨h.2 ▸ suffix_refl _,h.1 ▸ le_rfl⟩

lemma joinRight_shift {n : ℕ} (htouch : p.1+p.2=b.1)
    (h : joinRight b ys=(b.1,n)::zs) : joinRight (p.1,p.2+b.2) ys=(p.1,p.2+n)::zs := by
  cases ys with
  | nil =>
    simp only [joinRight,cons.injEq] at h ⊢
    have hn : b.2=n := congrArg Prod.snd h.1
    exact ⟨by rw [hn],h.2⟩
  | cons y ys =>
    simp only [joinRight] at h ⊢
    by_cases hy : b.1+b.2=y.1
    · rw [if_pos hy,cons.injEq,Prod.mk.injEq] at h
      rw [if_pos (by omega),← h.1.2,h.2,add_assoc]
    · rw [if_neg hy,cons.injEq] at h
      have hn : b.2=n := congrArg Prod.snd h.1
      rw [if_neg (by omega),← h.2,hn]

lemma Gapped.length_le {lo hi w : ℕ} (hl : Gapped l) (hle : lo≤hi)
    (hin : ∀ x∈l,lo≤x.1 ∧ w≤x.2 ∧ x.1+x.2≤hi) : w*l.length+lo≤hi := by
  induction l generalizing lo with
  | nil => simpa using hle
  | cons x l ih =>
    obtain ⟨hx,htail⟩:=pairwise_cons.mp hl
    obtain ⟨h1,h2,h3⟩:=hin x (mem_cons_self ..)
    have := ih htail h3 fun y hy => by
      have := hx y hy
      have := hin y (mem_cons_of_mem _ hy)
      omega
    rw [length_cons,mul_succ]
    omega

lemma Gapped.gap (hl : Gapped l) {y : Block} (hx : x∈l) (hy : y∈l) (hne : x≠y) : x.1+x.2<y.1 ∨ y.1+y.2<x.1 := by
  have : Std.Symm fun x y : Block => x.1+x.2<y.1 ∨ y.1+y.2<x.1 := ⟨fun _ _ h => h.symm⟩
  have hor : l.Pairwise fun x y => x.1+x.2<y.1 ∨ y.1+y.2<x.1 := hl.imp fun h => .inl h
  exact hor.forall hx hy hne
lemma Gapped.sorted (hl : Gapped l) : (l.map (·.1)).Pairwise (· < ·) := pairwise_map.mpr (hl.imp fun h => by omega)

def Links (next : ℕ → ℕ) : ℕ → List ℕ → ℕ → Prop
  | a, [], stop => next a=stop
  | a, n::rest, stop => next a=n ∧ Links next n rest stop

variable {next next' : ℕ → ℕ}

lemma links_append : Links next a (ns++c::ms) stop ↔ Links next a ns c ∧ Links next c ms stop := by
  induction ns generalizing a with
  | nil => exact Iff.rfl
  | cons n ns ih =>
    rw [cons_append,Links,Links,ih]
    exact and_assoc.symm

lemma Links.next_eq (h : Links next a ns stop) : next a=ns.headD stop := by
  cases ns with
  | nil => exact h
  | cons n ns => exact h.1

lemma links_append_headD : Links next a (ns++ms) stop ↔
    Links next a ns (ms.headD stop) ∧ ∀ c l,ms=c::l → Links next c l stop := by
  cases ms with
  | nil => simp
  | cons c l =>
    rw [links_append,headD_cons]
    refine and_congr_right fun _ => ⟨fun h c' l' he => ?_,fun h => h c l rfl⟩
    rw [cons.injEq] at he
    exact he.1 ▸ he.2 ▸ h

lemma Links.relink (h : Links next a ns stop) (hnodup : (a::ns).Nodup)
    (heq : ∀ x∈a::ns,x≠ns.getLastD a → next' x=next x) (hlast : next' (ns.getLastD a)=c) : Links next' a ns c := by
  induction ns generalizing a with
  | nil => exact hlast
  | cons n ns ih =>
    rw [getLastD_cons] at heq hlast
    have hmem : ns.getLastD n∈n::ns := getLastD_mem_cons
    obtain ⟨hno,htail⟩:=nodup_cons.mp hnodup
    refine ⟨(heq a (mem_cons_self ..) fun he => hno (he ▸ hmem)).trans h.1,?_⟩
    exact ih h.2 htail (fun x hx => heq x (mem_cons_of_mem _ hx)) hlast

lemma Links.congr (h : Links next a ns stop) (heq : ∀ x∈a::ns,next' x=next x) : Links next' a ns stop := by
  induction ns generalizing a with
  | nil => exact (heq a (mem_singleton_self a)).trans h
  | cons n ns ih =>
    exact ⟨(heq a (mem_cons_self ..)).trans h.1,ih h.2 fun x hx => heq x (mem_cons_of_mem _ hx)⟩

lemma Links.iterate (h : Links next a ns stop) : next^[ns.length+1] a=stop := by
  induction ns generalizing a with
  | nil => exact h
  | cons n ns ih =>
    rw [length_cons,Function.iterate_succ_apply,h.1]
    exact ih h.2

lemma Links.around (h : Links next a ns a) {p : ℕ} (hp : p∈a::ns) :
    (∃ d≤ns.length+1,next^[d] p=a) ∧ ∃ d≤ns.length+1,next^[d] a=p := by
  rcases mem_cons.mp hp with rfl | hp
  · exact ⟨⟨0,zero_le _,rfl⟩,0,zero_le _,rfl⟩
  obtain ⟨us,vs,rfl⟩:=append_of_mem hp
  obtain ⟨hto,hfrom⟩:=links_append.mp h
  rw [length_append,length_cons]
  exact ⟨⟨vs.length+1,by omega,hfrom.iterate⟩,us.length+1,by omega,hto.iterate⟩

lemma Links.reach (h : Links next a ns a) {p q : ℕ} (hp : p∈a::ns) (hq : q∈a::ns) :
    ∃ d≤2*(ns.length+1),next^[d] p=q := by
  obtain ⟨d,hd,hda⟩:=(h.around hp).1
  obtain ⟨e,he,heq⟩:=(h.around hq).2
  refine ⟨e+d,by omega,?_⟩
  rw [Function.iterate_add_apply,hda,heq]

lemma Links.next_mem (h : Links next a ns stop) {p : ℕ} (hp : p∈a::ns) : next p∈ns++[stop] := by
  induction ns generalizing a with
  | nil =>
    rw [mem_singleton.mp hp,show next a=stop from h]
    exact mem_singleton_self stop
  | cons n ns ih =>
    rcases mem_cons.mp hp with rfl | hp
    · rw [h.1]
      exact mem_append_left _ (mem_cons_self ..)
    · exact mem_cons_of_mem _ (ih h.2 hp)

lemma Links.eq_getLastD (h : Links next a ns stop) (hstop : stop∉ns) {p : ℕ} (hp : p∈a::ns)
    (heq : next p=stop) : p=ns.getLastD a := by
  induction ns generalizing a with
  | nil => exact mem_singleton.mp hp
  | cons n ns ih =>
    rw [getLastD_cons]
    rcases mem_cons.mp hp with rfl | hp
    · exact absurd (h.1.symm.trans heq) (fun he => hstop (he ▸ mem_cons_self ..))
    · exact ih h.2 (fun hmem => hstop (mem_cons_of_mem _ hmem)) hp

lemma Links.pred_eq (h : Links next a (ns++c::ms) a) (hnodup : (a::(ns++c::ms)).Nodup) {p : ℕ}
    (hp : p∈a::(ns++c::ms)) (heq : next p=c) : p=ns.getLastD a := by
  obtain ⟨hfirst,hsecond⟩:=links_append.mp h
  obtain ⟨hane,hrest⟩:=nodup_cons.mp hnodup
  obtain ⟨-,hcms,hdisj⟩:=nodup_append.mp hrest
  have hcns : c∉ns := fun hmem => hdisj c hmem c (mem_cons_self ..) rfl
  rw [mem_cons,mem_append,← or_assoc,← mem_cons] at hp
  rcases hp with hp | hp
  · exact hfirst.eq_getLastD hcns hp heq
  have hnext:=hsecond.next_mem hp
  rw [heq,mem_append,mem_singleton] at hnext
  rcases hnext with hnext | rfl
  · exact absurd hnext (nodup_cons.mp hcms).1
  · exact absurd (mem_append_right _ (mem_cons_self ..)) hane

def Stops (next : ℕ → ℕ) (b p : ℕ) : Prop := (p<b ∧ b<next p) ∨ (next p≤p ∧ (p<b ∨ b<next p))

lemma Links.next_getLastD (h : Links next a ns stop) : next (ns.getLastD a)=stop := by
  induction ns generalizing a with
  | nil => exact h
  | cons n ns ih =>
    rw [getLastD_cons]
    exact ih h.2

lemma Links.next_of_ne_last (h : Links next a ns stop) (hsorted : (a::ns).Pairwise (· < ·)) {p : ℕ}
    (hp : p∈a::ns) (hne : p≠ns.getLastD a) : next p∈ns ∧ p<next p := by
  induction ns generalizing a with
  | nil => exact absurd (mem_singleton.mp hp) hne
  | cons n ns ih =>
    obtain ⟨hlow,htail⟩:=pairwise_cons.mp hsorted
    rw [getLastD_cons] at hne
    rcases mem_cons.mp hp with rfl | hp
    · rw [h.1]
      exact ⟨mem_cons_self ..,hlow n (mem_cons_self ..)⟩
    · obtain ⟨hmem,hlt⟩:=ih h.2 htail hp hne
      exact ⟨mem_cons_of_mem _ hmem,hlt⟩

lemma Links.stops_iff {b : ℕ} (h : Links next a (ns++ms) a) (hsorted : (a::(ns++ms)).Pairwise (· < ·))
    (ha : a<b) (hns : ∀ n∈ns,n<b) (hms : ∀ n∈ms,b<n) {p : ℕ} (hp : p∈a::(ns++ms)) :
    Stops next b p ↔ p=ns.getLastD a := by
  obtain ⟨hlow,hrest⟩:=pairwise_cons.mp hsorted
  obtain ⟨hsn,hsm,-⟩:=pairwise_append.mp hrest
  obtain ⟨hfirst,hsecond⟩:=links_append_headD.mp h
  have hsn' : (a::ns).Pairwise (· < ·) := pairwise_cons.mpr ⟨fun n hn => hlow n (mem_append_left _ hn),hsn⟩
  constructor
  · intro hstop
    by_contra hne
    rw [mem_cons,mem_append,← or_assoc,← mem_cons] at hp
    rcases hp with hp | hp
    · -- the next node is still below `b`
      obtain ⟨hmem,hlt⟩:=hfirst.next_of_ne_last hsn' hp hne
      have := hns _ hmem
      unfold Stops at hstop
      omega
    have hbp:=hms p hp
    cases ms with
    | nil => cases hp
    | cons c l =>
      have hl:=hsecond c l rfl
      by_cases hlast : p=l.getLastD c
      · have hnext:=hl.next_getLastD
        rw [← hlast] at hnext
        unfold Stops at hstop
        omega
      · obtain ⟨-,hlt⟩:=hl.next_of_ne_last hsm hp hlast
        unfold Stops at hstop
        omega
  · rintro rfl
    have hnext:=hfirst.next_getLastD
    have hmem : ns.getLastD a∈a::ns := getLastD_mem_cons
    have hbounds : a≤ns.getLastD a ∧ ns.getLastD a<b := by
      rcases mem_cons.mp hmem with he | hmem
      · rw [he]
        exact ⟨le_rfl,ha⟩
      · exact ⟨(hlow _ (mem_append_left _ hmem)).le,hns _ hmem⟩
    rw [Stops,hnext]
    cases ms with
    | nil =>
      rw [headD_nil]
      omega
    | cons c l =>
      have := hms c (mem_cons_self ..)
      rw [headD_cons]
      omega

lemma exists_first (P : ℕ → Prop) {p d : ℕ} (h : P (next^[d] p)) : ∃ k≤d,P (next^[k] p) ∧ ∀ j<k,¬ P (next^[j] p) := by
  classical
  have hex : ∃ k,P (next^[k] p) := ⟨d,h⟩
  exact ⟨Nat.find hex,Nat.find_min' hex h,Nat.find_spec hex,fun j hj => Nat.find_min hex hj⟩

end Auxv6.Lib.FreeList
