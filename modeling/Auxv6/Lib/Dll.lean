import Mathlib.Tactic

/-!
# Intrusive doubly linked lists

A pool of nodes, each with one pair of links. `Rep` says that it represents a family of disjoint
sequences, with null links outside them.
-/

namespace Auxv6.Lib.Dll

open Function List Option

universe u v

variable {α : Type u} {ι : Type v}

def Chain (next prev : α → Option α) : Option α → List α → Option α → Prop
  | _, [], _ => True
  | before, x::l, after =>
    prev x=before ∧ next x=l.head?.or after ∧ Chain next prev (some x) l after
def walk (next : α → Option α) : ℕ → Option α → List α
  | 0, _ => []
  | _ + 1, none => []
  | k+1, some x => x::walk next k (next x)

variable {next prev next' prev' : α → Option α}

lemma chain_append (l1 l2 : List α) (b a : Option α) : Chain next prev b (l1++l2) a ↔
      Chain next prev b l1 (l2.head?.or a) ∧ Chain next prev (l1.getLast?.or b) l2 a := by
  induction l1 generalizing b with
  | nil => simp [Chain]
  | cons x l ih =>
    have hlast : (x::l).getLast?.or b=l.getLast?.or (some x) := by
      cases l with
      | nil => rfl
      | cons y l => simp [getLast?_eq_some_getLast]
    have hhead : (l++l2).head?.or a=l.head?.or (l2.head?.or a) := by
      cases l <;> simp
    simp only [cons_append,Chain,ih,hlast,hhead]
    constructor
    · rintro ⟨h1,h2,h3,h4⟩
      exact ⟨⟨h1,h2,h3⟩,h4⟩
    · rintro ⟨⟨h1,h2,h3⟩,h4⟩
      exact ⟨h1,h2,h3,h4⟩

variable {b a : Option α} {l : List α}

lemma Chain.congr (h : Chain next prev b l a) (heq : ∀ x∈l,next' x=next x ∧ prev' x=prev x) :
    Chain next' prev' b l a := by
  induction l generalizing b with
  | nil => trivial
  | cons x l ih =>
    obtain ⟨hp,hn,hl⟩:=h
    obtain ⟨hn',hp'⟩:=heq x (mem_cons_self ..)
    exact ⟨hp'.trans hp,hn'.trans hn,ih hl fun y hy => heq y (mem_cons_of_mem _ hy)⟩

lemma Chain.walk (h : Chain next prev b l none) {k : ℕ} (hk : l.length≤k) : walk next k l.head? = l := by
  induction l generalizing b k with
  | nil => cases k <;> rfl
  | cons x l ih =>
    obtain ⟨_,hn,hl⟩:=h
    cases k with
    | zero => simp at hk
    | succ k =>
      rw [or_none] at hn
      simp only [head?_cons,Dll.walk,hn]
      rw [ih hl (by simpa using hk)]

lemma Chain.setAfter {a' : Option α}
    (h : Chain next prev b l a) (hnd : l.Nodup) (hlast : ∀ t,l.getLast? = some t → next' t=a')
    (hother : ∀ x∈l,l.getLast? ≠ some x → next' x=next x) : Chain next' prev b l a' := by
  induction l generalizing b with
  | nil => trivial
  | cons x l ih =>
    obtain ⟨hp,hn,hl⟩:=h
    obtain ⟨hx,hnd'⟩:=nodup_cons.mp hnd
    cases l with
    | nil => exact ⟨hp,by simpa using hlast x rfl,trivial⟩
    | cons y l =>
      refine ⟨hp,?_,ih hl hnd' hlast fun z hz => hother z (mem_cons_of_mem _ hz)⟩
      have hxl : (y::l).getLast? ≠ some x := fun hc => hx (mem_of_getLast? hc)
      rw [hother x (mem_cons_self ..) hxl,hn]
      rfl

lemma Chain.setBefore {b' : Option α}
    (h : Chain next prev b l a) (hnd : l.Nodup) (hhead : ∀ x,l.head? = some x → prev' x=b')
    (hother : ∀ x∈l,l.head? ≠ some x → prev' x=prev x) : Chain next prev' b' l a := by
  cases l with
  | nil => trivial
  | cons x l =>
    obtain ⟨_,hn,hl⟩:=h
    have hx:=(nodup_cons.mp hnd).1
    refine ⟨hhead x rfl,hn,hl.congr fun y hy => ⟨rfl,hother y (mem_cons_of_mem _ hy) ?_⟩⟩
    rintro hc
    obtain rfl : x=y := by simpa using hc
    exact hx hy

structure Pool (α : Type u) (ι : Type v) where
  next : α → Option α
  prev : α → Option α
  head : ι → Option α
  tail : ι → Option α
  count : ι → ℕ

variable [DecidableEq α] [DecidableEq ι]

def Pool.append (s : Pool α ι) (q : ι) (p : α) : Pool α ι where
  next := match s.tail q with
    | some t => update (update s.next p none) t (some p)
    | none => update s.next p none
  prev := update s.prev p (s.tail q)
  head := match s.tail q with
    | some _ => s.head
    | none => update s.head q (some p)
  tail := update s.tail q (some p)
  count := update s.count q (s.count q+1)

def Pool.remove (s : Pool α ι) (q : ι) (p : α) : Pool α ι where
  next := update (match s.prev p with
    | some a => update s.next a (s.next p)
    | none => s.next) p none
  prev := update (match s.next p with
    | some b => update s.prev b (s.prev p)
    | none => s.prev) p none
  head := match s.prev p with
    | some _ => s.head
    | none => update s.head q (s.next p)
  tail := match s.next p with
    | some _ => s.tail
    | none => update s.tail q (s.prev p)
  count := update s.count q (s.count q-1)

omit [DecidableEq α] [DecidableEq ι] in
structure Rep (s : Pool α ι) (Q : ι → List α) : Prop where
  chain : ∀ q,Chain s.next s.prev none (Q q) none
  head : ∀ q,s.head q=(Q q).head?
  tail : ∀ q,s.tail q=(Q q).getLast?
  count : ∀ q,s.count q=(Q q).length
  nodup : ∀ q,(Q q).Nodup
  disjoint : ∀ q q' p,p∈Q q → p∈Q q' → q=q'
  free : ∀ p,(∀ q,p∉Q q) → s.next p=none ∧ s.prev p=none

variable {Q : ι → List α} {s : Pool α ι} {p : α}

omit [DecidableEq α] [DecidableEq ι] in
lemma Rep.links (h : Rep s Q) {q : ι} {l1 l2 : List α}
    (hq : Q q=l1++p::l2) : s.prev p=l1.getLast? ∧ s.next p=l2.head? := by
  have hc:=h.chain q
  rw [hq,chain_append] at hc
  obtain ⟨_,hp,hn,_⟩:=hc
  exact ⟨by simpa using hp,by simpa using hn⟩

/-- The rule for an operation on queue `q`: it gives `q` the list `l`, whose nodes no other queue
has, and leaves the links of the other queues alone. -/
lemma Rep.replace (h : Rep s Q) {u : Pool α ι} {q : ι} (hl : Chain u.next u.prev none l none) (hnd : l.Nodup)
    (hhead : u.head=update s.head q l.head?) (htail : u.tail=update s.tail q l.getLast?)
    (hcount : u.count=update s.count q l.length) (hown : ∀ q'≠q,∀ x∈Q q',x∉l)
    (hlinks : ∀ x,x∉l → x∉Q q → u.next x=s.next x ∧ u.prev x=s.prev x)
    (hout : ∀ x∈Q q,x∉l → u.next x=none ∧ u.prev x=none) : Rep u (update Q q l) := by
  have hother : ∀ q'≠q,∀ x∈Q q',u.next x=s.next x ∧ u.prev x=s.prev x := fun q' hq x hx =>
    hlinks x (hown q' hq x hx) fun hc => hq (h.disjoint q' q x hx hc)
  refine ⟨fun q' => ?_,fun q' => ?_,fun q' => ?_,fun q' => ?_,fun q' => ?_,fun q1 q2 x h1 h2 => ?_,fun x hx => ?_⟩
  · by_cases hq : q'=q
    · rwa [hq,update_self]
    · rw [update_of_ne hq]
      exact (h.chain q').congr (hother q' hq)
  · by_cases hq : q'=q
    · rw [hhead,hq,update_self,update_self]
    · rw [hhead,update_of_ne hq,update_of_ne hq,h.head]
  · by_cases hq : q'=q
    · rw [htail,hq,update_self,update_self]
    · rw [htail,update_of_ne hq,update_of_ne hq,h.tail]
  · by_cases hq : q'=q
    · rw [hcount,hq,update_self,update_self]
    · rw [hcount,update_of_ne hq,update_of_ne hq,h.count]
  · by_cases hq : q'=q
    · rwa [hq,update_self]
    · rw [update_of_ne hq]
      exact h.nodup q'
  · by_cases hq1 : q1=q <;> by_cases hq2 : q2=q
    · rw [hq1,hq2]
    · rw [hq1,update_self] at h1
      rw [update_of_ne hq2] at h2
      exact absurd h1 (hown q2 hq2 x h2)
    · rw [hq2,update_self] at h2
      rw [update_of_ne hq1] at h1
      exact absurd h2 (hown q1 hq1 x h1)
    · rw [update_of_ne hq1] at h1
      rw [update_of_ne hq2] at h2
      exact h.disjoint q1 q2 x h1 h2
  · have hxl : x∉l := by simpa using hx q
    by_cases hxq : x∈Q q
    · exact hout x hxq hxl
    obtain ⟨hn,hp⟩:=hlinks x hxl hxq
    rw [hn,hp]
    refine h.free x fun q' hmem => ?_
    have hq : q'≠q := fun hq => hxq (hq ▸ hmem)
    exact hx q' (by rwa [update_of_ne hq])

lemma Rep.append (h : Rep s Q) (q : ι) (hp : ∀ q,p∉Q q) : Rep (s.append q p) (update Q q (Q q++[p])) := by
  have hne : ∀ {q' x},x∈Q q' → x≠p := fun hx he => hp _ (he ▸ hx)
  -- the links of every node but `p` and the old last node of `q` are untouched
  have hprev : ∀ x,x≠p → (s.append q p).prev x=s.prev x := fun x hx => update_of_ne hx ..
  have hnext : ∀ x,x≠p → (Q q).getLast? ≠ some x → (s.append q p).next x=s.next x := by
    intro x hx hl
    simp only [Pool.append]
    rw [h.tail q]
    cases hg : (Q q).getLast? with
    | none => exact update_of_ne hx ..
    | some t =>
      have hxt : x≠t := by
        rintro rfl
        exact hl hg
      dsimp only
      rw [update_of_ne hxt,update_of_ne hx]
  have hnextl : ∀ t,(Q q).getLast? = some t → (s.append q p).next t=some p := by
    intro t ht
    simp only [Pool.append]
    rw [h.tail q,ht]
    exact update_self ..
  refine h.replace ?_ ((h.nodup q).append (nodup_singleton p) (by simpa using hp q)) ?_ ?_ ?_ ?_ ?_ ?_
  · rw [chain_append]
    refine ⟨?_,?_,?_,trivial⟩
    · have hc : Chain s.next (s.append q p).prev none (Q q) none :=
        (h.chain q).congr fun x hx => ⟨rfl,hprev x (hne hx)⟩
      exact hc.setAfter (h.nodup q) hnextl fun x hx hl => hnext x (hne hx) hl
    · simp only [Pool.append,update_self,h.tail q,or_none]
    simp only [Pool.append]
    cases hg : s.tail q with
    | none => exact update_self ..
    | some t =>
      have hpt : p≠t := (hne (mem_of_getLast? (by rw [← h.tail q,hg]))).symm
      dsimp only
      rw [update_of_ne hpt,update_self]
      rfl
  · simp only [Pool.append,h.tail q]
    cases hQ : Q q with
    | nil => rfl
    | cons y l =>
      rw [getLast?_eq_some_getLast (by simp)]
      exact (update_eq_self_iff.mpr (by simp [h.head q,hQ])).symm
  · simp [Pool.append]
  · simp [Pool.append,h.count q]
  · intro q' hq x hx hmem
    rcases mem_append.mp hmem with hm | hm
    · exact hq (h.disjoint q' q x hx hm)
    · exact hne hx (mem_singleton.mp hm)
  · intro x hx hxq
    have hxp : x≠p := fun he => hx (by simp [he])
    exact ⟨hnext x hxp fun hl => hxq (mem_of_getLast? hl),hprev x hxp⟩
  · exact fun x hx hxl => absurd (mem_append_left _ hx) hxl

lemma Rep.remove (h : Rep s Q) {q : ι} (hp : p∈Q q) : Rep (s.remove q p) (update Q q ((Q q).erase p)) := by
  obtain ⟨l1,l2,hQ⟩:=append_of_mem hp
  obtain ⟨hpv,hnx⟩:=h.links hQ
  have hnd:=h.nodup q
  rw [hQ] at hnd
  obtain ⟨hnd1,hnd2,hdis⟩:=nodup_append.mp hnd
  obtain ⟨hp2,hnd2'⟩:=nodup_cons.mp hnd2
  have hp1 : p∉l1 := fun hm => hdis p hm p (mem_cons_self ..) rfl
  have hmem1 : ∀ {x},x∈l1 → x∈Q q := fun hx => by simp [hQ,hx]
  have hmem2 : ∀ {x},x∈l2 → x∈Q q := fun hx => by simp [hQ,hx]
  have herase : (Q q).erase p=l1++l2 := by
    rw [hQ,erase_append_right _ hp1,erase_cons_head]
  -- the links that change: those of `p`, `next` before it and `prev` after it
  have hnext : ∀ x,x≠p → l1.getLast? ≠ some x → (s.remove q p).next x=s.next x := by
    intro x hx hl
    simp only [Pool.remove,hpv]
    rw [update_of_ne hx]
    cases hg : l1.getLast? with
    | none => rfl
    | some a =>
      have hxa : x≠a := by
        rintro rfl
        exact hl hg
      dsimp only
      rw [update_of_ne hxa]
  have hprev : ∀ x,x≠p → l2.head? ≠ some x → (s.remove q p).prev x=s.prev x := by
    intro x hx hl
    simp only [Pool.remove,hnx]
    rw [update_of_ne hx]
    cases hg : l2.head? with
    | none => rfl
    | some b =>
      have hxb : x≠b := by
        rintro rfl
        exact hl hg
      dsimp only
      rw [update_of_ne hxb]
  have hnextl : ∀ a,l1.getLast? = some a → (s.remove q p).next a=l2.head? := by
    intro a ha
    have hap : a≠p := by
      rintro rfl
      exact hp1 (mem_of_getLast? ha)
    simp only [Pool.remove,hpv,ha]
    rw [update_of_ne hap,update_self,hnx]
  have hprevh : ∀ b,l2.head? = some b → (s.remove q p).prev b=l1.getLast? := by
    intro b hb
    have hbp : b≠p := by
      rintro rfl
      exact hp2 (mem_of_mem_head? hb)
    simp only [Pool.remove,hnx,hb]
    rw [update_of_ne hbp,update_self,hpv]
  rw [herase]
  refine h.replace ?_ (herase ▸ (h.nodup q).erase p) ?_ ?_ ?_ ?_ ?_ ?_
  · rw [chain_append]
    have hc:=h.chain q
    rw [hQ,chain_append] at hc
    obtain ⟨hc1,_,_,hc2⟩:=hc
    constructor
    · -- before `p`: `prev` is untouched, the last `next` jumps over `p`
      have hc1' : Chain s.next (s.remove q p).prev none l1 (some p) :=
        hc1.congr fun x hx => ⟨rfl,hprev x (fun he => hp1 (he ▸ hx)) fun hh =>
          hdis x hx x (mem_cons_of_mem _ (mem_of_mem_head? hh)) rfl⟩
      rw [or_none]
      exact hc1'.setAfter hnd1 hnextl fun x hx hl => hnext x (fun he => hp1 (he ▸ hx)) hl
    · have hc2' : Chain (s.remove q p).next s.prev (some p) l2 none :=
        hc2.congr fun x hx => ⟨hnext x (fun he => hp2 (he ▸ hx)) fun hl =>
          hdis x (mem_of_getLast? hl) x (mem_cons_of_mem _ hx) rfl,rfl⟩
      rw [or_none]
      exact hc2'.setBefore hnd2' hprevh fun x hx hh => hprev x (fun he => hp2 (he ▸ hx)) hh
  · simp only [Pool.remove,hpv,hnx]
    cases l1 with
    | nil => rfl
    | cons y l =>
      rw [getLast?_eq_some_getLast (by simp)]
      exact (update_eq_self_iff.mpr (by simp [h.head q,hQ])).symm
  · simp only [Pool.remove,hpv,hnx]
    cases l2 with
    | nil => simp
    | cons y l => exact (update_eq_self_iff.mpr (by simp [h.tail q,hQ,getLast?_eq_some_getLast])).symm
  · simp [Pool.remove,h.count q,hQ]
  · exact fun q' hq x hx hmem => hq (h.disjoint q' q x hx ((mem_append.mp hmem).elim hmem1 hmem2))
  · intro x _ hxq
    have hxp : x≠p := fun he => hxq (he ▸ hp)
    exact ⟨hnext x hxp fun hl => hxq (hmem1 (mem_of_getLast? hl)),
      hprev x hxp fun hh => hxq (hmem2 (mem_of_mem_head? hh))⟩
  · intro x hx hxl
    obtain rfl : x=p := by
      by_contra hne
      exact hxl (herase ▸ (mem_erase_of_ne hne).mpr hx)
    simp [Pool.remove]

end Auxv6.Lib.Dll
