import Mathlib.Tactic

/-!
# Hash chains

Singly linked chains, one for each bucket, threaded through one link of every node. `Rep` says that
the links represent a family of disjoint sequences.
-/

namespace Auxv6.Lib.Buckets

open Function List

universe u v

variable {κ : Type u} {α : Type v}

structure Table (κ : Type u) (α : Type v) where
  head : κ → Option α
  next : α → Option α

def walk (next : α → Option α) : ℕ → Option α → List α
  | 0, _ => []
  | _ + 1, none => []
  | n+1, some x => x::walk next n (next x)
def before [DecidableEq α] (next : α → Option α) (b : α) : ℕ → α → Option α
  | 0, _ => none
  | n+1, x => match next x with
    | none => none
    | some y => if y=b then some x else before next b n y
def Table.insert [DecidableEq κ] [DecidableEq α] (t : Table κ α) (k : κ) (x : α) : Table κ α where
  head := update t.head k (some x)
  next := update t.next x (t.head k)

def Table.unlink [DecidableEq κ] [DecidableEq α] (t : Table κ α) (fuel : ℕ) (k : κ) (b : α) : Table κ α :=
  match t.head k with
  | none => t
  | some x =>
    if x=b then {t with head := update t.head k (t.next b)}
    else match before t.next b fuel x with
      | none => t
      | some y => {t with next := update t.next y (t.next b)}

def Linked (next : α → Option α) : List α → Prop
  | [] => True
  | x::l => next x=l.head? ∧ Linked next l

variable {next : α → Option α} {l : List α}

lemma Linked.congr {next' : α → Option α} (h : Linked next l) (heq : ∀ x∈l,next' x=next x) : Linked next' l := by
  induction l with
  | nil => trivial
  | cons x l ih =>
    exact ⟨(heq x (mem_cons_self ..)).trans h.1,ih h.2 fun y hy => heq y (mem_cons_of_mem _ hy)⟩

lemma Linked.walk (h : Linked next l) {n : ℕ} (hn : l.length≤n) : walk next n l.head? = l := by
  induction l generalizing n with
  | nil => cases n <;> rfl
  | cons x l ih =>
    cases n with
    | zero => simp at hn
    | succ n =>
      rw [head?_cons,Buckets.walk,h.1,ih h.2 (by simpa using hn)]

lemma Linked.ends (h : Linked next l) {n : ℕ} (hn : l.length≤n) :
    (fun o : Option α => o.bind next)^[n] l.head? = none := by
  induction l generalizing n with
  | nil => exact iterate_fixed rfl n
  | cons x l ih =>
    cases n with
    | zero => simp at hn
    | succ n =>
      rw [iterate_succ_apply,head?_cons,Option.bind_some,h.1]
      exact ih h.2 (by simpa using hn)

structure Rep (t : Table κ α) (H : κ → List α) : Prop where
  head : ∀ k,t.head k=(H k).head?
  linked : ∀ k,Linked t.next (H k)
  nodup : ∀ k,(H k).Nodup
  disjoint : ∀ k k' x,x∈H k → x∈H k' → k=k'

variable [DecidableEq κ] [DecidableEq α] {t : Table κ α} {H : κ → List α} {n : ℕ}

lemma Rep.insert (h : Rep t H) (k : κ) {x : α} (hx : ∀ k,x∉H k) : Rep (t.insert k x) (update H k (x::H k)) := by
  have hold : ∀ k',Linked (t.insert k x).next (H k') := by
    intro k'
    apply (h.linked k').congr
    intro y hy
    have hne : y≠x := by
      rintro rfl
      exact hx k' hy
    exact update_of_ne hne ..
  have hmem : ∀ {k' y},y∈update H k (x::H k) k' → y∈H k' ∨ (y=x ∧ k'=k) := by
    intro k' y hy
    by_cases hk : k'=k
    · subst hk
      rw [update_self,mem_cons] at hy
      exact hy.symm.imp_right fun hy => ⟨hy,rfl⟩
    · rw [update_of_ne hk] at hy
      exact .inl hy
  refine ⟨fun k' => ?_,fun k' => ?_,fun k' => ?_,?_⟩
  · by_cases hk : k'=k
    · subst hk
      simp [Table.insert]
    · simp [Table.insert,update_of_ne hk,h.head k']
  · by_cases hk : k'=k
    · subst hk
      rw [update_self]
      exact ⟨(update_self ..).trans (h.head k'),hold k'⟩
    · rw [update_of_ne hk]
      exact hold k'
  · by_cases hk : k'=k
    · subst hk
      rw [update_self]
      exact nodup_cons.mpr ⟨hx k',h.nodup k'⟩
    · rw [update_of_ne hk]
      exact h.nodup k'
  · intro k1 k2 y h1 h2
    rcases hmem h1 with m1 | ⟨rfl,rfl⟩ <;> rcases hmem h2 with m2 | ⟨e,rfl⟩
    · exact h.disjoint k1 k2 y m1 m2
    · exact absurd (e ▸ m1) (hx k1)
    · exact absurd m2 (hx k2)
    · rfl

variable {l1 l2 : List α} {b : α}

omit [DecidableEq κ] in
lemma before_eq {x : α} {n : ℕ} (h : Linked next (x::(l1++b::l2))) (hb : b∉l1) (hn : l1.length<n) :
    before next b n x=(x::l1).getLast? := by
  induction l1 generalizing x n with
  | nil =>
    cases n with
    | zero => simp at hn
    | succ n =>
      rw [before,h.1]
      simp
  | cons y l ih =>
    cases n with
    | zero => simp at hn
    | succ n =>
      rw [before,h.1]
      have hyb : y≠b := fun he => hb (he ▸ mem_cons_self ..)
      have hs:=ih (n := n) h.2 (fun hm => hb (mem_cons_of_mem _ hm)) (by simpa using hn)
      simp only [cons_append,head?_cons,if_neg hyb,hs,getLast?_cons_cons]

omit [DecidableEq κ] in
lemma Linked.bend {y : α} (h : Linked next (l1++b::l2)) (hnd : (l1++b::l2).Nodup)
    (hy : l1.getLast? = some y) : Linked (update next y (next b)) (l1++l2) := by
  induction l1 with
  | nil => simp at hy
  | cons x l ih =>
    have hx : x∉l++b::l2 := (nodup_cons.mp hnd).1
    cases l with
    | nil =>
      obtain rfl : x=y := by simpa using hy
      have hl:=h.2
      refine ⟨(update_self ..).trans hl.1,hl.2.congr fun z hz => ?_⟩
      refine update_of_ne ?_ ..
      rintro rfl
      exact hx (by simp [hz])
    | cons z l =>
      have hyx : x≠y := by
        rintro rfl
        exact hx (mem_append_left _ (mem_of_getLast? hy))
      exact ⟨(update_of_ne hyx ..).trans h.1,ih h.2 (nodup_cons.mp hnd).2 hy⟩

lemma Rep.unlink (h : Rep t H) {k : κ} (hb : b∈H k) {n : ℕ} (hn : (H k).length≤n) :
    Rep (t.unlink n k b) (update H k ((H k).erase b)) := by
  obtain ⟨l1,l2,hH⟩:=append_of_mem hb
  have hnd:=h.nodup k
  have hlk:=h.linked k
  have hhd:=h.head k
  rw [hH] at hnd hlk hhd hn
  have hb1 : b∉l1 := fun hm => (nodup_append.mp hnd).2.2 b hm b (mem_cons_self ..) rfl
  have herase : (H k).erase b=l1++l2 := by
    rw [hH,erase_append_right _ hb1,erase_cons_head]
  rw [herase]
  have hsub : ∀ {k' x},x∈update H k (l1++l2) k' → x∈H k' := by
    intro k' x hx
    by_cases hk : k'=k
    · subst hk
      rw [update_self] at hx
      rw [hH]
      simp only [mem_append,mem_cons] at hx ⊢
      tauto
    · rwa [update_of_ne hk] at hx
  have hnodup : ∀ k',(update H k (l1++l2) k').Nodup := by
    intro k'
    by_cases hk : k'=k
    · subst hk
      rw [update_self,← herase]
      exact (h.nodup k').erase b
    · rw [update_of_ne hk]
      exact h.nodup k'
  have hdisj : ∀ k1 k2 x,x∈update H k (l1++l2) k1 → x∈update H k (l1++l2) k2 → k1=k2 :=
    fun k1 k2 x h1 h2 => h.disjoint k1 k2 x (hsub h1) (hsub h2)
  unfold Table.unlink
  cases l1 with
  | nil =>
    -- `b` is the first node
    rw [hhd]
    simp only [nil_append,head?_cons,if_true]
    refine ⟨fun k' => ?_,fun k' => ?_,hnodup,hdisj⟩
    · by_cases hk : k'=k
      · subst hk
        simpa using hlk.1
      · simp [update_of_ne hk,h.head k']
    by_cases hk : k'=k
    · subst hk
      rw [update_self]
      exact hlk.2
    · rw [update_of_ne hk]
      exact h.linked k'
  | cons x l =>
    have hxb : x≠b := fun he => hb1 (he ▸ mem_cons_self ..)
    have hbef:=before_eq (n := n) hlk (fun hm => hb1 (mem_cons_of_mem _ hm)) (by
      simp only [cons_append,length_cons,length_append] at hn
      omega)
    obtain ⟨y,hy⟩ : ∃ y,(x::l).getLast? = some y := ⟨_,getLast?_eq_some_getLast (by simp)⟩
    rw [hhd]
    simp only [cons_append,head?_cons,if_neg hxb,hbef,hy]
    have hyk : y∈H k := by
      rw [hH]
      exact mem_append_left _ (mem_of_getLast? hy)
    refine ⟨fun k' => ?_,fun k' => ?_,hnodup,hdisj⟩
    · by_cases hk : k'=k
      · subst hk
        simp [hhd]
      · simp [update_of_ne hk,h.head k']
    by_cases hk : k'=k
    · subst hk
      rw [update_self]
      exact hlk.bend hnd hy
    rw [update_of_ne hk]
    refine (h.linked k').congr fun z hz => update_of_ne ?_ ..
    rintro rfl
    exact hk (h.disjoint k' k z hz hyk)

structure Keyed {ι : Type*} (t : Table κ α) (H : κ → List α) (key : α → Option ι) (hash : ι → κ) : Prop where
  rep : Rep t H
  mem : ∀ k x,x∈H k ↔ ∃ i,key x=some i ∧ hash i=k
  unique : ∀ x y i,key x=some i → key y=some i → x=y

variable {ι : Type*} {key : α → Option ι} {hash : ι → κ}

def Table.drop (t : Table κ α) (n : ℕ) (hash : ι → κ) (x : α) : Option ι → Table κ α
  | some i => t.unlink n (hash i) x
  | none => t

lemma Keyed.drop (h : Keyed t H key hash) (hn : ∀ k,(H k).length≤n) (x : α) :
    ∃ H1,Rep (t.drop n hash x (key x)) H1 ∧ ∀ k y,y∈H1 k ↔ y∈H k ∧ y≠x := by
  cases hx : key x with
  | none =>
    refine ⟨H,h.rep,fun k y => ⟨fun hy => ⟨hy,?_⟩,And.left⟩⟩
    rintro rfl
    obtain ⟨i,hi,-⟩:=(h.mem k y).mp hy
    rw [hx] at hi
    cases hi
  | some i =>
    have hin : x∈H (hash i) := (h.mem _ x).mpr ⟨i,hx,rfl⟩
    refine ⟨_,h.rep.unlink hin (hn _),fun k y => ?_⟩
    by_cases hk : k=hash i
    · rw [hk,update_self,(h.rep.nodup _).mem_erase_iff]
      exact and_comm
    rw [update_of_ne hk]
    refine ⟨fun hy => ⟨hy,?_⟩,And.left⟩
    rintro rfl
    exact hk (h.rep.disjoint _ _ y hy hin)

lemma Keyed.rekey (h : Keyed t H key hash) (hn : ∀ k,(H k).length≤n) (x : α) {i : ι} (hnew : ∀ y,key y≠some i) :
    ∃ H',Keyed ((t.drop n hash x (key x)).insert (hash i) x) H' (update key x (some i)) hash := by
  obtain ⟨H1,hrep,hmem⟩:=h.drop hn x
  have hfresh : ∀ k,x∉H1 k := fun k hx => ((hmem k x).mp hx).2 rfl
  refine ⟨_,hrep.insert (hash i) hfresh,fun k y => ?_,fun y z j => ?_⟩
  · by_cases hy : y=x
    · subst hy
      by_cases hk : k=hash i
      · simp [hk]
      · rw [update_of_ne hk]
        simp [hfresh k,Ne.symm hk]
    rw [update_of_ne hy,← h.mem k y]
    by_cases hk : k=hash i
    · simp [hk,hy,hmem]
    · rw [update_of_ne hk,hmem]
      exact and_iff_left hy
  · by_cases hy : y=x <;> by_cases hz : z=x
    · exact fun _ _ => hy.trans hz.symm
    · rw [hy,update_self,update_of_ne hz]
      exact fun hj hzj => absurd (hzj.trans hj.symm) (hnew z)
    · rw [hz,update_self,update_of_ne hy]
      exact fun hyj hj => absurd (hyj.trans hj.symm) (hnew y)
    · rw [update_of_ne hy,update_of_ne hz]
      exact h.unique y z j

end Auxv6.Lib.Buckets
