import Mathlib.Data.List.Basic
import Mathlib.Logic.Function.Basic

/-!
# Redo logs

`Covers P log d S`: every entry of the log holds the value of `S` at its address, and the store `d`
agrees with `S` at every other address of the region `P`. Copying entries keeps this.
-/

namespace Auxv6.Lib.Redo

open Function List Prod

variable {α β : Type*} [DecidableEq α]

def apply (w : List (α × β)) (d : α → β) : α → β := w.foldl (fun d e => update d e.1 e.2) d
def applyAll (gs : List (List (α × β))) (d : α → β) : α → β := gs.foldl (fun d w => apply w d) d

lemma apply_append_one (w : List (α × β)) (a : α) (v : β) (d : α → β) :
    apply (w++[(a,v)]) d=update (apply w d) a v := by
  simp [apply,foldl_append]

variable {w log : List (α × β)}

lemma apply_of_notMem {a : α} (h : a∉w.map fst) (d : α → β) : apply w d a=d a := by
  induction w generalizing d with
  | nil => rfl
  | cons e w ih =>
    rw [map_cons,mem_cons,not_or] at h
    have hrest:=ih h.2 (update d e.1 e.2)
    rw [update_of_ne h.1] at hrest
    exact hrest

structure Covers (P : α → Prop) (log : List (α × β)) (d S : α → β) : Prop where
  entry : ∀ e∈log,P e.1 ∧ e.2=S e.1
  rest : ∀ a,P a → a∉log.map fst → d a=S a

variable {P : α → Prop} {d S : α → β}

omit [DecidableEq α] in
lemma covers_nil (h : ∀ a,P a → d a=S a) : Covers P [] d S := ⟨fun _ he => (not_mem_nil he).elim,fun a ha _ => h a ha⟩

lemma Covers.install (h : Covers P log d S) {a : α} {v : β} (he : (a,v)∈log) : Covers P log (update d a v) S := by
  refine ⟨h.entry,fun x hx hn => ?_⟩
  have hxa : x≠a := fun hxa => hn (hxa ▸ mem_map.mpr ⟨_,he,rfl⟩)
  rw [update_of_ne hxa]
  exact h.rest x hx hn

omit [DecidableEq α] in
lemma Covers.done (h : Covers P log d S) (hall : ∀ e∈log,d e.1=e.2) : ∀ a,P a → d a=S a := by
  intro a ha
  by_cases hm : a∈log.map fst
  · obtain ⟨e,he,rfl⟩:=mem_map.mp hm
    exact (hall e he).trans (h.entry e he).2
  · exact h.rest a ha hm

lemma covers_apply (h : ∀ a,P a → d a=S a) (hkeys : ∀ a∈w.map fst,a∈log.map fst)
    (hlog : ∀ e∈log,P e.1 ∧ e.2=apply w S e.1) : Covers P log d (apply w S) := by
  refine ⟨hlog,fun a ha hn => ?_⟩
  rw [apply_of_notMem fun hm => hn (hkeys a hm)]
  exact h a ha

end Auxv6.Lib.Redo
