import Mathlib.Logic.Function.Basic

/-!
# Trees given by parent pointers

`Rooted root parent p`: climbing from `p` ends at the root. `Avoids root parent n p`: it ends
there without meeting `n`. A node may be hung below any node whose climb avoids it.
-/

namespace Auxv6.Lib.ParentTree

open Function

variable {α : Type*} {root : α} {parent parent' : α → α} {n d p : α}

inductive Rooted (root : α) (parent : α → α) : α → Prop where
  | root : Rooted root parent root
  | up {p : α} (h : Rooted root parent (parent p)) : Rooted root parent p

inductive Avoids (root : α) (parent : α → α) (n : α) : α → Prop where
  | root (h : root≠n) : Avoids root parent n root
  | up {p : α} (hp : p≠n) (h : Avoids root parent n (parent p)) : Avoids root parent n p

lemma Avoids.ne (h : Avoids root parent n d) : d≠n := by
  cases h with
  | root h => exact h
  | up hp _ => exact hp

lemma Rooted.eq_root (h : Rooted root parent p) (hp : parent p=p) : p=root := by
  induction h with
  | root => rfl
  | up _ ih =>
    rw [hp] at ih
    exact ih hp

lemma Rooted.congr {S : α → Prop} (hclosed : ∀ q,S q → q≠root → S (parent q))
    (hsame : ∀ q,S q → q≠root → parent' q=parent q) (h : Rooted root parent p) (hp : S p) :
    Rooted root parent' p := by
  induction h with
  | root => exact .root
  | @up q _ ih =>
    by_cases hq : q=root
    · exact hq ▸ .root
    · refine .up ?_
      rw [hsame q hp hq]
      exact ih (hclosed q hp hq)

lemma Avoids.reparent [DecidableEq α] (h : Avoids root parent n d) (x : α) : Rooted root (update parent n x) d := by
  induction h with
  | root _ => exact .root
  | up hp _ ih =>
    refine .up ?_
    rw [update_of_ne hp]
    exact ih

lemma Rooted.reparent [DecidableEq α] (h : Rooted root parent p) (hd : Avoids root parent n d) :
    Rooted root (update parent n d) p := by
  induction h with
  | root => exact .root
  | @up q _ ih =>
    refine .up ?_
    by_cases hq : q=n
    · rw [hq,update_self]
      exact hd.reparent d
    · rw [update_of_ne hq]
      exact ih

end Auxv6.Lib.ParentTree
