import Mathlib.Data.List.Basic

/-!
# Runs of a partial step function

A step function gives `none` where an action cannot be taken, or the kernel panics. `Guarded ok`
restricts a run to actions that meet a condition in the state they are taken from.
-/

namespace Auxv6.Lib.Transition

universe u v
open Option

variable {σ : Type u} {α : Type v}

def run (step : σ → α → Option σ) : σ → List α → Option σ
  | s, [] => some s
  | s, a::rest => (step s a).bind fun t => run step t rest
def Guarded (step : σ → α → Option σ) (ok : σ → α → Prop) : σ → List α → Prop
  | _, [] => True
  | s, a::rest => ok s a ∧ ∀ t,step s a=some t → Guarded step ok t rest

variable {step : σ → α → Option σ} {ok : σ → α → Prop} {I : σ → Prop} {s t : σ}

lemma run_cons {a : α} {rest : List α} (h : run step s (a::rest)=some t) :
    ∃ m,step s a=some m ∧ run step m rest=some t :=
  bind_eq_some_iff.mp h

lemma run_append (s : σ) (as bs : List α) : run step s (as++bs)=(run step s as).bind fun t => run step t bs := by
  induction as generalizing s with
  | nil => rfl
  | cons a rest ih =>
    simp only [List.cons_append,run,bind_assoc]
    congr 1
    funext t
    exact ih t

variable {as : List α}

lemma guarded_of_forall (h : ∀ a∈as,∀ s,ok s a) : Guarded step ok s as := by
  induction as generalizing s with
  | nil => trivial
  | cons a rest ih =>
    exact ⟨h a (List.mem_cons_self ..) s,fun t _ => ih fun b hb => h b (List.mem_cons_of_mem _ hb)⟩
lemma Guarded.mono {ok' : σ → α → Prop} (hok : ∀ s a,ok s a → ok' s a)
    (h : Guarded step ok s as) : Guarded step ok' s as := by
  induction as generalizing s with
  | nil => trivial
  | cons a rest ih => exact ⟨hok s a h.1,fun t ht => ih (h.2 t ht)⟩

lemma Guarded.append {bs : List α} (has : Guarded step ok s as)
    (hbs : ∀ t,run step s as=some t → Guarded step ok t bs) : Guarded step ok s (as++bs) := by
  induction as generalizing s with
  | nil => exact hbs s rfl
  | cons a rest ih =>
    refine ⟨has.1,fun t ht => ih (has.2 t ht) fun u hu => hbs u ?_⟩
    rw [run,ht]
    exact hu

def check (step : σ → α → Option σ) (test : σ → α → Bool) : σ → List α → Bool
  | _, [] => true
  | s, a::rest => test s a && (step s a).all fun t => check step test t rest

lemma guarded_of_check {test : σ → α → Bool} (htest : ∀ s a,test s a=true → ok s a)
    (h : check step test s as=true) : Guarded step ok s as := by
  induction as generalizing s with
  | nil => trivial
  | cons a rest ih =>
    rw [check,Bool.and_eq_true] at h
    refine ⟨htest s a h.1,fun t ht => ih ?_⟩
    rw [ht] at h
    exact h.2

/-- What holds of a value that a computation gives is decided by running it. -/
instance decidableExistsSome {P : α → Prop} [DecidablePred P] : (o : Option α) → Decidable (∃ a,o=some a ∧ P a)
  | none => .isFalse nofun
  | some a => decidable_of_iff (P a) ⟨fun h => ⟨a,rfl,h⟩,fun ⟨_,h,hp⟩ => some.inj h ▸ hp⟩

instance : Decidable (Guarded step ok s []) := .isTrue trivial
instance decidableGuarded {a : α} [Decidable (ok s a)] [∀ t,Decidable (Guarded step ok t as)] :
    Decidable (Guarded step ok s (a::as)) :=
  match h : step s a with
  | none => decidable_of_iff (ok s a) ⟨fun hok => ⟨hok,by simp [h]⟩,And.left⟩
  | some t => decidable_of_iff (ok s a ∧ Guarded step ok t as) (and_congr_right fun _ => by simp [h])

/-- The invariant rule for guarded runs: what every step meeting `ok` keeps holds
in every state such a run reaches. -/
lemma run_guarded (hstep : ∀ s a t,I s → ok s a → step s a=some t → I t)
    (hs : I s) (hok : Guarded step ok s as) (h : run step s as=some t) : I t := by
  induction as generalizing s with
  | nil =>
    simp only [run,some.injEq] at h
    exact h ▸ hs
  | cons a rest ih =>
    obtain ⟨m,hm,hrest⟩:=run_cons h
    exact ih (hstep s a m hs hok.1 hm) (hok.2 m hm) hrest

lemma run_invariant (hstep : ∀ s a t,I s → step s a=some t → I t) (hs : I s) (h : run step s as=some t) : I t :=
  run_guarded (fun s a t hs _ => hstep s a t hs) hs (guarded_of_forall fun _ _ _ => trivial) h

end Auxv6.Lib.Transition
