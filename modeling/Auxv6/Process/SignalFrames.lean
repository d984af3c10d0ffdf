import Auxv6.Process.SignalSafety

/-!
# Signal frames

A frame the user wrote is taken as it is: the mask is cleaned, the flags register is not.
-/

namespace Auxv6.Process
open Machine Lib BitVec Transition

lemma join_wordBytes (w : Word) : w.extractLsb' 24 8++w.extractLsb' 16 8++w.extractLsb' 8 8++w.extractLsb' 0 8=w := by
  refine eq_of_getLsbD_eq fun j hj => ?_
  simp only [getLsbD_append,getLsbD_extractLsb']
  have hw : ∀ k,k=j → w.getLsbD k=w.getLsbD j := fun _ h => h ▸ rfl
  repeat' split
  all_goals
    rw [decide_eq_true (by omega),Bool.true_and]
    exact hw _ (by omega)

lemma wordAt_flatMap (ws : List Word) (rest : List Byte) {i : ℕ} (hi : i<ws.length) :
    wordAt (ws.flatMap wordBytes++rest) i=ws[i] := by
  induction ws generalizing i with
  | nil => cases hi
  | cons w ws ih =>
    cases i with
    | zero => exact join_wordBytes w
    | succ i => exact ih (Nat.lt_of_succ_lt_succ hi)

lemma decode_encode (sf : Sigframe) : (Sigframe.decode sf.encode).restore=sf.restore ∧
      (Sigframe.decode sf.encode).sfOldmask=sf.sfOldmask := by
  have hword : ∀ (i : ℕ) (hi : i<13),wordAt sf.encode i=sf.words[i] :=
    fun i hi => wordAt_flatMap sf.words sf.sfTrampoline hi
  refine ⟨Trapframe.mk.injEq .. ▸ ?_,hword 2 (by decide)⟩
  exact ⟨hword 3 (by decide),hword 4 (by decide),hword 5 (by decide),hword 6 (by decide),
    hword 7 (by decide),hword 8 (by decide),hword 9 (by decide),hword 10 (by decide),
    hword 11 (by decide),hword 12 (by decide)⟩

section

variable {M : Type} {U : UserMem M} {s : System M} {p : Slot} {b : List Byte}

lemma syscallSigreturn_some (hb : U.copyin (s.task p).mem ((s.task p).tf.esp-4) sigframeSize=some b) :
    ((syscallSigreturn U s p).task p).tf=(Sigframe.decode b).restore ∧
      ((syscallSigreturn U s p).table.proc p).sigMask=(Sigframe.decode b).sfOldmask &&& ~~~unblockable := by
  unfold syscallSigreturn sysSigreturn
  dsimp only
  rw [hb]
  simp [System.setTask,System.setProc,Sigframe.restore]

/-- The user part of the trap frame keeps interrupts on and I/O privilege off, and the mask
neither `SIGKILL` nor `SIGSTOP`. -/
def Unprivileged (s : System M) (p : Slot) : Prop :=
  (s.task p).tf.eflags &&& flIopl=0 ∧ (s.task p).tf.eflags &&& flIf≠0 ∧ (s.table.proc p).sigMask &&& unblockable=0
  deriving Decidable

def System.frameOf (s : System M) (p : Slot) (signo : ℕ) : List Byte :=
  (sigframeOf (s.table.proc p) (s.task p).tf signo (frameSp (s.task p).tf)).encode

lemma and_not_of_and_eq_zero {a b : Sigset} (h : a &&& b=0) : a &&& ~~~b=a := by
  refine eq_of_getLsbD_eq fun i hi => ?_
  cases ha : a.getLsbD i with
  | false => simp [ha]
  | true =>
    rw [getLsbD_and,getLsbD_not,and_eq_zero_iff.mp h i ha,ha]
    simp [hi]

end

def forgedFrame : Sigframe where
  sfSigreturn := 0
  sfSigno := 0
  sfOldmask := 0
  sfEdi := 0
  sfEsi := 0
  sfEbp := 0
  sfEbx := 0
  sfEdx := 0
  sfEcx := 0
  sfEax := 0
  sfEip := 0
  sfEflags := flIf ||| flIopl
  sfEsp := 0
  sfTrampoline := trampoline

end Auxv6.Process
