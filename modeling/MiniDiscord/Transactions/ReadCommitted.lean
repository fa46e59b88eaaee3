import Mathlib.Logic.Function.Basic

/-! # Read-committed transactions

Writes wait with their transaction until it commits. A statement sees everything that is
committed by then, under the writes of its own transaction, and nothing of the others.
-/
namespace ReadCommitted
variable {I S W : Type}

structure Store (I S W : Type) where
  committed : S
  pending : I → List W

/-- What a statement of the transaction sees. -/
def Store.view (apply : S → W → S) (s : Store I S W) (i : I) : S :=
  (s.pending i).foldl apply s.committed

variable [DecidableEq I]

def Store.write (s : Store I S W) (i : I) (w : W) : Store I S W :=
  { s with pending := Function.update s.pending i (s.pending i ++ [w]) }

def Store.commit (apply : S → W → S) (s : Store I S W) (i : I) : Store I S W :=
  ⟨s.view apply i,Function.update s.pending i []⟩

def Store.rollback (s : Store I S W) (i : I) : Store I S W :=
  { s with pending := Function.update s.pending i [] }

variable (apply : S → W → S) (s : Store I S W) {i j : I} {w : W}

omit [DecidableEq I] in
theorem view_of_nil (h : s.pending i = []) : s.view apply i = s.committed := by
  rw [Store.view,h]
  rfl

@[simp] theorem pending_write : (s.write i w).pending i = s.pending i ++ [w] :=
  Function.update_self _ _ _

@[simp] theorem pending_commit : (s.commit apply i).pending i = [] := Function.update_self _ _ _

@[simp] theorem pending_rollback : (s.rollback i).pending i = [] := Function.update_self _ _ _

theorem pending_write_of_ne (h : j ≠ i) : (s.write i w).pending j = s.pending j :=
  Function.update_of_ne h _ _

theorem pending_commit_of_ne (h : j ≠ i) : (s.commit apply i).pending j = s.pending j :=
  Function.update_of_ne h _ _

theorem pending_rollback_of_ne (h : j ≠ i) : (s.rollback i).pending j = s.pending j :=
  Function.update_of_ne h _ _

end ReadCommitted
