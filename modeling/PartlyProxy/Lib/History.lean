import PartlyProxy.Lib.Execution

namespace Execution
variable {S M A : Type*} (step : S → M → S) (log : S → M → List A)

/-- What the moves of a run log, in order. What a move logs may depend on the state in
which it is taken. -/
def history : S → List M → List A
  | _, [] => []
  | s, m :: rest => log s m ++ history (step s m) rest

@[simp] theorem history_nil (s : S) : history step log s [] = [] := rfl

@[simp] theorem history_cons (s : S) (m : M) (moves : List M) :
    history step log s (m :: moves) = log s m ++ history step log (step s m) moves := rfl

/-- Where each move does to the image of the state what its log says, so does each
run. -/
theorem exec_history {S' : Type*} {step' : S' → A → S'} {f : S → S'}
    (logged : ∀ s m, f (step s m) = exec step' (f s) (log s m)) (s : S) (moves : List M) :
    f (exec step s moves) = exec step' (f s) (history step log s moves) := by
  induction moves generalizing s with
  | nil => rfl
  | cons m rest ih => rw [exec_cons, ih, logged, history_cons, exec_append]

/-- What relates the state to all that was logged so far, and is kept by each step. -/
theorem exec_history_invariant {I : S → List A → Prop} (keep : ∀ s past m, I s past → I (step s m) (past ++ log s m))
    {s : S} {past : List A} (start : I s past) (moves : List M) :
    I (exec step s moves) (past ++ history step log s moves) := by
  induction moves generalizing s past with
  | nil => simpa using start
  | cons m rest ih =>
    rw [exec_cons, history_cons, ← List.append_assoc]
    exact ih (keep s past m start)

end Execution
