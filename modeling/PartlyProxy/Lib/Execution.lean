import Mathlib.Data.List.Basic

namespace Execution
variable {S M : Type*} (step : S → M → S)

def exec (s : S) (moves : List M) : S := moves.foldl step s

@[simp] theorem exec_nil (s : S) : exec step s [] = s := rfl

@[simp] theorem exec_cons (s : S) (m : M) (moves : List M) :
    exec step s (m :: moves) = exec step (step s m) moves := rfl

theorem exec_append (s : S) (front back : List M) :
    exec step s (front ++ back) = exec step (exec step s front) back :=
  List.foldl_append

theorem exec_snoc (s : S) (front : List M) (m : M) :
    exec step s (front ++ [m]) = step (exec step s front) m := by
  rw [exec_append, exec_cons, exec_nil]

/-- Every move of the run is taken in a state that meets `cond`. -/
def Along (cond : S → M → Prop) : S → List M → Prop
  | _, [] => True
  | s, m :: rest => cond s m ∧ Along cond (step s m) rest

theorem along_append {cond : S → M → Prop} {s : S} {front back : List M} :
    Along step cond s (front ++ back) ↔ Along step cond s front ∧ Along step cond (exec step s front) back := by
  induction front generalizing s with
  | nil => simp [Along]
  | cons m rest ih => simp only [List.cons_append, Along, ih, exec_cons, and_assoc]

theorem along_iff_forall_cut {cond : S → M → Prop} {s : S} {moves : List M} :
    Along step cond s moves ↔ ∀ front m back, moves = front ++ m :: back → cond (exec step s front) m := by
  constructor
  · rintro along front m back rfl
    exact (along_append step |>.mp along).2.1
  · intro cuts
    induction moves generalizing s with
    | nil => trivial
    | cons m rest ih =>
      refine ⟨cuts [] m rest rfl, ih ?_⟩
      rintro front m' back rfl
      exact cuts (m :: front) m' back rfl

theorem Along.imp {cond cond' : S → M → Prop} (weaker : ∀ s m, cond s m → cond' s m) {s : S} {moves : List M}
    (along : Along step cond s moves) : Along step cond' s moves := by
  induction moves generalizing s with
  | nil => trivial
  | cons m rest ih => exact ⟨weaker _ _ along.1, ih along.2⟩

theorem Along.and {cond cond' : S → M → Prop} {s : S} {moves : List M} (first : Along step cond s moves)
    (second : Along step cond' s moves) : Along step (fun t m => cond t m ∧ cond' t m) s moves := by
  induction moves generalizing s with
  | nil => trivial
  | cons m rest ih => exact ⟨⟨first.1, second.1⟩, ih first.2 second.2⟩

theorem along_of_forall_mem {cond : M → Prop} {s : S} {moves : List M} (all : ∀ m ∈ moves, cond m) :
    Along step (fun _ m => cond m) s moves := by
  induction moves generalizing s with
  | nil => trivial
  | cons m rest ih =>
    exact ⟨all m (List.mem_cons_self ..), ih fun m' member => all m' (List.mem_cons_of_mem _ member)⟩

/-- What every conditioned step keeps, every conditioned run keeps. -/
theorem exec_invariant_along {I : S → Prop} {C : S → M → Prop}
    (keep : ∀ s m, C s m → I s → I (step s m)) {s : S} {moves : List M}
    (start : I s) (along : Along step C s moves) : I (exec step s moves) := by
  induction moves generalizing s with
  | nil => exact start
  | cons m rest ih => exact ih (keep s m along.1 start) along.2

theorem exec_invariant {I : S → Prop} (keep : ∀ s m, I s → I (step s m)) {s : S}
    (start : I s) (moves : List M) : I (exec step s moves) := by
  induction moves generalizing s with
  | nil => exact start
  | cons m rest ih => exact ih (keep s m start)

/-- Where a move that breaks the condition loses what no later move brings back, a run
that has not lost it kept the condition throughout. -/
theorem along_of_not_lost {I L : S → Prop} {E C : S → M → Prop}
    (keep : ∀ s m, E s m → C s m → I s → I (step s m)) (lose : ∀ s m, I s → ¬ C s m → L (step s m))
    (lost : ∀ s m, L s → L (step s m)) {s : S} {moves : List M} (start : I s) (along : Along step E s moves)
    (fine : ¬ L (exec step s moves)) : Along step C s moves := by
  induction moves generalizing s with
  | nil => trivial
  | cons m rest ih =>
    have kept : C s m := by
      by_contra broken
      exact fine (exec_invariant step lost (lose s m start broken) rest)
    exact ⟨kept, ih (keep s m along.1 kept start) along.2 fine⟩

section Simulation
variable {S' M' : Type*}

/-- What relates two states and is kept by every move of the run relates the states
at its end. -/
theorem exec_simulation {step' : S' → M → S'} {R : S → S' → Prop} {s : S} {s' : S'} {moves : List M}
    (keep : ∀ m ∈ moves, ∀ s s', R s s' → R (step s m) (step' s' m)) (start : R s s') :
    R (exec step s moves) (exec step' s' moves) :=
  List.foldl_rel start keep

/-- Where each move is a few moves of a second system on the image of the state, a
run is a run of that system. -/
theorem exec_refines {step' : S' → M' → S'} {f : S → S'} {translate : M → List M'}
    (simulates : ∀ s m, f (step s m) = exec step' (f s) (translate m)) (s : S) (moves : List M) :
    f (exec step s moves) = exec step' (f s) (moves.flatMap translate) := by
  induction moves generalizing s with
  | nil => rfl
  | cons m rest ih => rw [exec_cons, ih, simulates, List.flatMap_cons, exec_append]

end Simulation

section Unwinding
variable {S' V : Type*} {step' : S' → M → S'} {view : S → V} {view' : S' → V} {concerns : M → Bool}

theorem view_exec_hidden {I : S → Prop} (keep : ∀ s m, I s → I (step s m))
    (hidden : ∀ s m, I s → concerns m = false → view (step s m) = view s) {s : S} (start : I s) {moves : List M}
    (all : ∀ m ∈ moves, concerns m = false) : I (exec step s moves) ∧ view (exec step s moves) = view s :=
  exec_invariant_along step (I := fun t => I t ∧ view t = view s) (C := fun _ m => concerns m = false)
    (fun t m unseen old => ⟨keep t m old.1, (hidden t m old.1 unseen).trans old.2⟩) ⟨start, rfl⟩
    (along_of_forall_mem step all)

/-- Two runs, of one system or of two, look alike to a viewer when the moves that
concern the viewer are the same in both: the others must not change what is seen,
and these must do the same to states that look alike. -/
theorem view_exec_eq {I : S → Prop} {J : S' → Prop} (keep : ∀ s m, I s → I (step s m))
    (keep' : ∀ s m, J s → J (step' s m))
    (hidden : ∀ s m, I s → concerns m = false → view (step s m) = view s)
    (hidden' : ∀ s m, J s → concerns m = false → view' (step' s m) = view' s)
    (determined : ∀ s s' m, I s → J s' → concerns m = true → view s = view' s' → view (step s m) = view' (step' s' m))
    {s : S} {s' : S'} (start : I s) (start' : J s') (same : view s = view' s') {moves moves' : List M}
    (alike : moves.filter concerns = moves'.filter concerns) :
    view (exec step s moves) = view' (exec step' s' moves') := by
  induction moves generalizing s s' moves' with
  | nil =>
    have unseen : ∀ m ∈ moves', concerns m = false := by
      intro m member
      simpa using List.filter_eq_nil_iff.mp alike.symm m member
    rw [exec_nil, (view_exec_hidden step' keep' hidden' start' unseen).2, same]
  | cons m rest ih =>
    cases concerned : concerns m with
    | true =>
      rw [List.filter_cons_of_pos concerned] at alike
      obtain ⟨front, back, rfl, unseen, _, alike⟩ := List.filter_eq_cons_iff.mp alike.symm
      have before := view_exec_hidden step' keep' hidden' start' fun m member => by simpa using unseen m member
      have next := determined s _ m start before.1 concerned (same.trans before.2.symm)
      rw [exec_append]
      exact ih (keep s m start) (keep' _ m before.1) next alike.symm
    | false =>
      rw [List.filter_cons_of_neg (by simp [concerned])] at alike
      exact ih (keep s m start) start' ((hidden s m start concerned).trans same) alike

end Unwinding

end Execution
