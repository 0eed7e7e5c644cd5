/-
Operations that fail.

* `perform_after_of_error` — an operation that fails leaves the instance as it was;
* `failed_operation_leaves_no_trace` — so it can be struck from any history;
* `run_succeeding` — and a history comes to what its successful operations come to.

The instance is compared as a whole: the entries of the bag in their order, the collections among
them, and every next index.
-/
import ClassSchema.Proofs.Store.Action

namespace ClassSchema.Instance

/-- An operation that fails leaves the instance as it was. -/
theorem perform_after_of_error {i : Instance} {o : Operation} {e : StoreError}
    (h : (i.perform o).result = .error e) : (i.perform o).after = i := by
  rw [perform_eq_act] at h ⊢
  exact act_after_of_error h

/-- **A failed operation leaves no trace**, whatever class the instance has, whatever was done to it
before, and whatever is done to it later. -/
theorem failed_operation_leaves_no_trace (i : Instance) (history : List Operation)
    (o : Operation) {e : StoreError} (h : ((i.run history).perform o).result = .error e) :
    ((i.run history).perform o).after = i.run history ∧
      ∀ later, i.run (history ++ o :: later) = i.run (history ++ later) := by
  have hafter := perform_after_of_error h
  refine ⟨hafter, fun later => ?_⟩
  rw [run_append, run_append]
  rw [show (i.run history).run (o :: later) = ((i.run history).perform o).after.run later from rfl]
  rw [hafter]

/-- The operations of a history that succeed. -/
def succeeding (i : Instance) : List Operation → List Operation
  | [] => []
  | o :: os =>
    match (i.perform o).result with
    | .ok _ => o :: succeeding (i.perform o).after os
    | .error _ => succeeding (i.perform o).after os

theorem succeeding_append (i : Instance) (os more : List Operation) :
    i.succeeding (os ++ more) = i.succeeding os ++ (i.run os).succeeding more := by
  induction os generalizing i with
  | nil => rfl
  | cons o os ih =>
    rw [show i.run (o :: os) = (i.perform o).after.run os from rfl, List.cons_append, succeeding,
      succeeding]
    rcases (i.perform o).result with e | out
    · exact ih (i.perform o).after
    · exact congrArg (o :: ·) (ih (i.perform o).after)

/-- A history comes to what its successful operations come to. -/
theorem run_succeeding (i : Instance) (os : List Operation) :
    i.run (i.succeeding os) = i.run os := by
  induction os generalizing i with
  | nil => rfl
  | cons o os ih =>
    rw [show i.run (o :: os) = (i.perform o).after.run os from rfl, succeeding]
    rcases hresult : (i.perform o).result with e | out
    · -- the operation is left out, and going on from where it leaves off is going on from `i`
      simp only [perform_after_of_error hresult]
      exact ih i
    · exact ih (i.perform o).after

theorem exhausted_items_leave_no_trace :
    let i := (Class.root shelf).create
    let history := [.add (some "18446744073709551615") (some "items") (.int 1)]
    let o := .add none (some "items") (.int 2)
    ((i.run history).perform o).result = .error (.indexExhausted "Shelf" (some "items")) ∧
      ((i.run history).perform o).after = i.run history ∧
      ∀ later, i.run (history ++ o :: later) = i.run (history ++ later) := by
  intro i history o
  have h : ((i.run history).perform o).result =
      .error (.indexExhausted "Shelf" (some "items")) := by rfl
  exact ⟨h, failed_operation_leaves_no_trace i history o h⟩

end ClassSchema.Instance
