import Cuttlegate.Adapters.RateLimit
import Cuttlegate.Store.Repository

/-!
# Keeping the Evaluations

The table of evaluations, which grows with every evaluation that is recorded
and is cut back by a worker of the server. The worker wakes up at intervals and
deletes what is older than some number of days. It runs on the pool, and a
delete that fails is logged and not repeated.

How long the worker sleeps is left out: it may wake up at any time.

## Main definitions

* `deleteOlderThan`: The delete.
* `EvaluationRows.Act`, `EvaluationRows.after`: What happens to the table.
-/

namespace Cuttlegate

/-- Delete the evaluations from before a time. -/
def deleteOlderThan (c : Conn) (cutoff : Time) (rows : List EvaluationEvent) :
    List EvaluationEvent :=
  rows.filter (fun e => !(c.sees e.projectID && decide (e.occurredAt < cutoff)))

/-- The time some days earlier. There is none before the zero time. -/
def daysBefore (days : Nat) (now : Time) : Time := now - days * (86400 * second)

namespace EvaluationRows

/-- What happens to the table. -/
inductive Act where
  /-- An evaluation is recorded. -/
  | publish (e : EvaluationEvent)
  /-- The worker wakes up, and its delete may fail. -/
  | tick (now : Time) (fails : Bool)
  deriving DecidableEq

variable (c : Conn) (retentionDays : Nat)

def apply (rows : List EvaluationEvent) : Act → List EvaluationEvent
  | .publish e => rows ++ [e]
  | .tick now fails =>
      if fails then rows else deleteOlderThan c.pool (daysBefore retentionDays now) rows

def after (rows : List EvaluationEvent) (acts : List Act) : List EvaluationEvent :=
  acts.foldl (apply c retentionDays) rows

/-- The evaluations that are recorded. -/
def published (acts : List Act) : List EvaluationEvent :=
  acts.filterMap (fun a =>
    match a with
    | .publish e => some e
    | .tick _ _ => none)

/-- What is in the table was there or has been recorded, and is there once if it
    was recorded once. -/
theorem after_sublist (rows : List EvaluationEvent) (acts : List Act) :
    (after c retentionDays rows acts).Sublist (rows ++ published acts) := by
  induction acts generalizing rows with
  | nil => exact List.sublist_append_left rows []
  | cons a acts ih =>
      refine (ih (apply c retentionDays rows a)).trans ?_
      cases a with
      | publish e =>
          rw [show published (.publish e :: acts) = e :: published acts from rfl, List.append_cons]
          exact List.Sublist.refl _
      | tick now fails =>
          refine List.Sublist.append_right ?_ (published acts)
          cases fails with
          | true => exact List.Sublist.refl rows
          | false => exact List.filter_sublist

/-- An evaluation stays in the table as long as it is not too old for the worker
    when that wakes up. -/
theorem mem_after (rows : List EvaluationEvent) (acts : List Act) (e : EvaluationEvent)
    (he : e ∈ rows)
    (hyoung : ∀ now fails, .tick now fails ∈ acts → daysBefore retentionDays now ≤ e.occurredAt) :
    e ∈ after c retentionDays rows acts := by
  induction acts generalizing rows with
  | nil => exact he
  | cons a acts ih =>
      refine ih (apply c retentionDays rows a) ?_
        (fun now fails h => hyoung now fails (List.mem_cons_of_mem a h))
      cases a with
      | publish e' => exact List.mem_append_left _ he
      | tick now fails =>
          cases fails with
          | true => exact he
          | false =>
              refine List.mem_filter.mpr ⟨he, ?_⟩
              have hle := hyoung now false List.mem_cons_self
              simp [Nat.not_lt.mpr hle]

end EvaluationRows

end Cuttlegate
