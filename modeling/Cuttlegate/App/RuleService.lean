import Cuttlegate.App.Context

/-!
# The Rule Service

Creating, updating, listing and deleting the targeting rules of a flag in an
environment.

A create or update lists the rules of the flag and environment it names,
refuses a priority one of them already has, and then writes. The list and the
write are two operations, and the write is keyed on the rule's id alone.

## Main definitions

* `NewRule`: The arguments of a creation.
* `RuleService.create`, `RuleService.update`, `RuleService.delete`,
  `RuleService.list`: The methods.
-/

namespace Cuttlegate

structure NewRule where
  flagID : String
  environmentID : String
  priority : Int
  conditions : List Condition
  variantKey : String
  name : String
  rollout : List RolloutEntry
  deriving DecidableEq, Repr

/-- The rule a creation starts from, before it has an id and a time. -/
def NewRule.toRule (n : NewRule) (id : String) (createdAt : Time) : Rule where
  id := id
  flagID := n.flagID
  environmentID := n.environmentID
  name := n.name
  priority := n.priority
  conditions := n.conditions
  variantKey := n.variantKey
  rollout := n.rollout
  enabled := true
  createdAt := createdAt

namespace RuleService

/-- The scan of a creation: no listed rule has the priority. -/
def checkPriority (existing : List Rule) (priority : Int) : Except Err Unit :=
  refuseIf (∃ r ∈ existing, r.priority = priority) .priorityConflict

/-- The scan of an update: no listed rule other than the one being updated has
    the priority. -/
def checkOthers (existing : List Rule) (rule : Rule) : Except Err Unit :=
  refuseIf (∃ r ∈ existing, r.priority = rule.priority ∧ r.id ≠ rule.id) .priorityConflict

def create (ctx : Ctx) (new : NewRule) : Prog Rule := do
  let _ ← ctx.require .editor
  check (new.toRule "" 0).validate
  let existing ← ctx.call (.listRulesByFlagEnvironment new.flagID new.environmentID)
  check (checkPriority existing new.priority)
  let id ← ctx.call .newUUID
  let now ← ctx.call .now
  let createdAt ← ctx.call (.upsertRule (new.toRule id now))
  return new.toRule id createdAt

def list (ctx : Ctx) (flagID environmentID : String) : Prog (List Rule) :=
  ctx.call (.listRulesByFlagEnvironment flagID environmentID)

def update (ctx : Ctx) (rule : Rule) : Prog Rule := do
  let _ ← ctx.require .editor
  check rule.validate
  let existing ← ctx.call (.listRulesByFlagEnvironment rule.flagID rule.environmentID)
  check (checkOthers existing rule)
  let createdAt ← ctx.call (.upsertRule rule)
  return { rule with createdAt := createdAt }

def delete (ctx : Ctx) (id : String) : Prog Unit := do
  let _ ← ctx.require .editor
  ctx.call (.deleteRule id)

/-! ## Footprints -/

section Footprint

variable (ctx : Ctx)

theorem create_within (new : NewRule) : Within [.rules] (create ctx new) := by
  refine within_require ctx _ _ (fun _ => within_check _ _ (fun _ => ?_))
  refine within_bind _ _ (within_read ctx _ rfl) (fun existing => within_check _ _ (fun _ => ?_))
  refine within_bind _ _ (within_read ctx _ rfl) (fun id => ?_)
  refine within_bind _ _ (within_read ctx _ rfl) (fun now => ?_)
  exact within_bind _ _ (within_call ctx _ (List.Subset.refl _)) (fun _ => within_ret _)

theorem update_within (rule : Rule) : Within [.rules] (update ctx rule) := by
  refine within_require ctx _ _ (fun _ => within_check _ _ (fun _ => ?_))
  refine within_bind _ _ (within_read ctx _ rfl) (fun existing => within_check _ _ (fun _ => ?_))
  exact within_bind _ _ (within_call ctx _ (List.Subset.refl _)) (fun _ => within_ret _)

theorem delete_within (id : String) : Within [.rules] (delete ctx id) :=
  within_require ctx _ _ (fun _ => within_call ctx _ (List.Subset.refl _))

end Footprint

end RuleService

end Cuttlegate
