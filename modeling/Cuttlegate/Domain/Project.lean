import Cuttlegate.Domain.Access
import Cuttlegate.Domain.Evaluator

/-!
# Projects and What They Hold

The remaining entities of the domain: projects, their environments, members
and segments, the cached profiles of users, and the events a change leaves
behind. Each entity that is validated before it is stored has its check here.

## Main definitions

* `Project`, `Environment`, `Segment`: Named entities with a slug.
* `checkNameAndSlug`: The check they share.
* `ProjectMember`, `User`: People.
* `AuditEvent`, `FlagStateChangedEvent`, `EvaluationEvent`: Events.
* `FlagListFilter`, `AuditFilter`, `EvaluationFilter`: The parameters of the
  paginated lists.
* `FlagEvaluationStats`, `EvaluationBucket`: Counts of evaluations.
-/

namespace Cuttlegate

structure Project where
  id : String
  name : String
  slug : String
  createdAt : Time
  deriving DecidableEq, Repr

structure Environment where
  id : String
  projectID : String
  name : String
  slug : String
  createdAt : Time
  deriving DecidableEq, Repr

structure Segment where
  id : String
  slug : String
  name : String
  projectID : String
  createdAt : Time
  deriving DecidableEq, Repr

/-- The check projects, environments and segments share: a name, and a slug
    of the same grammar as flag keys. -/
def checkNameAndSlug (name slug : String) : Except Err Unit := do
  refuseIf (name = "") (.validation "name" "must not be empty")
  refuseIf (slugRe slug = false) (.validation "slug" "must match ^[a-z0-9][a-z0-9-]*$")

def Project.validate (p : Project) : Except Err Unit := checkNameAndSlug p.name p.slug

def Environment.validate (e : Environment) : Except Err Unit := checkNameAndSlug e.name e.slug

def Segment.validate (s : Segment) : Except Err Unit := checkNameAndSlug s.name s.slug

structure ProjectMember where
  projectID : String
  userID : String
  role : Role
  createdAt : Time
  deriving DecidableEq, Repr

/-- A cached user profile. The source's record also carries the role of the
    current token, which is never stored. -/
structure User where
  sub : String
  email : String
  name : String
  deriving DecidableEq, Repr

/-- One user key of a segment, with the time it was added. -/
structure SegmentMember where
  segmentID : String
  userKey : String
  addedAt : Time
  deriving DecidableEq, Repr

structure SegmentWithCount where
  segment : Segment
  memberCount : Nat
  deriving DecidableEq, Repr

structure AuditEvent where
  id : String
  projectID : String
  actorID : String
  action : String
  entityType : String
  entityID : String
  entityKey : String
  environmentSlug : String
  source : String
  beforeState : String
  afterState : String
  occurredAt : Time
  deriving DecidableEq, Repr

structure FlagStateChangedEvent where
  project : String
  environment : String
  flagKey : String
  enabled : Bool
  timestamp : Time
  deriving DecidableEq, Repr

/-- The record of one evaluation. The source's record also carries the input
    attributes as text, which nothing reads back. -/
structure EvaluationEvent where
  id : String
  flagKey : String
  projectID : String
  environmentID : String
  userID : String
  matchedRuleID : String
  matchedRuleName : String
  variantKey : String
  reason : EvalReason
  occurredAt : Time
  deriving DecidableEq, Repr

structure FlagListFilter where
  page : Int64
  perPage : Int64
  search : String
  sortBy : String
  sortDir : String
  deriving DecidableEq, Repr

/-- Defaults and bounds of the paginated flag list. -/
def FlagListFilter.normalize (f : FlagListFilter) : FlagListFilter where
  page := if f.page < 1 then 1 else f.page
  perPage :=
    let perPage := if f.perPage < 1 then 50 else f.perPage
    if perPage > 100 then 100 else perPage
  search := f.search
  sortBy := if f.sortBy ∈ ["key", "name", "type", "created_at"] then f.sortBy else "created_at"
  sortDir := if f.sortDir ≠ "asc" ∧ f.sortDir ≠ "desc" then "asc" else f.sortDir

/-- The default and the bound on the length of a page of events. -/
def normalizeLimit (limit : Int64) : Int64 :=
  let limit := if limit ≤ 0 then 50 else limit
  if limit > 200 then 200 else limit

/-- The parameters of the audit log; the zero time asks for no bound. -/
structure AuditFilter where
  flagKey : String := ""
  before : Time := 0
  limit : Int64 := 0
  deriving DecidableEq, Repr

def AuditFilter.normalize (f : AuditFilter) : AuditFilter :=
  { f with limit := normalizeLimit f.limit }

/-- The parameters of the list of evaluations, likewise. -/
structure EvaluationFilter where
  before : Time := 0
  limit : Int64 := 0
  deriving DecidableEq, Repr

def EvaluationFilter.normalize (f : EvaluationFilter) : EvaluationFilter :=
  { f with limit := normalizeLimit f.limit }

/-- How often a flag was evaluated in an environment, and when last. -/
structure FlagEvaluationStats where
  flagID : String
  environmentID : String
  flagKey : String := ""
  evaluationCount : Nat := 0
  lastEvaluatedAt : Time := 0
  deriving DecidableEq, Repr

/-- The evaluations that fall into one slot of time, by variant. -/
structure EvaluationBucket where
  timestamp : Time
  total : Nat := 0
  variants : List (String × Nat) := []
  deriving DecidableEq, Repr

end Cuttlegate
