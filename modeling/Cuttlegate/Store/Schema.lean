import Cuttlegate.Domain.Project

/-!
# The Database Schema

The tables of the database, as lists of rows, with what the schema itself does:
foreign keys that cascade on delete, and row-level security.

Row-level security protects the tables that carry a project: a statement sees
and writes only the rows of the tenant its connection was set up for. A
connection taken from the pool has no tenant and sees none of them. Whether the
policies are enforced at all depends on the database role, so enforcement is
part of the connection. Rules and flag states carry no project and are not
protected.

A statement is a function of the whole store that either succeeds, with an
answer and the store it leaves, or fails with no effect.

## Main definitions

* `Store`: The tables.
* `Conn`, `Conn.sees`: A connection and the rows it may touch.
* `Stmt`: A statement.
* `Store.dropFlags`, `Store.dropEnvironments`, `Store.dropSegments`,
  `Store.dropProject`: Deletes with their cascades.
-/

namespace Cuttlegate

structure Store where
  projects : List Project := []
  members : List ProjectMember := []
  environments : List Environment := []
  flags : List Flag := []
  states : List FlagEnvironmentState := []
  rules : List Rule := []
  segments : List Segment := []
  segmentMembers : List SegmentMember := []
  apiKeys : List APIKey := []
  auditEvents : List AuditEvent := []
  users : List User := []
  deriving DecidableEq, Repr

/-- A database connection: the tenant it was set up for, if any, and whether
    row-level security is enforced on it. -/
structure Conn where
  tenant : Option String
  rls : Bool
  deriving DecidableEq, Repr

/-- Whether a protected row of the given project exists for the connection. -/
def Conn.sees (c : Conn) (projectID : String) : Bool := !c.rls || c.tenant == some projectID

/-- A connection from the pool carries no tenant. -/
def Conn.pool (c : Conn) : Conn := { c with tenant := none }

/-- A statement: an answer and the store it leaves, or an error and no effect. -/
abbrev Stmt (α : Type) := Store → Except Err (α × Store)

/-- A query that answers without touching the store. -/
def query {α : Type} (f : Store → α) : Stmt α := fun s => .ok (f s, s)

/-- A query for one row. -/
def queryRow {α : Type} (f : Store → Option α) : Stmt α := fun s =>
  match f s with
  | some a => .ok (a, s)
  | none => .error .notFound

/-- A write that reports `notFound` when it affected no row. -/
def affect (found : Store → Bool) (write : Store → Store) : Stmt Unit := fun s =>
  if found s then .ok ((), write s) else .error .notFound

/-! ## Deletes and their cascades -/

/-- Delete the flags selected by `gone`, with their states and rules. -/
def Store.dropFlags (s : Store) (gone : Flag → Bool) : Store :=
  let lost := (s.flags.filter gone).map (·.id)
  { s with
    flags := s.flags.filter (fun f => !gone f)
    states := s.states.filter (fun st => st.flagID ∉ lost)
    rules := s.rules.filter (fun r => r.flagID ∉ lost) }

/-- Delete the environments selected by `gone`, with their states, rules and
    API keys. -/
def Store.dropEnvironments (s : Store) (gone : Environment → Bool) : Store :=
  let lost := (s.environments.filter gone).map (·.id)
  { s with
    environments := s.environments.filter (fun e => !gone e)
    states := s.states.filter (fun st => st.environmentID ∉ lost)
    rules := s.rules.filter (fun r => r.environmentID ∉ lost)
    apiKeys := s.apiKeys.filter (fun k => k.environmentID ∉ lost) }

/-- Delete the segments selected by `gone`, with their members. -/
def Store.dropSegments (s : Store) (gone : Segment → Bool) : Store :=
  let lost := (s.segments.filter gone).map (·.id)
  { s with
    segments := s.segments.filter (fun g => !gone g)
    segmentMembers := s.segmentMembers.filter (fun m => m.segmentID ∉ lost) }

/-- Delete a project, with everything that refers to it. -/
def Store.dropProject (s : Store) (id : String) : Store :=
  let rest := ((s.dropFlags (fun f => f.projectID == id)).dropEnvironments
    (fun e => e.projectID == id)).dropSegments (fun g => g.projectID == id)
  { rest with
    projects := rest.projects.filter (fun p => p.id != id)
    members := rest.members.filter (fun m => m.projectID != id)
    apiKeys := rest.apiKeys.filter (fun k => k.projectID != id)
    auditEvents := rest.auditEvents.filter (fun a => a.projectID != id) }

end Cuttlegate
