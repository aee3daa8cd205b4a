import Cuttlegate.Store.Schema

/-!
# The Repositories

Every statement the repositories send, table by table.

An insert meets the checks of the database in order: the row-level policy, the
unique constraints, the foreign keys. A repository turns a unique violation
into `conflict` where it looks for one, and passes every other error on. An
update or delete by id that affects no row is `notFound`.

The identifiers of rules and segments are columns of type UUID, so a text is
parsed before it is compared or stored; `uuid` is that parser, whose answer is
the canonical spelling. Priorities are 32-bit columns.

## Main definitions

* `createProject`, `renameProject`, `deleteProject`: Projects.
* `addMember`, `updateMemberRole`, `removeMember`: Members.
* `createEnvironment`, `renameEnvironment`, `deleteEnvironment`: Environments.
* `createFlag`, `flagByKey`, `listFlags`, `updateFlag`, `deleteFlag`: Flags.
* `insertState`, `setEnabled`: The states of flags in environments.
* `listRulesByFlagEnvironment`, `upsertRule`, `deleteRule`: Rules.
* `createSegment`, `setSegmentMembers`, `isMember`: Segments.
* `createAPIKey`, `apiKeyByHash`, `revokeAPIKey`, `updateAPIKeyTier`: Keys.
* `recordAuditEvent`, `listAuditEvents`: The audit log.
* `listEvaluations`, `evaluationStats`, `evaluationBuckets`: The evaluations.
-/

namespace Cuttlegate

/-! ## Projects -/

def createProject (p : Project) : Stmt Unit := fun s => do
  refuseIf (∃ q ∈ s.projects, q.id = p.id ∨ q.slug = p.slug) .conflict
  .ok ((), { s with projects := s.projects ++ [p] })

def projectBySlug (slug : String) : Stmt Project :=
  queryRow (fun s => s.projects.find? (fun p => p.slug == slug))

def listProjects (order : Sorter) : Stmt (List Project) :=
  query (fun s => order.sort (fun a b => decide (a.createdAt < b.createdAt)) s.projects)

def renameProject (id name : String) : Stmt Unit :=
  affect (fun s => s.projects.any (fun p => p.id == id))
    (fun s => { s with
      projects := s.projects.map (fun p => if p.id = id then { p with name := name } else p) })

def deleteProject (id : String) : Stmt Unit :=
  affect (fun s => s.projects.any (fun p => p.id == id)) (fun s => s.dropProject id)

/-! ## Members -/

def addMember (c : Conn) (m : ProjectMember) : Stmt Unit := fun s => do
  refuseIf (c.sees m.projectID = false) .internal
  refuseIf (∃ n ∈ s.members, n.projectID = m.projectID ∧ n.userID = m.userID) .conflict
  refuseIf (∀ p ∈ s.projects, p.id ≠ m.projectID) .internal
  .ok ((), { s with members := s.members ++ [m] })

/-- The member row of a user in a project, as far as the connection sees it. -/
def Conn.isMemberRow (c : Conn) (projectID userID : String) (m : ProjectMember) : Bool :=
  c.sees m.projectID && m.projectID == projectID && m.userID == userID

def listMembers (c : Conn) (order : Sorter) (projectID : String) : Stmt (List ProjectMember) :=
  query (fun s => order.sort (fun a b => decide (a.createdAt < b.createdAt))
    (s.members.filter (fun m => c.sees m.projectID && m.projectID == projectID)))

def updateMemberRole (c : Conn) (projectID userID : String) (role : Role) : Stmt Unit :=
  affect (fun s => s.members.any (c.isMemberRow projectID userID))
    (fun s => { s with
      members := s.members.map (fun m =>
        if c.isMemberRow projectID userID m then { m with role := role } else m) })

def removeMember (c : Conn) (projectID userID : String) : Stmt Unit :=
  affect (fun s => s.members.any (c.isMemberRow projectID userID))
    (fun s => { s with
      members := s.members.filter (fun m => !c.isMemberRow projectID userID m) })

/-! ## Environments -/

def createEnvironment (c : Conn) (e : Environment) : Stmt Unit := fun s => do
  refuseIf (c.sees e.projectID = false) .internal
  refuseIf (∃ d ∈ s.environments, d.id = e.id ∨ (d.projectID = e.projectID ∧ d.slug = e.slug))
    .conflict
  refuseIf (∀ p ∈ s.projects, p.id ≠ e.projectID) .internal
  .ok ((), { s with environments := s.environments ++ [e] })

def environmentBySlug (c : Conn) (projectID slug : String) : Stmt Environment :=
  queryRow (fun s => s.environments.find? (fun e =>
    c.sees e.projectID && e.projectID == projectID && e.slug == slug))

def listEnvironments (c : Conn) (order : Sorter) (projectID : String) :
    Stmt (List Environment) :=
  query (fun s => order.sort (fun a b => decide (a.createdAt < b.createdAt))
    (s.environments.filter (fun e => c.sees e.projectID && e.projectID == projectID)))

/-- The environment row with the given id, as far as the connection sees it. -/
def Conn.isEnvironmentRow (c : Conn) (id : String) (e : Environment) : Bool :=
  c.sees e.projectID && e.id == id

def renameEnvironment (c : Conn) (id name : String) : Stmt Unit :=
  affect (fun s => s.environments.any (c.isEnvironmentRow id))
    (fun s => { s with
      environments := s.environments.map (fun e =>
        if c.isEnvironmentRow id e then { e with name := name } else e) })

def deleteEnvironment (c : Conn) (id : String) : Stmt Unit :=
  affect (fun s => s.environments.any (c.isEnvironmentRow id))
    (fun s => s.dropEnvironments (c.isEnvironmentRow id))

/-! ## Flags -/

def createFlag (c : Conn) (f : Flag) : Stmt Unit := fun s => do
  refuseIf (c.sees f.projectID = false) .internal
  refuseIf (∃ g ∈ s.flags, g.id = f.id ∨ (g.projectID = f.projectID ∧ g.key = f.key)) .conflict
  refuseIf (∀ p ∈ s.projects, p.id ≠ f.projectID) .internal
  .ok ((), { s with flags := s.flags ++ [f] })

def flagByKey (c : Conn) (projectID key : String) : Stmt Flag :=
  queryRow (fun s => s.flags.find? (fun f =>
    c.sees f.projectID && f.projectID == projectID && f.key == key))

def listFlags (c : Conn) (order : Sorter) (projectID : String) : Stmt (List Flag) :=
  query (fun s => order.sort (fun a b => decide (a.createdAt < b.createdAt))
    (s.flags.filter (fun f => c.sees f.projectID && f.projectID == projectID)))

/-- The flags a paginated list selects; `ilike` is the database's pattern
    matching. -/
def matchFlags (c : Conn) (ilike : String → String → Bool) (projectID search : String)
    (s : Store) : List Flag :=
  s.flags.filter (fun f => c.sees f.projectID && f.projectID == projectID &&
    (search == "" || ilike f.key ("%" ++ search ++ "%") || ilike f.name ("%" ++ search ++ "%")))

def countFlags (c : Conn) (ilike : String → String → Bool) (projectID search : String) :
    Stmt Nat :=
  query (fun s => (matchFlags c ilike projectID search s).length)

/-- A flag's type as its column spells it. -/
def FlagType.text : FlagType → String
  | .bool => "bool"
  | .string => "string"
  | .number => "number"
  | .json => "json"
  | .other name => name

/-- The comparison a paginated list sorts by. Texts are compared by the
    collation of the database. -/
def flagColumnLess (collation : Collation) (sortBy : String) (a b : Flag) : Bool :=
  if sortBy = "key" then collation.less a.key b.key
  else if sortBy = "name" then collation.less a.name b.name
  else if sortBy = "type" then collation.less a.type.text b.type.text
  else decide (a.createdAt < b.createdAt)

/-- One page of the flag list. The offset wraps around, and a negative one is
    an error of the database. -/
def pageFlags (c : Conn) (order : Sorter) (collation : Collation)
    (ilike : String → String → Bool) (projectID : String) (filter : FlagListFilter) :
    Stmt (List Flag) := fun s => do
  let less := fun a b => if filter.sortDir = "desc" then flagColumnLess collation filter.sortBy b a
    else flagColumnLess collation filter.sortBy a b
  let offset := (filter.page - 1) * filter.perPage
  refuseIf (offset < 0) .internal
  .ok (((order.sort less (matchFlags c ilike projectID filter.search s)).drop
    offset.toNatClampNeg).take filter.perPage.toNatClampNeg, s)

/-- The flag row with the given id, as far as the connection sees it. -/
def Conn.isFlagRow (c : Conn) (id : String) (f : Flag) : Bool := c.sees f.projectID && f.id == id

/-- Only the name, the variants and the default are written. -/
def Flag.overwrite (f new : Flag) : Flag :=
  { f with name := new.name, variants := new.variants
           defaultVariantKey := new.defaultVariantKey }

def updateFlag (c : Conn) (new : Flag) : Stmt Unit :=
  affect (fun s => s.flags.any (c.isFlagRow new.id))
    (fun s => { s with
      flags := s.flags.map (fun f => if c.isFlagRow new.id f then f.overwrite new else f) })

def deleteFlag (c : Conn) (id : String) : Stmt Unit :=
  affect (fun s => s.flags.any (c.isFlagRow id)) (fun s => s.dropFlags (c.isFlagRow id))

/-! ## Flag states -/

/-- The foreign keys of a row that belongs to a flag and an environment. -/
def Store.HasParents (s : Store) (flagID environmentID : String) : Prop :=
  (∃ f ∈ s.flags, f.id = flagID) ∧ ∃ e ∈ s.environments, e.id = environmentID

instance (s : Store) (flagID environmentID : String) :
    Decidable (s.HasParents flagID environmentID) :=
  inferInstanceAs (Decidable (_ ∧ _))

def insertState (st : FlagEnvironmentState) : Stmt Unit := fun s => do
  refuseIf (∃ x ∈ s.states, x.flagID = st.flagID ∧ x.environmentID = st.environmentID) .internal
  refuseIf (¬ s.HasParents st.flagID st.environmentID) .internal
  .ok ((), { s with states := s.states ++ [st] })

def listStates (order : Sorter) (environmentID : String) : Stmt (List FlagEnvironmentState) :=
  query (fun s => order.sort (fun _ _ => false)
    (s.states.filter (fun st => st.environmentID == environmentID)))


/-- Whether a state row is the one of a flag in an environment. -/
def FlagEnvironmentState.isFor (flagID environmentID : String) (st : FlagEnvironmentState) :
    Bool :=
  st.flagID == flagID && st.environmentID == environmentID

def stateOf (flagID environmentID : String) : Stmt (Option FlagEnvironmentState) :=
  query (fun s => s.states.find? (FlagEnvironmentState.isFor flagID environmentID))

/-- The write behind a toggle is an upsert. -/
def setEnabled (flagID environmentID : String) (enabled : Bool) : Stmt Unit := fun s =>
  if s.states.any (FlagEnvironmentState.isFor flagID environmentID) then
    .ok ((), { s with
      states := s.states.map (fun st =>
        if st.isFor flagID environmentID then { st with enabled := enabled } else st) })
  else do
    refuseIf (¬ s.HasParents flagID environmentID) .internal
    .ok ((), { s with states := s.states ++ [⟨flagID, environmentID, enabled⟩] })

/-! ## Rules -/

def listRulesByFlag (order : Sorter) (flagID : String) : Stmt (List Rule) :=
  query (fun s => order.sort
    (fun a b => decide (a.environmentID < b.environmentID) ||
      (a.environmentID == b.environmentID && decide (a.priority < b.priority)))
    (s.rules.filter (fun r => r.flagID == flagID)))

def listRulesByFlagEnvironment (order : Sorter) (flagID environmentID : String) :
    Stmt (List Rule) :=
  query (fun s => order.sort (fun a b => decide (a.priority < b.priority))
    (s.rules.filter (fun r => r.flagID == flagID && r.environmentID == environmentID)))

def listRulesByEnvironment (order : Sorter) (environmentID : String) : Stmt (List Rule) :=
  query (fun s => order.sort
    (fun a b => decide (a.flagID < b.flagID) ||
      (a.flagID == b.flagID && decide (a.priority < b.priority)))
    (s.rules.filter (fun r => r.environmentID == environmentID)))

/-- What an upsert writes over a stored rule: everything but its id, its flag,
    its environment and its creation time. -/
def Rule.overwrite (r new : Rule) : Rule :=
  { r with name := new.name, priority := new.priority, conditions := new.conditions
           variantKey := new.variantKey, rollout := new.rollout, enabled := new.enabled }

/-- Whether a number fits the 32-bit column of priorities. -/
def fitsInt32 (n : Int) : Bool := decide (-2147483648 ≤ n) && decide (n ≤ 2147483647)

/-- The upsert of a rule, keyed on the id alone. The answer is the creation
    time of the stored row. -/
def upsertRule (uuid : String → Option String) (new : Rule) : Stmt Time := fun s =>
  match uuid new.id with
  | none => .error .internal
  | some id => do
      refuseIf (fitsInt32 new.priority = false) .internal
      match s.rules.find? (fun r => r.id == id) with
      | some old => .ok (old.createdAt, { s with
          rules := s.rules.map (fun r => if r.id = id then r.overwrite new else r) })
      | none => do
          refuseIf (¬ s.HasParents new.flagID new.environmentID) .internal
          .ok (new.createdAt, { s with rules := s.rules ++ [{ new with id := id }] })

def deleteRule (uuid : String → Option String) (id : String) : Stmt Unit := fun s =>
  match uuid id with
  | none => .error .internal
  | some id =>
      affect (fun s => s.rules.any (fun r => r.id == id))
        (fun s => { s with rules := s.rules.filter (fun r => r.id != id) }) s

/-! ## Segments -/

def createSegment (c : Conn) (uuid : String → Option String) (g : Segment) : Stmt Unit := fun s =>
  match uuid g.id with
  | none => .error .internal
  | some id => do
      refuseIf (c.sees g.projectID = false) .internal
      refuseIf (∃ d ∈ s.segments, d.id = id ∨ (d.projectID = g.projectID ∧ d.slug = g.slug))
        .conflict
      refuseIf (∀ p ∈ s.projects, p.id ≠ g.projectID) .internal
      .ok ((), { s with segments := s.segments ++ [{ g with id := id }] })

def segmentBySlug (c : Conn) (projectID slug : String) : Stmt Segment :=
  queryRow (fun s => s.segments.find? (fun g =>
    c.sees g.projectID && g.projectID == projectID && g.slug == slug))

def listSegments (c : Conn) (order : Sorter) (projectID : String) : Stmt (List Segment) :=
  query (fun s => order.sort (fun a b => decide (a.createdAt < b.createdAt))
    (s.segments.filter (fun g => c.sees g.projectID && g.projectID == projectID)))

def listSegmentsWithCount (c : Conn) (order : Sorter) (projectID : String) :
    Stmt (List SegmentWithCount) :=
  query (fun s => (order.sort (fun a b => decide (a.createdAt < b.createdAt))
    (s.segments.filter (fun g => c.sees g.projectID && g.projectID == projectID))).map
      (fun g => ⟨g, (s.segmentMembers.filter (fun m => m.segmentID == g.id)).length⟩))

/-- The segment row with the given id, as far as the connection sees it. -/
def Conn.isSegmentRow (c : Conn) (id : String) (g : Segment) : Bool :=
  c.sees g.projectID && g.id == id

def renameSegment (c : Conn) (uuid : String → Option String) (id name : String) : Stmt Unit :=
    fun s =>
  match uuid id with
  | none => .error .internal
  | some id =>
      affect (fun s => s.segments.any (c.isSegmentRow id))
        (fun s => { s with
          segments := s.segments.map (fun g =>
            if c.isSegmentRow id g then { g with name := name } else g) }) s

def deleteSegment (c : Conn) (uuid : String → Option String) (id : String) : Stmt Unit := fun s =>
  match uuid id with
  | none => .error .internal
  | some id =>
      affect (fun s => s.segments.any (c.isSegmentRow id))
        (fun s => s.dropSegments (c.isSegmentRow id)) s

/-- The replacement of a segment's members, in a transaction of its own: when
    a key repeats or the segment is missing, nothing changes. -/
def setSegmentMembers (uuid : String → Option String) (now : Time) (segmentID : String)
    (userKeys : List String) : Stmt Unit := fun s =>
  match uuid segmentID with
  | none => .error .internal
  | some id => do
      refuseIf (userKeys ≠ [] ∧ ∀ g ∈ s.segments, g.id ≠ id) .internal
      refuseIf (¬ userKeys.Nodup) .internal
      .ok ((), { s with
        segmentMembers := s.segmentMembers.filter (fun m => m.segmentID != id) ++
          userKeys.map (fun key => ⟨id, key, now⟩) })

def listSegmentMembers (uuid : String → Option String) (order : Sorter) (segmentID : String) :
    Stmt (List String) := fun s =>
  match uuid segmentID with
  | none => .error .internal
  | some id => .ok ((order.sort (fun a b => decide (a.addedAt < b.addedAt))
      (s.segmentMembers.filter (fun m => m.segmentID == id))).map (·.userKey), s)

def isMember (uuid : String → Option String) (segmentID userKey : String) : Stmt Bool := fun s =>
  match uuid segmentID with
  | none => .error .internal
  | some id => .ok (s.segmentMembers.any (fun m => m.segmentID == id && m.userKey == userKey), s)

/-! ## API keys -/

def createAPIKey (c : Conn) (k : APIKey) : Stmt Unit := fun s => do
  refuseIf (c.sees k.projectID = false) .internal
  refuseIf (∃ j ∈ s.apiKeys, j.id = k.id ∨ j.keyHash = k.keyHash) .conflict
  refuseIf (∀ p ∈ s.projects, p.id ≠ k.projectID) .internal
  refuseIf (∀ e ∈ s.environments, e.id ≠ k.environmentID) .internal
  .ok ((), { s with apiKeys := s.apiKeys ++ [k] })

def apiKeyByID (c : Conn) (id : String) : Stmt APIKey :=
  queryRow (fun s => s.apiKeys.find? (fun k => c.sees k.projectID && k.id == id))

def apiKeyByHash (c : Conn) (hash : KeyHash) : Stmt APIKey :=
  queryRow (fun s => s.apiKeys.find? (fun k => c.sees k.projectID && k.keyHash == hash))

def listAPIKeys (c : Conn) (order : Sorter) (projectID environmentID : String) :
    Stmt (List APIKey) :=
  query (fun s => order.sort (fun a b => decide (a.createdAt < b.createdAt))
    (s.apiKeys.filter (fun k =>
      c.sees k.projectID && k.projectID == projectID && k.environmentID == environmentID)))

/-- The row of the key with the given id, while it is not revoked and as far
    as the connection sees it. -/
def Conn.isLiveKeyRow (c : Conn) (id : String) (k : APIKey) : Bool :=
  c.sees k.projectID && k.id == id && k.revokedAt.isNone

def revokeAPIKey (c : Conn) (now : Time) (id : String) : Stmt Unit :=
  affect (fun s => s.apiKeys.any (c.isLiveKeyRow id))
    (fun s => { s with
      apiKeys := s.apiKeys.map (fun k =>
        if c.isLiveKeyRow id k then { k with revokedAt := some now } else k) })

def updateAPIKeyTier (c : Conn) (id : String) (tier : ToolCapabilityTier) : Stmt Unit :=
  affect (fun s => s.apiKeys.any (c.isLiveKeyRow id))
    (fun s => { s with
      apiKeys := s.apiKeys.map (fun k =>
        if c.isLiveKeyRow id k then { k with capabilityTier := tier } else k) })

/-! ## Audit log and users -/

def recordAuditEvent (c : Conn) (a : AuditEvent) : Stmt Unit := fun s => do
  refuseIf (c.sees a.projectID = false) .internal
  refuseIf (∃ b ∈ s.auditEvents, b.id = a.id) .internal
  refuseIf (∀ p ∈ s.projects, p.id ≠ a.projectID) .internal
  .ok ((), { s with auditEvents := s.auditEvents ++ [a] })

/-- An audit event with the address of its actor, where it is known. -/
structure ListedAuditEvent where
  event : AuditEvent
  actorEmail : String
  deriving DecidableEq, Repr

/-- The address a profile holds for a user. -/
def Store.emailOf (s : Store) (userID : String) : String :=
  ((s.users.find? (fun u => u.sub == userID)).map (·.email)).getD ""

/-- One page of the audit log, the latest events first. -/
def listAuditEvents (c : Conn) (order : Sorter) (projectID : String) (filter : AuditFilter) :
    Stmt (List ListedAuditEvent) :=
  query (fun s => ((order.sort (fun a b => decide (b.occurredAt < a.occurredAt))
    (s.auditEvents.filter (fun a => c.sees a.projectID && a.projectID == projectID &&
      (filter.flagKey == "" || a.entityKey == filter.flagKey) &&
      (filter.before == 0 || decide (a.occurredAt < filter.before))))).take
        filter.normalize.limit.toNatClampNeg).map (fun a => ⟨a, s.emailOf a.actorID⟩))

def upsertUser (u : User) : Stmt Unit := fun s =>
  if s.users.any (fun v => v.sub == u.sub) then
    .ok ((), { s with users := s.users.map (fun v => if v.sub = u.sub then u else v) })
  else .ok ((), { s with users := s.users ++ [u] })

def userByID (id : String) : Stmt (Option User) :=
  query (fun s => s.users.find? (fun u => u.sub == id))

/-! ## Evaluations

The events of evaluations, each with the flag it is counted for, are kept
beside the other tables. -/

/-- One page of the evaluations of a flag, the latest first. -/
def listEvaluations (c : Conn) (order : Sorter) (projectID environmentID flagKey : String)
    (filter : EvaluationFilter) (rows : List EvaluationEvent) : List EvaluationEvent :=
  (order.sort (fun a b => decide (b.occurredAt < a.occurredAt))
    (rows.filter (fun e => c.sees e.projectID && e.projectID == projectID &&
      e.environmentID == environmentID && e.flagKey == flagKey &&
      (filter.before == 0 || decide (e.occurredAt < filter.before))))).take
        filter.normalize.limit.toNatClampNeg

/-- The upsert of a row of statistics. -/
def FlagEvaluationStats.upsert (old : FlagEvaluationStats) (e : EvaluationEvent) :
    FlagEvaluationStats :=
  { old with
    flagKey := e.flagKey, evaluationCount := old.evaluationCount + 1
    lastEvaluatedAt := e.occurredAt }

/-- The statistics the upserts have left, all zero before the first. They are
    not protected. -/
def evaluationStats (flagID environmentID : String) (rows : List (String × EvaluationEvent)) :
    FlagEvaluationStats :=
  (rows.filter (fun r => r.1 == flagID && r.2.environmentID == environmentID)).foldl
    (fun stats r => stats.upsert r.2) { flagID := flagID, environmentID := environmentID }

/-- The length of a bucket, for the two sizes there are. -/
def bucketInterval (bucketSize : String) : Option Time :=
  if bucketSize = "day" then some (24 * 3600 * 1000000000)
  else if bucketSize = "hour" then some (3600 * 1000000000)
  else none

/-- The start of the bucket a time falls into. -/
def dateTrunc (interval : Time) (t : Time) : Time := t - t % interval

/-- The starts of the buckets between two times, both included. -/
def generateSeries (interval first last : Time) : List Time :=
  (List.range ((last + interval - first) / interval)).map (fun i => first + i * interval)

/-- How often each variant was served, one row a variant. -/
def countVariants (order : Sorter) (collation : Collation) (events : List EvaluationEvent) :
    List (String × Nat) :=
  (order.sort collation.less (events.map (·.variantKey)).eraseDups).map
    (fun key => (key, (events.filter (fun e => e.variantKey == key)).length))

/-- Add a row of counts to a bucket; rows without a variant are skipped. -/
def EvaluationBucket.add (b : EvaluationBucket) (row : String × Nat) : EvaluationBucket :=
  if row.1 ≠ "" ∧ row.2 > 0 then
    { b with variants := b.variants ++ [row], total := b.total + row.2 }
  else b

/-- The evaluations of a flag since a time, slot by slot; the last slot is the
    one of the database's own clock. -/
def evaluationBuckets (c : Conn) (order : Sorter) (collation : Collation) (now : Time)
    (projectID environmentID flagKey : String) (since : Time) (bucketSize : String)
    (rows : List EvaluationEvent) : Option (List EvaluationBucket) :=
  (bucketInterval bucketSize).map (fun interval =>
    (generateSeries interval (dateTrunc interval since) (dateTrunc interval now)).map (fun slot =>
      (countVariants order collation (rows.filter (fun e => c.sees e.projectID &&
        dateTrunc interval e.occurredAt == slot && e.projectID == projectID &&
        e.environmentID == environmentID && e.flagKey == flagKey &&
        decide (since ≤ e.occurredAt)))).foldl EvaluationBucket.add { timestamp := slot }))

/-! ## What a successful statement did

One lemma for each statement that writes: the checks it passed, and the store
it left. -/

theorem affect_ok (found : Store → Bool) (write : Store → Store) (s s' : Store) (u : Unit)
    (h : affect found write s = .ok (u, s')) : found s = true ∧ s' = write s := by
  unfold affect at h
  by_cases hfound : found s = true
  · rw [if_pos hfound] at h
    exact ⟨hfound, (Prod.mk.inj (Except.ok.inj h)).2.symm⟩
  · rw [if_neg hfound] at h
    exact (nomatch h)

theorem queryRow_ok {α : Type} (f : Store → Option α) (s s' : Store) (a : α)
    (h : queryRow f s = .ok (a, s')) : f s = some a ∧ s' = s := by
  unfold queryRow at h
  cases hf : f s with
  | none =>
      rw [hf] at h
      exact (nomatch h)
  | some b =>
      rw [hf] at h
      rcases Prod.mk.inj (Except.ok.inj h) with ⟨hb, hs⟩
      exact ⟨by rw [hb], hs.symm⟩

/-- The successful end of a sequence of guards. -/
theorem ok_unit_inj (u : Unit) (s s' : Store)
    (h : (Except.ok ((), s) : Except Err (Unit × Store)) = .ok (u, s')) : s' = s :=
  (Prod.mk.inj (Except.ok.inj h)).2.symm

theorem pageFlags_ok (c : Conn) (order : Sorter) (collation : Collation)
    (ilike : String → String → Bool) (projectID : String) (filter : FlagListFilter) (s s' : Store)
    (page : List Flag)
    (h : pageFlags c order collation ilike projectID filter s = .ok (page, s')) : s' = s := by
  simp only [pageFlags, bind_unit_ok] at h
  exact (Prod.mk.inj (Except.ok.inj h.2)).2.symm

theorem createProject_ok (p : Project) (s s' : Store) (u : Unit)
    (h : createProject p s = .ok (u, s')) :
    (∀ q ∈ s.projects, q.id ≠ p.id ∧ q.slug ≠ p.slug) ∧
      s' = { s with projects := s.projects ++ [p] } := by
  simp only [createProject, bind_unit_ok, refuseIf_ok, not_exists, not_and, not_or] at h
  exact ⟨h.1, ok_unit_inj _ _ _ h.2⟩

theorem addMember_ok (c : Conn) (m : ProjectMember) (s s' : Store) (u : Unit)
    (h : addMember c m s = .ok (u, s')) :
    c.sees m.projectID = true ∧
      (∀ n ∈ s.members, n.projectID = m.projectID → n.userID ≠ m.userID) ∧
      (∃ p ∈ s.projects, p.id = m.projectID) ∧
      s' = { s with members := s.members ++ [m] } := by
  simp only [addMember, bind_unit_ok, refuseIf_ok, not_exists, not_and, not_forall,
    Bool.not_eq_false, not_not, exists_prop] at h
  exact ⟨h.1, h.2.1, h.2.2.1, ok_unit_inj _ _ _ h.2.2.2⟩

theorem createEnvironment_ok (c : Conn) (e : Environment) (s s' : Store) (u : Unit)
    (h : createEnvironment c e s = .ok (u, s')) :
    c.sees e.projectID = true ∧
      (∀ d ∈ s.environments, d.id ≠ e.id ∧ (d.projectID = e.projectID → d.slug ≠ e.slug)) ∧
      (∃ p ∈ s.projects, p.id = e.projectID) ∧
      s' = { s with environments := s.environments ++ [e] } := by
  simp only [createEnvironment, bind_unit_ok, refuseIf_ok, not_exists, not_and, not_forall, not_or,
    Bool.not_eq_false, not_not, exists_prop] at h
  exact ⟨h.1, h.2.1, h.2.2.1, ok_unit_inj _ _ _ h.2.2.2⟩

theorem createFlag_ok (c : Conn) (f : Flag) (s s' : Store) (u : Unit)
    (h : createFlag c f s = .ok (u, s')) :
    c.sees f.projectID = true ∧
      (∀ g ∈ s.flags, g.id ≠ f.id ∧ (g.projectID = f.projectID → g.key ≠ f.key)) ∧
      (∃ p ∈ s.projects, p.id = f.projectID) ∧
      s' = { s with flags := s.flags ++ [f] } := by
  simp only [createFlag, bind_unit_ok, refuseIf_ok, not_exists, not_and, not_forall, not_or,
    Bool.not_eq_false, not_not, exists_prop] at h
  exact ⟨h.1, h.2.1, h.2.2.1, ok_unit_inj _ _ _ h.2.2.2⟩

theorem insertState_ok (st : FlagEnvironmentState) (s s' : Store) (u : Unit)
    (h : insertState st s = .ok (u, s')) :
    (∀ x ∈ s.states, x.flagID = st.flagID → x.environmentID ≠ st.environmentID) ∧
      s.HasParents st.flagID st.environmentID ∧ s' = { s with states := s.states ++ [st] } := by
  simp only [insertState, bind_unit_ok, refuseIf_ok, not_exists, not_and, not_not] at h
  exact ⟨h.1, h.2.1, ok_unit_inj _ _ _ h.2.2⟩

/-- A toggle rewrites the row of the flag in the environment, or adds it. -/
theorem setEnabled_ok (flagID environmentID : String) (enabled : Bool) (s s' : Store) (u : Unit)
    (h : setEnabled flagID environmentID enabled s = .ok (u, s')) :
    s' = { s with states := s.states.map (fun st =>
        if st.isFor flagID environmentID then { st with enabled := enabled } else st) } ∨
      ((∀ st ∈ s.states, st.isFor flagID environmentID = false) ∧
        s' = { s with states := s.states ++ [⟨flagID, environmentID, enabled⟩] }) := by
  unfold setEnabled at h
  by_cases hfound : s.states.any (FlagEnvironmentState.isFor flagID environmentID) = true
  · rw [if_pos hfound] at h
    exact .inl (ok_unit_inj _ _ _ h)
  · rw [if_neg hfound, bind_unit_ok] at h
    refine .inr ⟨fun st hst => ?_, ok_unit_inj _ _ _ h.2⟩
    by_contra hne
    exact hfound (List.any_eq_true.mpr ⟨st, hst, by simpa using hne⟩)

/-- The row of a toggle can be written exactly if it is there or both its
    parents are. -/
theorem setEnabled_accepts_iff (flagID environmentID : String) (enabled : Bool) (s : Store) :
    (∃ s', setEnabled flagID environmentID enabled s = .ok ((), s')) ↔
      s.states.any (FlagEnvironmentState.isFor flagID environmentID) = true ∨
        s.HasParents flagID environmentID := by
  unfold setEnabled
  by_cases hrow : s.states.any (FlagEnvironmentState.isFor flagID environmentID) = true
  · rw [if_pos hrow]
    simp [hrow]
  · rw [if_neg hrow]
    by_cases hparents : s.HasParents flagID environmentID
    · simp [refuseIf, hparents]
    · simp [refuseIf, hparents, hrow]

theorem isFor_iff (flagID environmentID : String) (st : FlagEnvironmentState) :
    st.isFor flagID environmentID = true ↔
      st.flagID = flagID ∧ st.environmentID = environmentID := by
  simp [FlagEnvironmentState.isFor]

/-- Rewriting a row leaves its flag and environment as they are. -/
theorem isFor_rewritten (flagID environmentID f e : String) (enabled : Bool) :
    (FlagEnvironmentState.isFor f e ∘ fun st =>
      if st.isFor flagID environmentID then { st with enabled := enabled } else st) =
      FlagEnvironmentState.isFor f e := by
  funext st
  by_cases hst : st.isFor flagID environmentID = true
  · rw [Function.comp_apply, if_pos hst]
    rfl
  · rw [Function.comp_apply, if_neg hst]

/-- The state of a flag in an environment after a toggle. -/
theorem setEnabled_find (flagID environmentID : String) (enabled : Bool) (s s' : Store) (u : Unit)
    (h : setEnabled flagID environmentID enabled s = .ok (u, s')) (f e : String) :
    s'.states.find? (FlagEnvironmentState.isFor f e) =
      if f = flagID ∧ e = environmentID then some ⟨f, e, enabled⟩
      else s.states.find? (FlagEnvironmentState.isFor f e) := by
  unfold setEnabled at h
  by_cases hfound : s.states.any (FlagEnvironmentState.isFor flagID environmentID) = true
  · -- The row is there and is rewritten in place.
    rw [if_pos hfound] at h
    rw [ok_unit_inj _ _ _ h, List.find?_map, isFor_rewritten]
    by_cases hrow : f = flagID ∧ e = environmentID
    · rw [if_pos hrow, hrow.1, hrow.2]
      cases hst : s.states.find? (FlagEnvironmentState.isFor flagID environmentID) with
      | none =>
          rcases List.any_eq_true.mp hfound with ⟨st, hmem, hst'⟩
          exact absurd hst' (List.find?_eq_none.mp hst st hmem)
      | some st =>
          have hfor := List.find?_some hst
          rw [Option.map_some, if_pos hfor, ← ((isFor_iff _ _ st).mp hfor).1,
            ← ((isFor_iff _ _ st).mp hfor).2]
    · rw [if_neg hrow]
      cases hst : s.states.find? (FlagEnvironmentState.isFor f e) with
      | none => rfl
      | some st =>
          -- The row found is for another flag or environment, so it is as it was.
          have hfor := (isFor_iff f e st).mp (List.find?_some hst)
          have hother : ¬ st.isFor flagID environmentID = true := by
            rw [isFor_iff]
            exact fun heq => hrow ⟨hfor.1.symm.trans heq.1, hfor.2.symm.trans heq.2⟩
          rw [Option.map_some, if_neg hother]
  · -- The row is new and comes last.
    rw [if_neg hfound, bind_unit_ok] at h
    rw [ok_unit_inj _ _ _ h.2, List.find?_append]
    by_cases hrow : f = flagID ∧ e = environmentID
    · have hnone : s.states.find? (FlagEnvironmentState.isFor flagID environmentID) = none :=
        List.find?_eq_none.mpr (fun st hst hfor =>
          hfound (List.any_eq_true.mpr ⟨st, hst, hfor⟩))
      rw [if_pos hrow, hrow.1, hrow.2, hnone, Option.none_or]
      simp [FlagEnvironmentState.isFor]
    · have hnew : ¬ FlagEnvironmentState.isFor f e ⟨flagID, environmentID, enabled⟩ = true := by
        rw [isFor_iff]
        exact fun heq => hrow ⟨heq.1.symm, heq.2.symm⟩
      rw [if_neg hrow, List.find?_cons_of_neg hnew, List.find?_nil, Option.or_none]

/-- An upsert rewrites the stored rule with that id, whatever flag and
    environment it belongs to, and inserts a rule only when there is none. -/
theorem upsertRule_ok (uuid : String → Option String) (new : Rule) (s s' : Store) (t : Time)
    (h : upsertRule uuid new s = .ok (t, s')) :
    ∃ id, uuid new.id = some id ∧ fitsInt32 new.priority = true ∧
      (((∃ old ∈ s.rules, old.id = id ∧ old.createdAt = t) ∧
          s' = { s with
            rules := s.rules.map (fun r => if r.id = id then r.overwrite new else r) }) ∨
        ((∀ r ∈ s.rules, r.id ≠ id) ∧ s.HasParents new.flagID new.environmentID ∧
          s' = { s with rules := s.rules ++ [{ new with id := id }] })) := by
  unfold upsertRule at h
  cases hid : uuid new.id with
  | none =>
      rw [hid] at h
      exact (nomatch h)
  | some id =>
      rw [hid] at h
      simp only [bind_unit_ok, refuseIf_ok, Bool.not_eq_false] at h
      refine ⟨id, rfl, h.1, ?_⟩
      -- ON CONFLICT: the row there is overwritten in place, else the rule is inserted.
      cases hfind : s.rules.find? (fun r => r.id == id) with
      | some old =>
          rw [hfind] at h
          rcases Prod.mk.inj (Except.ok.inj h.2) with ⟨ht, hs⟩
          have hold := List.find?_some hfind
          exact .inl ⟨⟨old, List.mem_of_find?_eq_some hfind, by simpa using hold, ht⟩, hs.symm⟩
      | none =>
          rw [hfind] at h
          simp only [bind_unit_ok, refuseIf_ok, not_not] at h
          refine .inr ⟨fun r hr => ?_, h.2.1, (Prod.mk.inj (Except.ok.inj h.2.2)).2.symm⟩
          have hno := List.find?_eq_none.mp hfind r hr
          simpa using hno

theorem deleteRule_ok (uuid : String → Option String) (id : String) (s s' : Store) (u : Unit)
    (h : deleteRule uuid id s = .ok (u, s')) :
    ∃ key, uuid id = some key ∧ (∃ r ∈ s.rules, r.id = key) ∧
      s' = { s with rules := s.rules.filter (fun r => r.id != key) } := by
  unfold deleteRule at h
  cases hid : uuid id with
  | none =>
      rw [hid] at h
      exact (nomatch h)
  | some key =>
      rw [hid] at h
      rcases affect_ok _ _ _ _ _ h with ⟨hfound, hs⟩
      exact ⟨key, rfl, by simpa using hfound, hs⟩

theorem createSegment_ok (c : Conn) (uuid : String → Option String) (g : Segment) (s s' : Store)
    (u : Unit) (h : createSegment c uuid g s = .ok (u, s')) :
    ∃ id, uuid g.id = some id ∧ c.sees g.projectID = true ∧
      (∀ d ∈ s.segments, d.id ≠ id ∧ (d.projectID = g.projectID → d.slug ≠ g.slug)) ∧
      s' = { s with segments := s.segments ++ [{ g with id := id }] } := by
  unfold createSegment at h
  cases hid : uuid g.id with
  | none =>
      rw [hid] at h
      exact (nomatch h)
  | some id =>
      rw [hid] at h
      simp only [bind_unit_ok, refuseIf_ok, not_exists, not_and, not_or, Bool.not_eq_false] at h
      exact ⟨id, rfl, h.1, h.2.1, ok_unit_inj _ _ _ h.2.2.2⟩

theorem renameSegment_ok (c : Conn) (uuid : String → Option String) (id name : String)
    (s s' : Store) (u : Unit) (h : renameSegment c uuid id name s = .ok (u, s')) :
    ∃ key, uuid id = some key ∧
      s' = { s with
        segments := s.segments.map (fun g =>
          if c.isSegmentRow key g then { g with name := name } else g) } := by
  unfold renameSegment at h
  cases hid : uuid id with
  | none =>
      rw [hid] at h
      exact (nomatch h)
  | some key =>
      rw [hid] at h
      exact ⟨key, rfl, (affect_ok _ _ _ _ _ h).2⟩

theorem deleteSegment_ok (c : Conn) (uuid : String → Option String) (id : String)
    (s s' : Store) (u : Unit) (h : deleteSegment c uuid id s = .ok (u, s')) :
    ∃ key, uuid id = some key ∧ s' = s.dropSegments (c.isSegmentRow key) := by
  unfold deleteSegment at h
  cases hid : uuid id with
  | none =>
      rw [hid] at h
      exact (nomatch h)
  | some key =>
      rw [hid] at h
      exact ⟨key, rfl, (affect_ok _ _ _ _ _ h).2⟩

theorem setSegmentMembers_ok (uuid : String → Option String) (now : Time) (segmentID : String)
    (userKeys : List String) (s s' : Store) (u : Unit)
    (h : setSegmentMembers uuid now segmentID userKeys s = .ok (u, s')) :
    ∃ id, uuid segmentID = some id ∧ (userKeys ≠ [] → ∃ g ∈ s.segments, g.id = id) ∧
      s' = { s with
        segmentMembers := s.segmentMembers.filter (fun m => m.segmentID != id) ++
          userKeys.map (fun key => ⟨id, key, now⟩) } := by
  unfold setSegmentMembers at h
  cases hid : uuid segmentID with
  | none =>
      rw [hid] at h
      exact (nomatch h)
  | some id =>
      rw [hid] at h
      simp only [bind_unit_ok, refuseIf_ok, not_and, not_forall, not_not, exists_prop] at h
      exact ⟨id, rfl, h.1, ok_unit_inj _ _ _ h.2.2⟩

theorem createAPIKey_ok (c : Conn) (k : APIKey) (s s' : Store) (u : Unit)
    (h : createAPIKey c k s = .ok (u, s')) :
    c.sees k.projectID = true ∧
      (∀ j ∈ s.apiKeys, j.id ≠ k.id ∧ j.keyHash ≠ k.keyHash) ∧
      s' = { s with apiKeys := s.apiKeys ++ [k] } := by
  simp only [createAPIKey, bind_unit_ok, refuseIf_ok, not_exists, not_and, not_or,
    Bool.not_eq_false] at h
  exact ⟨h.1, h.2.1, ok_unit_inj _ _ _ h.2.2.2.2⟩

theorem upsertUser_ok (v : User) (s s' : Store) (u : Unit) (h : upsertUser v s = .ok (u, s')) :
    ∃ users, s' = { s with users := users } := by
  unfold upsertUser at h
  split at h
  · exact ⟨_, ok_unit_inj _ _ _ h⟩
  · exact ⟨_, ok_unit_inj _ _ _ h⟩

theorem recordAuditEvent_ok (c : Conn) (a : AuditEvent) (s s' : Store) (u : Unit)
    (h : recordAuditEvent c a s = .ok (u, s')) :
    c.sees a.projectID = true ∧ (∀ b ∈ s.auditEvents, b.id ≠ a.id) ∧
      (∃ p ∈ s.projects, p.id = a.projectID) ∧
      s' = { s with auditEvents := s.auditEvents ++ [a] } := by
  simp only [recordAuditEvent, bind_unit_ok, refuseIf_ok, not_exists, not_and, not_forall,
    Bool.not_eq_false, not_not, exists_prop] at h
  exact ⟨h.1, h.2.1, h.2.2.1, ok_unit_inj _ _ _ h.2.2.2⟩

end Cuttlegate
