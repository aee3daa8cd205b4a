import Mathlib.Data.String.Basic
import Cuttlegate.Store.Repository
import Cuttlegate.Lib.Proc

/-!
# Operations on the World

The atomic operations the services are programs over, and what each does.

An operation is one statement of a repository, one event handed to a
publisher, or one value drawn from the surroundings: a fresh identifier, the
time, random bytes, the order in which a map is iterated. The world is the
database, the events published so far, the evaluations handed to background
goroutines (with the flag each is counted for), and a count of operations,
which indexes everything the surroundings decide.

`Host` collects those decisions: the order in which the database returns rows
it was not asked to separate, whether it enforces row-level security, the
values drawn, and which operations fail. A theorem over every `Host` is a
theorem over every such choice, failures included. A failed operation has no
effect; a text the database would refuse for its characters is one of those
failures.

The frame of an operation is the set of tables it may write (`Op.writes`), and
`exec_frame` says it writes no other.

## Main definitions

* `Op`, `Ret`: The operations and the type of their answers.
* `Call`: An operation on the connection of a tenant.
* `Host`, `Host.steady`: What the surroundings decide, and one that never
  fails.
* `World`: The state the operations act on.
* `exec`: The effect of an operation.
* `Prog`: The programs of this development.
* `Tbl`, `Op.writes`, `World.Same`: Frames.

## Theorems

* `exec_cases`: An operation either fails without effect or is performed.
* `exec_ok`, `exec_error`: What an answer says about the effect.
* `exec_failing`, `exec_passing`: What the surroundings decide about it.
* `exec_frame`: An operation leaves every table outside its frame alone.
* `run_frame`: So does a program whose operations all do.
-/

namespace Cuttlegate

inductive Op where
  | createProject (p : Project)
  | projectBySlug (slug : String)
  | listProjects
  | renameProject (id name : String)
  | deleteProject (id : String)
  | addMember (m : ProjectMember)
  | listMembers (projectID : String)
  | updateMemberRole (projectID userID : String) (role : Role)
  | removeMember (projectID userID : String)
  | createEnvironment (e : Environment)
  | environmentBySlug (projectID slug : String)
  | listEnvironments (projectID : String)
  | renameEnvironment (id name : String)
  | deleteEnvironment (id : String)
  | createFlag (f : Flag)
  | flagByKey (projectID key : String)
  | listFlags (projectID : String)
  | countFlags (projectID search : String)
  | pageFlags (projectID : String) (filter : FlagListFilter)
  | updateFlag (f : Flag)
  | deleteFlag (id : String)
  | insertState (st : FlagEnvironmentState)
  | listStates (environmentID : String)
  | stateOf (flagID environmentID : String)
  | setEnabled (flagID environmentID : String) (enabled : Bool)
  | listRulesByFlag (flagID : String)
  | listRulesByFlagEnvironment (flagID environmentID : String)
  | listRulesByEnvironment (environmentID : String)
  | upsertRule (r : Rule)
  | deleteRule (id : String)
  | createSegment (g : Segment)
  | segmentBySlug (projectID slug : String)
  | listSegments (projectID : String)
  | listSegmentsWithCount (projectID : String)
  | renameSegment (id name : String)
  | deleteSegment (id : String)
  | setSegmentMembers (segmentID : String) (userKeys : List String)
  | listSegmentMembers (segmentID : String)
  | isMember (segmentID userKey : String)
  | createAPIKey (k : APIKey)
  | apiKeyByID (id : String)
  | apiKeyByHash (hash : KeyHash)
  | listAPIKeys (projectID environmentID : String)
  | revokeAPIKey (id : String)
  | updateAPIKeyTier (id : String) (tier : ToolCapabilityTier)
  | recordAudit (a : AuditEvent)
  | listAuditEvents (projectID : String) (filter : AuditFilter)
  | listEvaluations (projectID environmentID flagKey : String) (filter : EvaluationFilter)
  | evaluationStats (flagID environmentID : String)
  | evaluationBuckets (projectID environmentID flagKey : String) (since : Time)
      (bucketSize : String)
  | upsertUser (u : User)
  | userByID (id : String)
  | publish (e : FlagStateChangedEvent)
  | publishEvaluation (flagID : String) (e : EvaluationEvent)
  | newUUID
  | now
  | randomBytes
  | rangeKeys (keys : List String)
  deriving DecidableEq

/-- The type of an operation's answer. -/
@[reducible] def Op.Ret : Op → Type
  | .projectBySlug _ => Project
  | .listProjects => List Project
  | .listMembers _ => List ProjectMember
  | .environmentBySlug _ _ => Environment
  | .listEnvironments _ => List Environment
  | .flagByKey _ _ => Flag
  | .listFlags _ => List Flag
  | .countFlags _ _ => Nat
  | .pageFlags _ _ => List Flag
  | .listStates _ => List FlagEnvironmentState
  | .stateOf _ _ => Option FlagEnvironmentState
  | .listRulesByFlag _ => List Rule
  | .listRulesByFlagEnvironment _ _ => List Rule
  | .listRulesByEnvironment _ => List Rule
  | .upsertRule _ => Time
  | .segmentBySlug _ _ => Segment
  | .listSegments _ => List Segment
  | .listSegmentsWithCount _ => List SegmentWithCount
  | .listSegmentMembers _ => List String
  | .isMember _ _ => Bool
  | .apiKeyByID _ => APIKey
  | .apiKeyByHash _ => APIKey
  | .listAPIKeys _ _ => List APIKey
  | .listAuditEvents _ _ => List ListedAuditEvent
  | .listEvaluations _ _ _ _ => List EvaluationEvent
  | .evaluationStats _ _ => FlagEvaluationStats
  | .evaluationBuckets _ _ _ _ _ => List EvaluationBucket
  | .userByID _ => Option User
  | .newUUID => String
  | .now => Time
  | .randomBytes => List UInt8
  | .rangeKeys _ => List String
  | _ => Unit

/-- An operation, on the connection of the tenant the request was set up for
    or on the pool. -/
structure Call where
  tenant : Option String
  op : Op
  deriving DecidableEq

abbrev Call.Ret (c : Call) : Type := c.op.Ret

/-- What the surroundings decide. -/
structure Host where
  /-- The order of rows a query does not separate. -/
  order : Nat → Sorter
  /-- The order of texts in the database. -/
  collation : Collation
  /-- The library sort. -/
  sortSlice : Sorter
  /-- The order in which a map is iterated. -/
  rangeMap : Nat → Sorter
  /-- Whether the database enforces row-level security. -/
  rls : Bool
  newUUID : Nat → Option String
  now : Nat → Time
  randomBytes : Nat → Option (List UInt8)
  /-- Which operations fail. -/
  fails : Nat → Bool
  sha256 : String → KeyHash
  /-- Pattern matching in the database. -/
  ilike : String → String → Bool
  /-- The canonical spelling of a text the database accepts as a UUID. -/
  uuid : String → Option String
  /-- The canonical spelling is its own. -/
  uuid_canonical : ∀ text id, uuid text = some id → uuid id = some id
  /-- A generated identifier is in canonical spelling. -/
  uuid_new : ∀ n id, newUUID n = some id → uuid id = some id

/-- Whether a text is a UUID in the spelling the database gives back. -/
def isCanonicalUUID (s : String) : Bool :=
  s.toList.length == 36 && s.toList.zipIdx.all (fun c =>
    if c.2 ∈ [8, 13, 18, 23] then c.1 == '-' else c.1.isDigit || ('a' ≤ c.1 && c.1 ≤ 'f'))

/-- The identifiers the concrete runs draw, told apart by their last two
    digits. -/
def sampleUUID (n : Nat) : String :=
  let zeros := fun n => List.replicate n '0'
  String.ofList (zeros 8 ++ '-' :: zeros 4 ++ '-' :: '4' :: zeros 3 ++ '-' :: '8' :: zeros 3 ++
    '-' :: zeros 10 ++ [Nat.digitChar (n / 10), Nat.digitChar (n % 10)])

theorem sampleUUID_canonical (n : Nat) (hn : n < 100) : isCanonicalUUID (sampleUUID n) = true := by
  have hdigit : ∀ d < 10, (Nat.digitChar d).isDigit = true := by decide
  have htens := hdigit (n / 10) (by omega)
  have hones := hdigit (n % 10) (by omega)
  simp [isCanonicalUUID, sampleUUID, List.replicate, htens, hones]

theorem sampleUUID_inj (n m : Nat) (hn : n < 100) (hm : m < 100)
    (h : sampleUUID n = sampleUUID m) : n = m := by
  have hdigit : ∀ a < 10, ∀ b < 10, Nat.digitChar a = Nat.digitChar b → a = b := by decide
  have hlists := String.ofList_injective h
  rcases List.append_inj_right' hlists rfl with hlast
  rw [List.cons.injEq, List.cons.injEq] at hlast
  have htens := hdigit (n / 10) (by omega) (m / 10) (by omega) hlast.1
  have hones := hdigit (n % 10) (by omega) (m % 10) (by omega) hlast.2.1
  omega

/-- The project of the concrete runs has a slug. -/
theorem shop_ne_empty : "shop" ≠ "" := by decide

/-- The order of texts by code points. -/
def Collation.byCodePoint : Collation :=
  ⟨fun a b => decide (a < b), strictWeak_key (fun text : String => text)⟩

/-- A host for the concrete runs: nothing fails, row-level security is off,
    the clock is the number of the call, and the first hundred calls can draw
    an identifier. -/
def Host.steady : Host where
  order := fun _ => Sorter.insertion
  collation := Collation.byCodePoint
  sortSlice := Sorter.insertion
  rangeMap := fun _ => Sorter.insertion
  rls := false
  newUUID := fun n => if n < 100 then some (sampleUUID n) else none
  now := fun n => n
  randomBytes := fun _ => none
  fails := fun _ => false
  sha256 := fun _ => []
  ilike := fun _ _ => false
  uuid := fun s => if isCanonicalUUID s then some s else none
  uuid_canonical := by
    intro text id hid
    by_cases htext : isCanonicalUUID text = true
    · rw [if_pos htext, Option.some.injEq] at hid
      rw [← hid, if_pos htext]
    · rw [if_neg htext] at hid
      exact (nomatch hid)
  uuid_new := by
    intro n id hid
    by_cases hn : n < 100
    · rw [if_pos hn, Option.some.injEq] at hid
      rw [← hid, if_pos (sampleUUID_canonical n hn)]
    · rw [if_neg hn] at hid
      exact (nomatch hid)

theorem Host.steady_newUUID_inj (n m : Nat) (id : String) (hn : Host.steady.newUUID n = some id)
    (hm : Host.steady.newUUID m = some id) : n = m := by
  simp only [Host.steady, Option.ite_none_right_eq_some, Option.some.injEq] at hn hm
  exact sampleUUID_inj n m hn.1 hm.1 (hn.2.trans hm.2.symm)

structure World where
  store : Store := {}
  published : List FlagStateChangedEvent := []
  evaluations : List (String × EvaluationEvent) := []
  calls : Nat := 0
  deriving DecidableEq, Repr

/-- One more operation has been asked for. -/
def World.tick (w : World) : World := { w with calls := w.calls + 1 }

@[simp] theorem World.tick_store (w : World) : w.tick.store = w.store := rfl

@[simp] theorem World.tick_published (w : World) : w.tick.published = w.published := rfl

@[simp] theorem World.tick_evaluations (w : World) : w.tick.evaluations = w.evaluations := rfl

@[simp] theorem World.tick_calls (w : World) : w.tick.calls = w.calls + 1 := rfl

/-- A drawn value, or a failure when there was nothing to draw. -/
def World.draw {α : Type} (w : World) (o : Option α) : Except Err (α × World) :=
  match o with
  | some a => .ok (a, w)
  | none => .error .internal

/-- Run a statement on the database of the world. -/
def World.onStore {α : Type} (w : World) (st : Stmt α) : Except Err (α × World) :=
  match st w.store with
  | .ok (a, s) => .ok (a, { w with store := s })
  | .error e => .error e

/-- What an operation does when it does not fail. -/
def Op.perform (h : Host) (conn : Conn) (w : World) : (op : Op) → Except Err (op.Ret × World)
  | .createProject p => w.onStore (Cuttlegate.createProject p)
  | .projectBySlug slug => w.onStore (Cuttlegate.projectBySlug slug)
  | .listProjects => w.onStore (Cuttlegate.listProjects (h.order w.calls))
  | .renameProject id name => w.onStore (Cuttlegate.renameProject id name)
  | .deleteProject id => w.onStore (Cuttlegate.deleteProject id)
  | .addMember m => w.onStore (Cuttlegate.addMember conn m)
  | .listMembers projectID => w.onStore (Cuttlegate.listMembers conn (h.order w.calls) projectID)
  | .updateMemberRole projectID userID role =>
      w.onStore (Cuttlegate.updateMemberRole conn projectID userID role)
  | .removeMember projectID userID => w.onStore (Cuttlegate.removeMember conn projectID userID)
  | .createEnvironment e => w.onStore (Cuttlegate.createEnvironment conn e)
  | .environmentBySlug projectID slug =>
      w.onStore (Cuttlegate.environmentBySlug conn projectID slug)
  | .listEnvironments projectID =>
      w.onStore (Cuttlegate.listEnvironments conn (h.order w.calls) projectID)
  | .renameEnvironment id name => w.onStore (Cuttlegate.renameEnvironment conn id name)
  | .deleteEnvironment id => w.onStore (Cuttlegate.deleteEnvironment conn id)
  | .createFlag f => w.onStore (Cuttlegate.createFlag conn f)
  | .flagByKey projectID key => w.onStore (Cuttlegate.flagByKey conn projectID key)
  | .listFlags projectID => w.onStore (Cuttlegate.listFlags conn (h.order w.calls) projectID)
  | .countFlags projectID search => w.onStore (Cuttlegate.countFlags conn h.ilike projectID search)
  | .pageFlags projectID filter =>
      w.onStore (Cuttlegate.pageFlags conn (h.order w.calls) h.collation h.ilike projectID filter)
  | .updateFlag f => w.onStore (Cuttlegate.updateFlag conn f)
  | .deleteFlag id => w.onStore (Cuttlegate.deleteFlag conn id)
  | .insertState st => w.onStore (Cuttlegate.insertState st)
  | .listStates environmentID => w.onStore (Cuttlegate.listStates (h.order w.calls) environmentID)
  | .stateOf flagID environmentID => w.onStore (Cuttlegate.stateOf flagID environmentID)
  | .setEnabled flagID environmentID enabled =>
      w.onStore (Cuttlegate.setEnabled flagID environmentID enabled)
  | .listRulesByFlag flagID => w.onStore (Cuttlegate.listRulesByFlag (h.order w.calls) flagID)
  | .listRulesByFlagEnvironment flagID environmentID =>
      w.onStore (Cuttlegate.listRulesByFlagEnvironment (h.order w.calls) flagID environmentID)
  | .listRulesByEnvironment environmentID =>
      w.onStore (Cuttlegate.listRulesByEnvironment (h.order w.calls) environmentID)
  | .upsertRule r => w.onStore (Cuttlegate.upsertRule h.uuid r)
  | .deleteRule id => w.onStore (Cuttlegate.deleteRule h.uuid id)
  | .createSegment g => w.onStore (Cuttlegate.createSegment conn h.uuid g)
  | .segmentBySlug projectID slug => w.onStore (Cuttlegate.segmentBySlug conn projectID slug)
  | .listSegments projectID => w.onStore (Cuttlegate.listSegments conn (h.order w.calls) projectID)
  | .listSegmentsWithCount projectID =>
      w.onStore (Cuttlegate.listSegmentsWithCount conn (h.order w.calls) projectID)
  | .renameSegment id name => w.onStore (Cuttlegate.renameSegment conn h.uuid id name)
  | .deleteSegment id => w.onStore (Cuttlegate.deleteSegment conn h.uuid id)
  | .setSegmentMembers segmentID userKeys =>
      w.onStore (Cuttlegate.setSegmentMembers h.uuid (h.now w.calls) segmentID userKeys)
  | .listSegmentMembers segmentID =>
      w.onStore (Cuttlegate.listSegmentMembers h.uuid (h.order w.calls) segmentID)
  | .isMember segmentID userKey => w.onStore (Cuttlegate.isMember h.uuid segmentID userKey)
  | .createAPIKey k => w.onStore (Cuttlegate.createAPIKey conn k)
  | .apiKeyByID id => w.onStore (Cuttlegate.apiKeyByID conn id)
  | .apiKeyByHash hash => w.onStore (Cuttlegate.apiKeyByHash conn hash)
  | .listAPIKeys projectID environmentID =>
      w.onStore (Cuttlegate.listAPIKeys conn (h.order w.calls) projectID environmentID)
  | .revokeAPIKey id => w.onStore (Cuttlegate.revokeAPIKey conn (h.now w.calls) id)
  | .updateAPIKeyTier id tier => w.onStore (Cuttlegate.updateAPIKeyTier conn id tier)
  -- The audit repository was given the pool, so its statements have no tenant.
  | .recordAudit a => w.onStore (Cuttlegate.recordAuditEvent conn.pool a)
  | .listAuditEvents projectID filter =>
      w.onStore (Cuttlegate.listAuditEvents conn.pool (h.order w.calls) projectID filter)
  -- So were the repositories of evaluations and of their statistics.
  | .listEvaluations projectID environmentID flagKey filter =>
      .ok (Cuttlegate.listEvaluations conn.pool (h.order w.calls) projectID environmentID flagKey
        filter (w.evaluations.map Prod.snd), w)
  | .evaluationStats flagID environmentID =>
      .ok (Cuttlegate.evaluationStats flagID environmentID w.evaluations, w)
  | .evaluationBuckets projectID environmentID flagKey since bucketSize =>
      w.draw (Cuttlegate.evaluationBuckets conn.pool (h.order w.calls) h.collation (h.now w.calls)
        projectID environmentID flagKey since bucketSize (w.evaluations.map Prod.snd))
  | .upsertUser u => w.onStore (Cuttlegate.upsertUser u)
  | .userByID id => w.onStore (Cuttlegate.userByID id)
  | .publish e => .ok ((), { w with published := w.published ++ [e] })
  | .publishEvaluation flagID e =>
      .ok ((), { w with evaluations := w.evaluations ++ [(flagID, e)] })
  | .newUUID => w.draw (h.newUUID w.calls)
  | .now => .ok (h.now w.calls, w)
  | .randomBytes => w.draw (h.randomBytes w.calls)
  | .rangeKeys keys => .ok ((h.rangeMap w.calls).sort (fun _ _ => false) keys, w)

/-- Whether the surroundings can make an operation fail. Reading the clock,
    iterating a map and starting a goroutine cannot. -/
def Op.fallible : Op → Bool
  | .now | .rangeKeys _ | .publishEvaluation _ _ => false
  | _ => true

/-- The effect of an operation: a failed one only counts. -/
def exec (h : Host) (c : Call) (w : World) : Except Err c.Ret × World :=
  if h.fails w.calls && c.op.fallible then (.error .internal, w.tick)
  else match c.op.perform h ⟨c.tenant, h.rls⟩ w with
    | .ok (a, w') => (.ok a, w'.tick)
    | .error e => (.error e, w.tick)

/-- The programs of this development. -/
abbrev Prog (α : Type) := Proc Err Call Call.Ret α

/-- An operation either fails and only counts, or is performed. -/
theorem exec_cases (h : Host) (c : Call) (w : World) :
    (∃ e, exec h c w = (.error e, w.tick)) ∨
      ∃ a w', c.op.perform h ⟨c.tenant, h.rls⟩ w = .ok (a, w') ∧ exec h c w = (.ok a, w'.tick) := by
  unfold exec
  by_cases hf : (h.fails w.calls && c.op.fallible) = true
  · rw [if_pos hf]
    exact .inl ⟨_, rfl⟩
  · rw [if_neg hf]
    cases hp : c.op.perform h ⟨c.tenant, h.rls⟩ w with
    | error e => exact .inl ⟨e, rfl⟩
    | ok r => exact .inr ⟨r.1, r.2, rfl, rfl⟩

/-- An operation that answered was performed. -/
theorem exec_ok (h : Host) (c : Call) (w w' : World) (a : c.Ret)
    (hexec : exec h c w = (.ok a, w')) :
    ∃ w₁, c.op.perform h ⟨c.tenant, h.rls⟩ w = .ok (a, w₁) ∧ w' = w₁.tick := by
  rcases exec_cases h c w with ⟨e, he⟩ | ⟨b, w₁, hp, he⟩
  · rw [he] at hexec
    exact (nomatch hexec)
  · rw [he, Prod.mk.injEq] at hexec
    refine ⟨w₁, ?_, hexec.2.symm⟩
    rw [hp, Except.ok.inj hexec.1]

/-- An operation that failed only counts. -/
theorem exec_error (h : Host) (c : Call) (w w' : World) (e : Err)
    (hexec : exec h c w = (.error e, w')) : w' = w.tick := by
  rcases exec_cases h c w with ⟨e', he⟩ | ⟨b, w₁, _, he⟩
  · rw [he] at hexec
    exact (Prod.mk.inj hexec).2.symm
  · rw [he] at hexec
    exact (nomatch hexec)

/-- On a host that never fails, what an operation does is what it is meant to
    do. -/
theorem exec_steady (h : Host) (hfails : ∀ n, h.fails n = false) (c : Call) (w : World) :
    exec h c w = match c.op.perform h ⟨c.tenant, h.rls⟩ w with
      | .ok (a, w') => (.ok a, w'.tick)
      | .error e => (.error e, w.tick) := by
  simp only [exec, hfails, Bool.false_and, Bool.false_eq_true, if_false]

/-- An operation that the surroundings fail only counts. -/
theorem exec_failing (h : Host) (c : Call) (w : World) (hfails : h.fails w.calls = true)
    (hop : c.op.fallible = true) : exec h c w = (.error .internal, w.tick) := by
  simp [exec, hfails, hop]

/-- An operation that they let pass does what it is meant to do. -/
theorem exec_passing (h : Host) (c : Call) (w : World) (hfails : h.fails w.calls = false) :
    exec h c w = match c.op.perform h ⟨c.tenant, h.rls⟩ w with
      | .ok (a, w') => (.ok a, w'.tick)
      | .error e => (.error e, w.tick) := by
  simp [exec, hfails]

/-- A statement that answered on the world answered on its database. -/
theorem World.onStore_ok {α : Type} (w w' : World) (st : Stmt α) (a : α)
    (h : w.onStore st = .ok (a, w')) :
    ∃ s', st w.store = .ok (a, s') ∧ w' = { w with store := s' } := by
  unfold World.onStore at h
  cases hst : st w.store with
  | error e =>
      rw [hst] at h
      exact (nomatch h)
  | ok r =>
      rw [hst] at h
      rcases Prod.mk.inj (Except.ok.inj h) with ⟨ha, hw⟩
      exact ⟨r.2, by rw [← ha], hw.symm⟩

theorem World.onStore_row {α : Type} (w : World) (f : Store → Option α) (a : α)
    (h : f w.store = some a) : w.onStore (queryRow f) = .ok (a, w) := by
  simp only [World.onStore, queryRow, h]

theorem World.onStore_noRow {α : Type} (w : World) (f : Store → Option α)
    (h : f w.store = none) : w.onStore (queryRow f) = .error .notFound := by
  simp only [World.onStore, queryRow, h]

theorem World.onStore_query {α : Type} (w w' : World) (f : Store → α) (a : α)
    (h : w.onStore (query f) = .ok (a, w')) : w' = w := by
  rcases w.onStore_ok w' _ a h with ⟨s', hs, hw⟩
  rcases Prod.mk.inj (Except.ok.inj hs) with ⟨_, hstore⟩
  rw [hw, ← hstore]

theorem World.onStore_queryRow {α : Type} (w w' : World) (f : Store → Option α) (a : α)
    (h : w.onStore (queryRow f) = .ok (a, w')) : f w.store = some a ∧ w' = w := by
  rcases w.onStore_ok w' _ a h with ⟨s', hs, hw⟩
  rcases queryRow_ok f _ _ _ hs with ⟨ha, hstore⟩
  refine ⟨ha, ?_⟩
  rw [hw, hstore]

theorem World.onStore_affect (w w' : World) (found : Store → Bool) (write : Store → Store)
    (u : Unit)
    (h : w.onStore (affect found write) = .ok (u, w')) :
    found w.store = true ∧ w' = { w with store := write w.store } := by
  rcases w.onStore_ok w' _ u h with ⟨s', hs, hw⟩
  rcases affect_ok found write _ _ _ hs with ⟨hfound, hstore⟩
  refine ⟨hfound, ?_⟩
  rw [hw, hstore]

theorem World.draw_ok {α : Type} (w w' : World) (o : Option α) (a : α)
    (h : w.draw o = .ok (a, w')) : o = some a ∧ w' = w := by
  unfold World.draw at h
  cases o with
  | none => exact (nomatch h)
  | some b =>
      rcases Prod.mk.inj (Except.ok.inj h) with ⟨ha, hw⟩
      exact ⟨by rw [ha], hw.symm⟩

/-- A performed operation leaves the count to `exec`. -/
theorem Op.perform_calls (h : Host) (conn : Conn) (w w' : World) (op : Op) (a : op.Ret)
    (hp : op.perform h conn w = .ok (a, w')) : w'.calls = w.calls := by
  cases op <;> simp only [Op.perform] at hp
  case publish e => rw [← (Prod.mk.inj (Except.ok.inj hp)).2]
  case publishEvaluation flagID e => rw [← (Prod.mk.inj (Except.ok.inj hp)).2]
  case newUUID => rw [(w.draw_ok w' _ a hp).2]
  case now => rw [← (Prod.mk.inj (Except.ok.inj hp)).2]
  case randomBytes => rw [(w.draw_ok w' _ a hp).2]
  case rangeKeys keys => rw [← (Prod.mk.inj (Except.ok.inj hp)).2]
  case listEvaluations p e k f => rw [← (Prod.mk.inj (Except.ok.inj hp)).2]
  case evaluationStats f e => rw [← (Prod.mk.inj (Except.ok.inj hp)).2]
  case evaluationBuckets p e k since size => rw [(w.draw_ok w' _ a hp).2]
  -- The rest are statements on the database.
  all_goals
    rcases w.onStore_ok w' _ a hp with ⟨s', _, hw⟩
    rw [hw]

/-- Every operation counts, failed or not. -/
theorem exec_calls (h : Host) (c : Call) (w : World) : (exec h c w).2.calls = w.calls + 1 := by
  rcases exec_cases h c w with ⟨e, he⟩ | ⟨a, w', hp, he⟩
  · rw [he]
    rfl
  · rw [he, World.tick_calls, c.op.perform_calls h _ w w' a hp]

/-! ## Frames -/

/-- What an operation may write: the tables of the database, and the two
    streams of published events. -/
inductive Tbl where
  | projects
  | members
  | environments
  | flags
  | states
  | rules
  | segments
  | segmentMembers
  | apiKeys
  | auditEvents
  | users
  | published
  | evaluations
  deriving DecidableEq

/-- The tables an operation may write, those reached by a cascade included. -/
def Op.writes : Op → List Tbl
  | .createProject _ | .renameProject _ _ => [.projects]
  | .deleteProject _ => [.projects, .members, .environments, .flags, .states, .rules, .segments,
      .segmentMembers, .apiKeys, .auditEvents]
  | .addMember _ | .updateMemberRole _ _ _ | .removeMember _ _ => [.members]
  | .createEnvironment _ | .renameEnvironment _ _ => [.environments]
  | .deleteEnvironment _ => [.environments, .states, .rules, .apiKeys]
  | .createFlag _ | .updateFlag _ => [.flags]
  | .deleteFlag _ => [.flags, .states, .rules]
  | .insertState _ | .setEnabled _ _ _ => [.states]
  | .upsertRule _ | .deleteRule _ => [.rules]
  | .createSegment _ | .renameSegment _ _ => [.segments]
  | .deleteSegment _ => [.segments, .segmentMembers]
  | .setSegmentMembers _ _ => [.segmentMembers]
  | .createAPIKey _ | .revokeAPIKey _ | .updateAPIKeyTier _ _ => [.apiKeys]
  | .recordAudit _ => [.auditEvents]
  | .upsertUser _ => [.users]
  | .publish _ => [.published]
  | .publishEvaluation _ _ => [.evaluations]
  | _ => []

/-- The two worlds have the same rows in the given table. -/
def World.Same (w w' : World) : Tbl → Prop
  | .projects => w'.store.projects = w.store.projects
  | .members => w'.store.members = w.store.members
  | .environments => w'.store.environments = w.store.environments
  | .flags => w'.store.flags = w.store.flags
  | .states => w'.store.states = w.store.states
  | .rules => w'.store.rules = w.store.rules
  | .segments => w'.store.segments = w.store.segments
  | .segmentMembers => w'.store.segmentMembers = w.store.segmentMembers
  | .apiKeys => w'.store.apiKeys = w.store.apiKeys
  | .auditEvents => w'.store.auditEvents = w.store.auditEvents
  | .users => w'.store.users = w.store.users
  | .published => w'.published = w.published
  | .evaluations => w'.evaluations = w.evaluations

theorem World.same_refl (w : World) (t : Tbl) : w.Same w t := by
  cases t <;> rfl

theorem World.same_trans (w₁ w₂ w₃ : World) (t : Tbl) (h₁₂ : w₁.Same w₂ t) (h₂₃ : w₂.Same w₃ t) :
    w₁.Same w₃ t := by
  cases t <;> exact Eq.trans h₂₃ h₁₂

theorem World.same_tick (w w' : World) (t : Tbl) (h : w.Same w' t) : w.Same w'.tick t := by
  cases t <;> exact h

/-- An operation that writes nothing leaves the world as it was. -/
theorem Op.perform_read (h : Host) (conn : Conn) (w w' : World) (op : Op) (a : op.Ret)
    (hop : op.writes = []) (hp : op.perform h conn w = .ok (a, w')) : w' = w := by
  cases op <;> simp only [Op.perform] at hp
  case listProjects => exact w.onStore_query w' _ a hp
  case listMembers projectID => exact w.onStore_query w' _ a hp
  case listEnvironments projectID => exact w.onStore_query w' _ a hp
  case listFlags projectID => exact w.onStore_query w' _ a hp
  case countFlags projectID search => exact w.onStore_query w' _ a hp
  case listStates environmentID => exact w.onStore_query w' _ a hp
  case stateOf flagID environmentID => exact w.onStore_query w' _ a hp
  case listRulesByFlag flagID => exact w.onStore_query w' _ a hp
  case listRulesByFlagEnvironment flagID environmentID => exact w.onStore_query w' _ a hp
  case listRulesByEnvironment environmentID => exact w.onStore_query w' _ a hp
  case listSegments projectID => exact w.onStore_query w' _ a hp
  case listSegmentsWithCount projectID => exact w.onStore_query w' _ a hp
  case listAPIKeys projectID environmentID => exact w.onStore_query w' _ a hp
  case userByID id => exact w.onStore_query w' _ a hp
  case listAuditEvents projectID filter => exact w.onStore_query w' _ a hp
  case listEvaluations p e k f => exact (Prod.mk.inj (Except.ok.inj hp)).2.symm
  case evaluationStats f e => exact (Prod.mk.inj (Except.ok.inj hp)).2.symm
  case evaluationBuckets p e k since size => exact (w.draw_ok w' _ a hp).2
  case projectBySlug slug => exact (w.onStore_queryRow w' _ a hp).2
  case environmentBySlug projectID slug => exact (w.onStore_queryRow w' _ a hp).2
  case flagByKey projectID key => exact (w.onStore_queryRow w' _ a hp).2
  case segmentBySlug projectID slug => exact (w.onStore_queryRow w' _ a hp).2
  case apiKeyByID id => exact (w.onStore_queryRow w' _ a hp).2
  case apiKeyByHash hash => exact (w.onStore_queryRow w' _ a hp).2
  case newUUID => exact (w.draw_ok w' _ a hp).2
  case randomBytes => exact (w.draw_ok w' _ a hp).2
  case now => exact (Prod.mk.inj (Except.ok.inj hp)).2.symm
  case rangeKeys keys => exact (Prod.mk.inj (Except.ok.inj hp)).2.symm
  -- Queries that can fail on the way hand the store back only when they succeed.
  case pageFlags projectID filter =>
    rcases w.onStore_ok w' _ a hp with ⟨s', hs, hw⟩
    rw [hw, pageFlags_ok _ _ _ _ _ _ _ _ _ hs]
  case listSegmentMembers segmentID =>
    rcases w.onStore_ok w' _ a hp with ⟨s', hs, hw⟩
    unfold Cuttlegate.listSegmentMembers at hs
    split at hs
    · exact (nomatch hs)
    · rw [hw, ← (Prod.mk.inj (Except.ok.inj hs)).2]
  case isMember segmentID userKey =>
    rcases w.onStore_ok w' _ a hp with ⟨s', hs, hw⟩
    unfold Cuttlegate.isMember at hs
    split at hs
    · exact (nomatch hs)
    · rw [hw, ← (Prod.mk.inj (Except.ok.inj hs)).2]
  -- The other operations write.
  all_goals exact absurd hop (by simp [Op.writes])

/-- A performed operation leaves every table outside its frame alone. -/
theorem Op.perform_frame (h : Host) (conn : Conn) (w w' : World) (op : Op) (a : op.Ret)
    (hp : op.perform h conn w = .ok (a, w')) (t : Tbl) (ht : t ∉ op.writes) : w.Same w' t := by
  by_cases hread : op.writes = []
  · rw [op.perform_read h conn w w' a hread hp]
    exact w.same_refl t
  cases op <;> simp only [Op.writes, not_true_eq_false] at hread <;>
    simp only [Op.perform] at hp
  case createProject p =>
    rcases w.onStore_ok w' _ a hp with ⟨s', hs, rfl⟩
    rcases createProject_ok p _ _ _ hs with ⟨_, rfl⟩
    revert ht; cases t <;> simp [Op.writes, World.Same]
  case addMember m =>
    rcases w.onStore_ok w' _ a hp with ⟨s', hs, rfl⟩
    rcases addMember_ok conn m _ _ _ hs with ⟨_, _, _, rfl⟩
    revert ht; cases t <;> simp [Op.writes, World.Same]
  case createEnvironment e =>
    rcases w.onStore_ok w' _ a hp with ⟨s', hs, rfl⟩
    rcases createEnvironment_ok conn e _ _ _ hs with ⟨_, _, _, rfl⟩
    revert ht; cases t <;> simp [Op.writes, World.Same]
  case createFlag f =>
    rcases w.onStore_ok w' _ a hp with ⟨s', hs, rfl⟩
    rcases createFlag_ok conn f _ _ _ hs with ⟨_, _, _, rfl⟩
    revert ht; cases t <;> simp [Op.writes, World.Same]
  case insertState st =>
    rcases w.onStore_ok w' _ a hp with ⟨s', hs, rfl⟩
    rcases insertState_ok st _ _ _ hs with ⟨_, _, rfl⟩
    revert ht; cases t <;> simp [Op.writes, World.Same]
  case setEnabled flagID environmentID enabled =>
    rcases w.onStore_ok w' _ a hp with ⟨s', hs, rfl⟩
    rcases setEnabled_ok _ _ _ _ _ _ hs with rfl | ⟨_, rfl⟩ <;> revert ht <;>
      cases t <;> simp [Op.writes, World.Same]
  case upsertRule r =>
    rcases w.onStore_ok w' _ a hp with ⟨s', hs, rfl⟩
    rcases upsertRule_ok h.uuid r _ _ _ hs with ⟨_, _, _, ⟨_, rfl⟩ | ⟨_, _, rfl⟩⟩ <;> revert ht <;>
      cases t <;> simp [Op.writes, World.Same]
  case deleteRule id =>
    rcases w.onStore_ok w' _ a hp with ⟨s', hs, rfl⟩
    rcases deleteRule_ok h.uuid id _ _ _ hs with ⟨_, _, _, rfl⟩
    revert ht; cases t <;> simp [Op.writes, World.Same]
  case createSegment g =>
    rcases w.onStore_ok w' _ a hp with ⟨s', hs, rfl⟩
    rcases createSegment_ok conn h.uuid g _ _ _ hs with ⟨_, _, _, _, rfl⟩
    revert ht; cases t <;> simp [Op.writes, World.Same]
  case renameSegment id name =>
    rcases w.onStore_ok w' _ a hp with ⟨s', hs, rfl⟩
    rcases renameSegment_ok conn h.uuid id name _ _ _ hs with ⟨_, _, rfl⟩
    revert ht; cases t <;> simp [Op.writes, World.Same]
  case deleteSegment id =>
    rcases w.onStore_ok w' _ a hp with ⟨s', hs, rfl⟩
    rcases deleteSegment_ok conn h.uuid id _ _ _ hs with ⟨_, _, rfl⟩
    revert ht; cases t <;> simp [Op.writes, World.Same, Store.dropSegments]
  case setSegmentMembers segmentID userKeys =>
    rcases w.onStore_ok w' _ a hp with ⟨s', hs, rfl⟩
    rcases setSegmentMembers_ok _ _ _ _ _ _ _ hs with ⟨_, _, _, rfl⟩
    revert ht; cases t <;> simp [Op.writes, World.Same]
  case createAPIKey k =>
    rcases w.onStore_ok w' _ a hp with ⟨s', hs, rfl⟩
    rcases createAPIKey_ok conn k _ _ _ hs with ⟨_, _, rfl⟩
    revert ht; cases t <;> simp [Op.writes, World.Same]
  case recordAudit e =>
    rcases w.onStore_ok w' _ a hp with ⟨s', hs, rfl⟩
    rcases recordAuditEvent_ok _ e _ _ _ hs with ⟨_, _, _, rfl⟩
    revert ht; cases t <;> simp [Op.writes, World.Same]
  case upsertUser u =>
    rcases w.onStore_ok w' _ a hp with ⟨s', hs, rfl⟩
    rcases upsertUser_ok u _ _ _ hs with ⟨users, rfl⟩
    revert ht; cases t <;> simp [Op.writes, World.Same]
  case publish e =>
    rw [← (Prod.mk.inj (Except.ok.inj hp)).2]
    revert ht; cases t <;> simp [Op.writes, World.Same]
  case publishEvaluation flagID e =>
    rw [← (Prod.mk.inj (Except.ok.inj hp)).2]
    revert ht; cases t <;> simp [Op.writes, World.Same]
  -- The rest are updates and deletes by key.
  all_goals
    rcases w.onStore_affect w' _ _ a hp with ⟨_, rfl⟩
    revert ht
    cases t <;> simp [Op.writes, World.Same, Store.dropProject, Store.dropSegments,
      Store.dropEnvironments, Store.dropFlags]

/-- An operation leaves every table outside its frame alone. -/
theorem exec_frame (h : Host) (c : Call) (w : World) (t : Tbl) (ht : t ∉ c.op.writes) :
    w.Same (exec h c w).2 t := by
  rcases exec_cases h c w with ⟨e, he⟩ | ⟨a, w', hp, he⟩
  · rw [he]
    exact w.same_tick w t (w.same_refl t)
  · rw [he]
    exact w.same_tick w' t (c.op.perform_frame h _ w w' a hp t ht)

/-- A program leaves every table outside the frames of its operations alone. -/
theorem run_frame {α : Type} (h : Host) (p : Prog α) (t : Tbl)
    (hp : Proc.Uses (fun c : Call => t ∉ c.op.writes) p) (w : World) :
    w.Same (Proc.run (exec h) p w).2 t :=
  Proc.run_rel (exec h) (fun w w' => w.Same w' t) (fun w => w.same_refl t)
    (fun w₁ w₂ w₃ => World.same_trans w₁ w₂ w₃ t) (fun c w hc => exec_frame h c w t hc) p hp w

end Cuttlegate
