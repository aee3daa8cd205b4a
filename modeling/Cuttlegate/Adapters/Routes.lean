import Cuttlegate.Adapters.Handlers
import Cuttlegate.Adapters.Mcp

/-!
# The Routes of the Servers

The remaining handlers, and every route of the two servers behind its
middleware, as the main function wires them.

There are three chains. The routes of projects themselves only ask for a token
of the identity provider. Every route below a project asks for a token and then
runs in the transaction of the tenant. Evaluation and the stream accept an API
key as well, which is looked up before there is a transaction. The tool server
has no middleware at all.

Query parameters are texts, empty when they are missing. Two of them are points
in time that clients hand back as they got them, and a request carries these as
they were decoded: absent, unreadable, or a time.

## Main definitions

* `atoi`: Numbers in query parameters.
* `ProjectHandler`, `ProjectMemberHandler`, `FlagVariantHandler`,
  `SegmentHandler`, `AuditHandler` and the others: The handlers.
* `ProjectRoute`, `ScopedRoute`, `HttpRequest`, `HttpRequest.serve`: The routes
  of the HTTP server.
* `McpRoute`, `McpRoute.serve`: The routes of the tool server.
-/

namespace Cuttlegate

/-! ## Reading parameters and bodies -/

/-- A decimal number with an optional sign that fits into 64 bits. -/
def atoi (text : String) : Option Int64 :=
  let (negative, digits) := match text.toList with
    | '-' :: ds => (true, ds)
    | '+' :: ds => (false, ds)
    | ds => (false, ds)
  if digits = [] ∨ digits.all Char.isDigit = false then none
  else
    let n : Int := digits.foldl (fun n c => 10 * n + (c.toNat - '0'.toNat : Nat)) 0
    let i := if negative then -n else n
    if -2 ^ 63 ≤ i ∧ i < 2 ^ 63 then some (Int64.ofInt i) else none

/-- A positive number, or the default when the parameter is missing. -/
def positiveParam (raw : String) (default : Int64) : Option Int64 :=
  if raw = "" then some default else (atoi raw).filter (fun n => decide (1 ≤ n))

def Role.ofText (text : String) : Role :=
  if text = "admin" then .admin
  else if text = "editor" then .editor
  else if text = "viewer" then .viewer
  else .other text

def Role.valid : Role → Bool
  | .other _ => false
  | _ => true

/-- A body that may name a new name. -/
def decodeNameBody : Json → Option (Option String) :=
  Json.decodeRecord (fun key v r =>
    if Json.named "name" key then Json.decodePointer (Json.decodeString "") v else some r) none

/-- The body of a new member: the user and the role as texts. -/
def decodeMemberBody : Json → Option (String × String) :=
  Json.decodeRecord (fun key v r =>
    if Json.named "user_id" key then (Json.decodeString r.1 v).map (fun s => (s, r.2))
    else if Json.named "role" key then (Json.decodeString r.2 v).map (fun s => (r.1, s))
    else some r) ("", "")

def decodeRoleBody : Json → Option String :=
  Json.decodeRecord (fun key v r =>
    if Json.named "role" key then Json.decodeString r v else some r) ""

/-- The body of a rule creation. A rule is created enabled, so there is no such
    field. -/
def decodeNewRuleBody : Json → Option RuleBody :=
  Json.decodeRecord (fun key v r =>
    if Json.named "conditions" key then
      (Json.decodeList decodeCondition v).map (fun l => { r with conditions := l })
    else if Json.named "variantKey" key then
      (Json.decodeString r.variantKey v).map (fun s => { r with variantKey := s })
    else if Json.named "rollout" key then
      (Json.decodeList decodeRolloutEntry v).map (fun l => { r with rollout := l })
    else if Json.named "priority" key then
      (Json.decodeInt r.priority v).map (fun i => { r with priority := i })
    else if Json.named "name" key then
      (Json.decodeString r.name v).map (fun s => { r with name := s })
    else some r) {}

/-- The members of a segment. -/
def decodeMembersBody : Json → Option (List String) :=
  Json.decodeRecord (fun key v r =>
    if Json.named "members" key then Json.decodeList (Json.decodeString "") v else some r) []

/-- The body of a key creation: the name and the tier as texts. -/
def decodeKeyBody : Json → Option (String × String) :=
  Json.decodeRecord (fun key v r =>
    if Json.named "name" key then (Json.decodeString r.1 v).map (fun s => (s, r.2))
    else if Json.named "capability_tier" key then
      (Json.decodeString r.2 v).map (fun s => (r.1, s))
    else some r) ("", "")

def invalidBody : HttpProg Response := return writeError (.badRequest "invalid request body")

/-- Look up the project of a path. -/
def resolveProject (ctx : Ctx) (projSlug : String) (k : Project → HttpProg Response) :
    HttpProg Response :=
  orWriteError (onDB (ProjectService.getBySlug ctx projSlug)) k

/-! ## Projects, members and environments -/

namespace ProjectHandler

def list (ctx : Ctx) : HttpProg Response :=
  orWriteError (onDB (ProjectService.list ctx)) (fun ps => return ⟨200, .projects ps⟩)

def create (ctx : Ctx) (body : Option Json) : HttpProg Response :=
  match body.bind EnvironmentBody.decode with
  | none => invalidBody
  | some b =>
      orWriteError (onDB (ProjectService.create ctx b.name b.slug))
        (fun p => return ⟨201, .project p⟩)

def get (ctx : Ctx) (slug : String) : HttpProg Response :=
  resolveProject ctx slug (fun p => return ⟨200, .project p⟩)

/-- Without a name the project is returned as it is. -/
def update (ctx : Ctx) (slug : String) (body : Option Json) : HttpProg Response :=
  match body.bind decodeNameBody with
  | none => invalidBody
  | some none => get ctx slug
  | some (some name) =>
      orWriteError (onDB (ProjectService.updateName ctx slug name))
        (fun p => return ⟨200, .project p⟩)

def delete (ctx : Ctx) (slug : String) : HttpProg Response :=
  orWriteError (onDB (ProjectService.deleteBySlug ctx slug)) (fun _ => return ⟨204, .empty⟩)

end ProjectHandler

namespace ProjectMemberHandler

def list (ctx : Ctx) (projSlug : String) : HttpProg Response :=
  orWriteError (onDB (ProjectMemberService.listMembers ctx projSlug))
    (fun ms => return ⟨200, .members ms⟩)

def add (ctx : Ctx) (projSlug : String) (body : Option Json) : HttpProg Response :=
  match body.bind decodeMemberBody with
  | none => invalidBody
  | some (userID, role) =>
      if userID = "" ∨ role = "" then
        return writeError (.badRequest "user_id and role are required")
      else if (Role.ofText role).valid = false then return writeError (.badRequest "invalid role")
      else
        orWriteError (onDB (ProjectMemberService.addMember ctx projSlug userID (.ofText role)))
          (fun m => return ⟨201, .member m⟩)

def updateRole (ctx : Ctx) (projSlug userID : String) (body : Option Json) : HttpProg Response :=
  match body.bind decodeRoleBody with
  | none => invalidBody
  | some role =>
      if role = "" then return writeError (.badRequest "role is required")
      else if (Role.ofText role).valid = false then return writeError (.badRequest "invalid role")
      else
        orWriteError (onDB (ProjectMemberService.updateRole ctx projSlug userID (.ofText role)))
          (fun _ => return ⟨204, .empty⟩)

def remove (ctx : Ctx) (projSlug userID : String) : HttpProg Response :=
  orWriteError (onDB (ProjectMemberService.removeMember ctx projSlug userID))
    (fun _ => return ⟨204, .empty⟩)

end ProjectMemberHandler

namespace EnvironmentHandler

def list (ctx : Ctx) (projSlug : String) : HttpProg Response :=
  resolveProject ctx projSlug (fun proj =>
    orWriteError (onDB (EnvironmentService.listByProject ctx proj.id))
      (fun es => return ⟨200, .environments es⟩))

def get (ctx : Ctx) (projSlug envSlug : String) : HttpProg Response :=
  resolvePath ctx projSlug envSlug (fun _ env => return ⟨200, .environment env⟩)

/-- Without a name the environment is returned as it is. -/
def update (ctx : Ctx) (projSlug envSlug : String) (body : Option Json) : HttpProg Response :=
  resolveProject ctx projSlug (fun proj =>
    match body.bind decodeNameBody with
    | none => invalidBody
    | some none =>
        orWriteError (onDB (EnvironmentService.getBySlug ctx proj.id envSlug))
          (fun e => return ⟨200, .environment e⟩)
    | some (some name) =>
        if name = "" then return writeError (.badRequest "name must not be empty")
        else
          orWriteError (onDB (EnvironmentService.updateName ctx proj.id envSlug name))
            (fun e => return ⟨200, .environment e⟩))

end EnvironmentHandler

/-! ## Flags and rules -/

/-- The query of a flag list. -/
structure FlagListQuery where
  page : String := ""
  perPage : String := ""
  sortBy : String := ""
  sortDir : String := ""
  search : String := ""
  deriving DecidableEq, Repr

namespace FlagHandler

/-- The filter a query asks for, or what is wrong with it. -/
def parseQuery (q : FlagListQuery) : Except String FlagListFilter := do
  let page ← match positiveParam q.page 1 with
    | some n => .ok n
    | none => .error "page must be a positive integer"
  let perPage ← match positiveParam q.perPage 50 with
    | some n => .ok n
    | none => .error "per_page must be a positive integer"
  if q.sortBy ≠ "" ∧ q.sortBy ∉ ["key", "name", "type", "created_at"] then
    .error "sort_by must be one of: key, name, type, created_at"
  else if q.sortDir ≠ "" ∧ q.sortDir ≠ "asc" ∧ q.sortDir ≠ "desc" then
    .error "sort_dir must be one of: asc, desc"
  else return ⟨page, perPage, q.search, q.sortBy, q.sortDir⟩

def list (ctx : Ctx) (projSlug : String) (q : FlagListQuery) : HttpProg Response :=
  resolveProject ctx projSlug (fun proj =>
    match parseQuery q with
    | .error message => return writeError (.badRequest message)
    | .ok filter =>
        orWriteError (onDB (FlagService.listByProjectPaginated ctx proj.id filter)) (fun out =>
          return ⟨200, .flags out.1 out.2 filter.normalize.page filter.normalize.perPage⟩))

def get (ctx : Ctx) (projSlug key : String) : HttpProg Response :=
  resolveProject ctx projSlug (fun proj =>
    orWriteError (onDB (FlagService.getByKey ctx proj.id key)) (fun f => return ⟨200, .flag f⟩))

end FlagHandler

namespace FlagVariantHandler

def add (ctx : Ctx) (projSlug key : String) (body : Option Json) : HttpProg Response :=
  resolveProject ctx projSlug (fun proj =>
    match body.bind decodeVariant with
    | none => invalidBody
    | some v =>
        if v.key = "" then return writeError (.badRequest "key is required")
        else
          orWriteError (onDB (FlagService.addVariant ctx proj.id key v))
            (fun f => return ⟨200, .flag f⟩))

def rename (ctx : Ctx) (projSlug key variantKey : String) (body : Option Json) :
    HttpProg Response :=
  resolveProject ctx projSlug (fun proj =>
    match body.bind decodeNameBody with
    | none => invalidBody
    | some none => return writeError (.badRequest "name is required")
    | some (some name) =>
        orWriteError (onDB (FlagService.renameVariant ctx proj.id key variantKey name))
          (fun f => return ⟨200, .flag f⟩))

def delete (ctx : Ctx) (projSlug key variantKey force : String) : HttpProg Response :=
  resolveProject ctx projSlug (fun proj =>
    orWriteError (onDB (FlagService.deleteVariant ctx proj.id key variantKey (force == "true")))
      (fun f => return ⟨200, .flag f⟩))

end FlagVariantHandler

namespace FlagEnvironmentHandler

def list (ctx : Ctx) (projSlug envSlug : String) : HttpProg Response :=
  resolvePath ctx projSlug envSlug (fun proj env =>
    orWriteError (onDB (FlagService.listByEnvironment ctx proj.id env.id))
      (fun vs => return ⟨200, .flagViews vs⟩))

def getByKey (ctx : Ctx) (projSlug envSlug key : String) : HttpProg Response :=
  resolvePath ctx projSlug envSlug (fun proj env =>
    orWriteError (onDB (FlagService.getByKeyAndEnvironment ctx proj.id env.id key))
      (fun v => return ⟨200, .flagView v⟩))

end FlagEnvironmentHandler

namespace RuleHandler

def create (ctx : Ctx) (projSlug flagKey envSlug : String) (body : Option Json) :
    HttpProg Response :=
  resolveContext ctx projSlug flagKey envSlug (fun flag env =>
    match body.bind decodeNewRuleBody with
    | none => invalidBody
    | some b =>
        orWriteError (onDB (RuleService.create ctx
          ⟨flag.id, env.id, b.priority, b.conditions, b.variantKey, b.name, b.rollout⟩))
          (fun r => return ⟨201, .rule r⟩))

def list (ctx : Ctx) (projSlug flagKey envSlug : String) : HttpProg Response :=
  resolveContext ctx projSlug flagKey envSlug (fun flag env =>
    orWriteError (onDB (RuleService.list ctx flag.id env.id))
      (fun rs => return ⟨200, .rules rs⟩))

end RuleHandler

/-! ## Segments and API keys -/

namespace SegmentHandler

/-- Look up the project and segment of a path. -/
def resolveSegment (ctx : Ctx) (projSlug segSlug : String)
    (k : Segment → HttpProg Response) : HttpProg Response :=
  resolveProject ctx projSlug (fun proj =>
    orWriteError (onDB (SegmentService.getBySlug ctx proj.id segSlug)) k)

def create (ctx : Ctx) (projSlug : String) (body : Option Json) : HttpProg Response :=
  resolveProject ctx projSlug (fun proj =>
    match body.bind EnvironmentBody.decode with
    | none => invalidBody
    | some b =>
        orWriteError (onDB (SegmentService.create ctx proj.id b.slug b.name))
          (fun g => return ⟨201, .segment g⟩))

def list (ctx : Ctx) (projSlug : String) : HttpProg Response :=
  resolveProject ctx projSlug (fun proj =>
    orWriteError (onDB (SegmentService.listWithCount ctx proj.id))
      (fun gs => return ⟨200, .segments gs⟩))

def get (ctx : Ctx) (projSlug segSlug : String) : HttpProg Response :=
  resolveSegment ctx projSlug segSlug (fun g => return ⟨200, .segment g⟩)

/-- The body is read between the two lookups. -/
def update (ctx : Ctx) (projSlug segSlug : String) (body : Option Json) : HttpProg Response :=
  resolveProject ctx projSlug (fun proj =>
    match body.bind decodeNameBody with
    | none => invalidBody
    | some newName =>
        orWriteError (onDB (SegmentService.getBySlug ctx proj.id segSlug)) (fun g =>
          match newName with
          | none => return ⟨200, .segment g⟩
          | some name =>
              orWriteError (onDB (SegmentService.updateName ctx g.id name))
                (fun _ => return ⟨200, .segment { g with name := name }⟩)))

def delete (ctx : Ctx) (projSlug segSlug : String) : HttpProg Response :=
  resolveProject ctx projSlug (fun proj =>
    orWriteError (onDB (SegmentService.delete ctx proj.id segSlug))
      (fun _ => return ⟨204, .empty⟩))

def setMembers (ctx : Ctx) (projSlug segSlug : String) (body : Option Json) :
    HttpProg Response :=
  resolveSegment ctx projSlug segSlug (fun g =>
    match body.bind decodeMembersBody with
    | none => invalidBody
    | some members =>
        orWriteError (onDB (SegmentService.setMembers ctx g.id members))
          (fun _ => return ⟨200, .segmentMembers members⟩))

def listMembers (ctx : Ctx) (projSlug segSlug : String) : HttpProg Response :=
  resolveSegment ctx projSlug segSlug (fun g =>
    orWriteError (onDB (SegmentService.listMembers ctx g.id))
      (fun members => return ⟨200, .segmentMembers members⟩))

end SegmentHandler

namespace APIKeyHandler

/-- The tier a creation asks for; without one the key may only read. -/
def tierParam (text : String) : Option ToolCapabilityTier :=
  if text = "" then some .read
  else if (ToolCapabilityTier.ofText text).valid then some (.ofText text)
  else none

def create (sha256 : String → KeyHash) (ctx : Ctx) (projSlug envSlug : String)
    (body : Option Json) : HttpProg Response :=
  resolvePath ctx projSlug envSlug (fun proj env =>
    match body.bind decodeKeyBody with
    | none => invalidBody
    | some (name, text) =>
        if name = "" then return writeError (.badRequest "name is required")
        else
          match tierParam text with
          | none => return ⟨400, .error "invalid_capability_tier"
              "capability_tier must be one of: read, write, destructive"⟩
          | some tier =>
              orWriteError (onDB (APIKeyService.create sha256 ctx proj.id env.id name tier))
                (fun result => return ⟨201, .apiKeyCreated result⟩))

def list (ctx : Ctx) (projSlug envSlug : String) : HttpProg Response :=
  resolvePath ctx projSlug envSlug (fun proj env =>
    orWriteError (onDB (APIKeyService.list ctx proj.id env.id))
      (fun views => return ⟨200, .apiKeys views⟩))

end APIKeyHandler

/-! ## Histories -/

/-- A time as it is sent, in full seconds. -/
def toSecond (t : Time) : Time := t - t % second

/-- A parameter that holds a time: missing, unreadable, or the time. -/
abbrev TimeParam := Option (Option Time)

/-- The evaluations of a flag, fifty at a time. -/
def EvaluationAuditHandler.list (ctx : Ctx) (projSlug envSlug key : String)
    (before : TimeParam) : HttpProg Response :=
  EvaluationHandler.hideMissing (onDB (ProjectService.getBySlug ctx projSlug)) (fun proj =>
    EvaluationHandler.hideMissing (onDB (EnvironmentService.getBySlug ctx proj.id envSlug))
      (fun env =>
        match before with
        | some none => return writeError (.badRequest "invalid_cursor")
        | before =>
            orWriteError (onDB (EvaluationAuditService.listEvaluations ctx proj.id env.id key
              { before := (before.getD none).getD 0 })) (fun views =>
                return ⟨200, .evaluationHistory
                  (views.map (fun v => { v with occurredAt := toSecond v.occurredAt }))
                  (if views.length = 50 then
                    views.getLast?.map (fun v => toSecond v.occurredAt) else none)⟩)))

namespace EvaluationStatsHandler

def getStats (ctx : Ctx) (projSlug envSlug key : String) : HttpProg Response :=
  resolvePath ctx projSlug envSlug (fun proj env =>
    orWriteError (onDB (EvaluationStatsService.getStats ctx proj.id env.id key)) (fun view =>
      return ⟨200, .stats { view with lastEvaluatedAt := view.lastEvaluatedAt.map toSecond }⟩))

def invalidParameter : Response := ⟨400, .error "invalid_parameter" ""⟩

def getBuckets (ctx : Ctx) (projSlug envSlug key window bucketSize : String) :
    HttpProg Response :=
  if window = "" ∨ bucketSize = "" then return invalidParameter
  else
    resolvePath ctx projSlug envSlug (fun proj env =>
      orWriteError (onDB (EvaluationStatsService.getBuckets ctx proj.id env.id env.slug key window
        bucketSize)) (fun out =>
          match out with
          | none => return invalidParameter
          | some view => return ⟨200, .buckets view⟩))

end EvaluationStatsHandler

namespace AuditHandler

/-- The filter a query asks for, or what is wrong with it. -/
def parseQuery (flagKey : String) (cursor : TimeParam) (limit : String) :
    Except String AuditFilter :=
  match cursor with
  | some none => .error "invalid cursor"
  | cursor =>
      match positiveParam limit 0 with
      | none => .error "invalid limit parameter: must be a positive integer"
      | some n => .ok { flagKey := flagKey, before := (cursor.getD none).getD 0, limit := n }

def list (ctx : Ctx) (projSlug flagKey : String) (cursor : TimeParam) (limit : String) :
    HttpProg Response :=
  resolveProject ctx projSlug (fun proj =>
    match parseQuery flagKey cursor limit with
    | .error message => return writeError (.badRequest message)
    | .ok filter =>
        orWriteError (onDB (AuditService.listByProject ctx proj.id filter)) (fun events =>
          return ⟨200, .auditEntries events proj.slug
            (if Int64.ofNat events.length = filter.normalize.limit then
              events.getLast?.map (fun e => e.event.occurredAt) else none)⟩))

end AuditHandler

/-! ## The HTTP server -/

/-- The routes of projects themselves. -/
inductive ProjectRoute where
  | list
  | create (body : Option Json)
  | get (slug : String)
  | update (slug : String) (body : Option Json)
  | delete (slug : String)

def ProjectRoute.handler (ctx : Ctx) : ProjectRoute → HttpProg Response
  | .list => ProjectHandler.list ctx
  | .create body => ProjectHandler.create ctx body
  | .get slug => ProjectHandler.get ctx slug
  | .update slug body => ProjectHandler.update ctx slug body
  | .delete slug => ProjectHandler.delete ctx slug

/-- The routes below a project that ask for a token. -/
inductive ScopedRoute where
  | listEnvironments
  | createEnvironment (body : Option Json)
  | getEnvironment (envSlug : String)
  | updateEnvironment (envSlug : String) (body : Option Json)
  | deleteEnvironment (envSlug : String)
  | listMembers
  | addMember (body : Option Json)
  | updateMemberRole (userID : String) (body : Option Json)
  | removeMember (userID : String)
  | listFlags (query : FlagListQuery)
  | createFlag (body : Option Json)
  | getFlag (key : String)
  | updateFlag (key : String) (body : Option Json)
  | deleteFlag (key : String)
  | addVariant (key : String) (body : Option Json)
  | renameVariant (key variantKey : String) (body : Option Json)
  | deleteVariant (key variantKey force : String)
  | listFlagStates (envSlug : String)
  | getFlagState (envSlug key : String)
  | setEnabled (envSlug key : String) (body : Option Json)
  | createRule (flagKey envSlug : String) (body : Option Json)
  | listRules (flagKey envSlug : String)
  | updateRule (flagKey envSlug ruleID : String) (body : Option Json)
  | deleteRule (flagKey envSlug ruleID : String)
  | createSegment (body : Option Json)
  | listSegments
  | getSegment (segSlug : String)
  | updateSegment (segSlug : String) (body : Option Json)
  | deleteSegment (segSlug : String)
  | setSegmentMembers (segSlug : String) (body : Option Json)
  | listSegmentMembers (segSlug : String)
  | createKey (envSlug : String) (body : Option Json)
  | listKeys (envSlug : String)
  | revokeKey (keyID : String)
  | updateKeyTier (keyID : String) (body : Option Json)
  | listEvaluations (envSlug key : String) (before : TimeParam)
  | getStats (envSlug key : String)
  | getBuckets (envSlug key window bucketSize : String)
  | listAudit (flagKey : String) (cursor : TimeParam) (limit : String)

def ScopedRoute.handler (sha256 : String → KeyHash) (ctx : Ctx) (projSlug : String) :
    ScopedRoute → HttpProg Response
  | .listEnvironments => EnvironmentHandler.list ctx projSlug
  | .createEnvironment body => EnvironmentHandler.create ctx projSlug body
  | .getEnvironment envSlug => EnvironmentHandler.get ctx projSlug envSlug
  | .updateEnvironment envSlug body => EnvironmentHandler.update ctx projSlug envSlug body
  | .deleteEnvironment envSlug => EnvironmentHandler.delete ctx projSlug envSlug
  | .listMembers => ProjectMemberHandler.list ctx projSlug
  | .addMember body => ProjectMemberHandler.add ctx projSlug body
  | .updateMemberRole userID body => ProjectMemberHandler.updateRole ctx projSlug userID body
  | .removeMember userID => ProjectMemberHandler.remove ctx projSlug userID
  | .listFlags query => FlagHandler.list ctx projSlug query
  | .createFlag body => FlagHandler.create ctx projSlug body
  | .getFlag key => FlagHandler.get ctx projSlug key
  | .updateFlag key body => FlagHandler.update ctx projSlug key body
  | .deleteFlag key => FlagHandler.delete ctx projSlug key
  | .addVariant key body => FlagVariantHandler.add ctx projSlug key body
  | .renameVariant key variantKey body =>
      FlagVariantHandler.rename ctx projSlug key variantKey body
  | .deleteVariant key variantKey force =>
      FlagVariantHandler.delete ctx projSlug key variantKey force
  | .listFlagStates envSlug => FlagEnvironmentHandler.list ctx projSlug envSlug
  | .getFlagState envSlug key => FlagEnvironmentHandler.getByKey ctx projSlug envSlug key
  | .setEnabled envSlug key body =>
      FlagEnvironmentHandler.setEnabled ctx projSlug envSlug key body
  | .createRule flagKey envSlug body => RuleHandler.create ctx projSlug flagKey envSlug body
  | .listRules flagKey envSlug => RuleHandler.list ctx projSlug flagKey envSlug
  | .updateRule flagKey envSlug ruleID body =>
      RuleHandler.update ctx projSlug flagKey envSlug ruleID body
  | .deleteRule flagKey envSlug ruleID =>
      RuleHandler.delete ctx projSlug flagKey envSlug ruleID
  | .createSegment body => SegmentHandler.create ctx projSlug body
  | .listSegments => SegmentHandler.list ctx projSlug
  | .getSegment segSlug => SegmentHandler.get ctx projSlug segSlug
  | .updateSegment segSlug body => SegmentHandler.update ctx projSlug segSlug body
  | .deleteSegment segSlug => SegmentHandler.delete ctx projSlug segSlug
  | .setSegmentMembers segSlug body => SegmentHandler.setMembers ctx projSlug segSlug body
  | .listSegmentMembers segSlug => SegmentHandler.listMembers ctx projSlug segSlug
  | .createKey envSlug body => APIKeyHandler.create sha256 ctx projSlug envSlug body
  | .listKeys envSlug => APIKeyHandler.list ctx projSlug envSlug
  | .revokeKey keyID => APIKeyHandler.revoke ctx keyID
  | .updateKeyTier keyID body => APIKeyHandler.updateTier ctx keyID body
  | .listEvaluations envSlug key before =>
      EvaluationAuditHandler.list ctx projSlug envSlug key before
  | .getStats envSlug key => EvaluationStatsHandler.getStats ctx projSlug envSlug key
  | .getBuckets envSlug key window bucketSize =>
      EvaluationStatsHandler.getBuckets ctx projSlug envSlug key window bucketSize
  | .listAudit flagKey cursor limit => AuditHandler.list ctx projSlug flagKey cursor limit

/-- A request to the HTTP server, with its authorization header. -/
inductive HttpRequest where
  | project (authorization : String) (route : ProjectRoute)
  | scoped (authorization projSlug : String) (route : ScopedRoute)
  | keyed (req : KeyRequest)

/-- Every route behind its middleware. -/
def HttpRequest.serve (h : HttpHost) (w : Writer) : HttpRequest → HttpProg Response
  | .project authorization route =>
      requireBearer h authorization (fun ac => route.handler ⟨some ac, none⟩)
  | .scoped authorization projSlug route =>
      requireBearer h authorization (fun ac =>
        tenantRLS projSlug (fun tenant =>
          route.handler h.host.sha256 ⟨some ac, tenant⟩ projSlug))
  | .keyed req => req.serve h w

/-! ## The tool server -/

inductive McpRoute where
  | sse (authorization : String) (flusher : Bool)
  | message (m : Message)

def McpRoute.serve (h : McpHost) : McpRoute → McpProg McpResponse
  | .sse authorization flusher => handleSSE h authorization flusher
  | .message m => handleMessage h m

end Cuttlegate
