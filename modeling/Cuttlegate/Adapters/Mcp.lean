import Cuttlegate.Adapters.Decode
import Cuttlegate.Adapters.RateLimit
import Cuttlegate.App.APIKeyService
import Cuttlegate.App.EvaluationService
import Cuttlegate.App.ProjectService
import Cuttlegate.Lib.Evidence

/-!
# The Tool Server

The server that offers flag operations as tools to agents. A client opens a
stream, which creates a session, and posts messages that name the session and
carry an API key of their own. Every message looks its key up in the database;
the tier the session remembers is brought up to date and used for nothing.

A tool call passes four gates in turn: the key is live, the tool is known, the
tier of the key permits the tool, and the project and environment named in the
arguments are those of the key.

Handlers are programs over the operations of the database and the server's own
shared state: the sessions and the rate limiter. Sessions are objects behind a
map, so a session removed from the map while a message holds it is still
there. The description and the input schema of a tool are constant texts and
left out.

## Main definitions

* `McpHost`, `McpState`, `McpOp`, `mcpExec`: The operations and their effect.
* `Message`, `JsonRPCRequest`, `JsonRPCResponse`: What is exchanged.
* `toolTier`, `buildToolList`: The tools.
* `liveKeyCheck`, `resolveProjectAndEnv`: The gates.
* `callListFlags`, `callEvaluateFlag`, `callSetEnabled`: The tool handlers.
* `handleMessage`, `handleSSE`: The two routes.
* `McpRequest`, `serve`: Everything that may run beside each other.
* `McpWithin`: The tables a program of the server may write.

## Theorems

* `serve_within`: The server writes no projects, environments and flags.
-/

namespace Cuttlegate

/-! ## The state and its operations -/

structure Session where
  id : String
  keyID : String
  tier : ToolCapabilityTier
  deriving DecidableEq, Repr

/-- What the surroundings decide; session identifiers are random. -/
structure McpHost where
  host : Host
  newSessionID : Nat → Option String

structure McpState where
  world : World
  /-- The session objects ever created. -/
  heap : List Session
  /-- The sessions by id, as positions in the heap. -/
  sessions : String → Option Nat
  windows : Windows

inductive McpOp where
  | db (c : Call)
  | newSessionID
  | openSession (sess : Session)
  | closeSession (id : String)
  | session (id : String)
  | setSessionTier (at_ : Nat) (tier : ToolCapabilityTier)
  | allow (key : String)

/-- The type of the answer to an operation. -/
abbrev McpOp.Ret : McpOp → Type
  | .db c => c.Ret
  | .newSessionID => String
  | .session _ => Option Nat
  | .allow _ => Bool
  | _ => Unit

/-- The limiter of the evaluation tool. -/
def mcpRateLimiter : RateLimiter := ⟨600, 60 * second⟩

/-- The effect of an operation. -/
def mcpExec (h : McpHost) (op : McpOp) (s : McpState) : Except Err op.Ret × McpState :=
  match op with
  | .db c => ((exec h.host c s.world).1, { s with world := (exec h.host c s.world).2 })
  | .newSessionID =>
      match h.newSessionID s.world.calls with
      | some id => (.ok id, { s with world := s.world.tick })
      -- Without randomness the handler panics.
      | none => (.error .panic, { s with world := s.world.tick })
  | .openSession sess => (.ok (), { s with
      heap := s.heap ++ [sess]
      sessions := fun k => if k = sess.id then some s.heap.length else s.sessions k })
  | .closeSession id => (.ok (), { s with
      sessions := fun k => if k = id then none else s.sessions k })
  | .session id => (.ok (s.sessions id), s)
  | .setSessionTier at_ tier => (.ok (), { s with
      heap := s.heap.modify at_ (fun sess => { sess with tier := tier }) })
  | .allow key =>
      let decision := mcpRateLimiter.allow (h.host.now s.world.calls) key s.windows
      (.ok decision.1, { s with world := s.world.tick, windows := decision.2 })

abbrev McpProg (α : Type) := Proc Err McpOp McpOp.Ret α

/-- A program over the database as a program of the server. -/
def db {α : Type} (p : Prog α) : McpProg α := Proc.lift McpOp.db (fun _ r => r) p

/-! ## Messages -/

/-- A posted message: the header, the session it names, and the value in its
    body, if the body holds one. -/
structure Message where
  authorization : String
  sessionID : String
  body : Option Json

structure JsonRPCRequest where
  jsonrpc : String := ""
  id : Option Json := none
  method : String := ""
  params : Option Json := none

def JsonRPCRequest.decode : Json → Option JsonRPCRequest :=
  Json.decodeRecord (fun key v r =>
    if Json.named "jsonrpc" key then
      (Json.decodeString r.jsonrpc v).map (fun s => { r with jsonrpc := s })
    else if Json.named "id" key then some { r with id := some v }
    else if Json.named "method" key then
      (Json.decodeString r.method v).map (fun s => { r with method := s })
    else if Json.named "params" key then some { r with params := some v }
    else some r) {}

structure JsonRPCError where
  code : Int
  message : String

structure McpError where
  error : String
  required : String := ""
  provided : String := ""

structure ToolDef where
  name : String
  tier : ToolCapabilityTier

structure ListFlagResult where
  key : String
  enabled : Bool
  valueKey : String
  type : FlagType

structure EvalFlagResult where
  key : String
  enabled : Bool
  valueKey : String
  reason : EvalReason

/-- What a response carries as its result. -/
inductive RpcResult where
  | refused (e : McpError)
  | serverInfo (protocolVersion name version : String)
  | tools (tools : List ToolDef)
  | toolError (e : McpError)
  | flags (flags : List ListFlagResult)
  | evaluation (result : EvalFlagResult)
  | toggled (key : String) (enabled : Bool) (state : String)

structure JsonRPCResponse where
  id : Option Json
  result : Option RpcResult
  error : Option JsonRPCError

inductive McpResponse where
  | toolError (status : Nat) (e : McpError)
  | rpc (status : Nat) (resp : JsonRPCResponse)
  | stream (sessionID : String)
  | plain (status : Nat) (text : String)

def rpcError (id : Option Json) (code : Int) (msg : String) : JsonRPCResponse :=
  ⟨id, none, some ⟨code, msg⟩⟩

def rpcResult (id : Option Json) (result : RpcResult) : JsonRPCResponse := ⟨id, some result, none⟩

/-- A tool result that reports an error. -/
def toolErrorResult (id : Option Json) (error : String) : JsonRPCResponse :=
  rpcResult id (.toolError { error := error })

/-- The plaintext key of the header, empty when there is none. -/
def extractBearer (header : String) : String :=
  if "Bearer ".toList.isPrefixOf header.toList then String.ofList (header.toList.drop 7) else ""

/-! ## Tools -/

def toolTier (name : String) : Option ToolCapabilityTier :=
  if name = "list_flags" ∨ name = "evaluate_flag" then some .read
  else if name = "enable_flag" ∨ name = "disable_flag" then some .write
  else none

def allTools : List ToolDef :=
  [⟨"list_flags", .read⟩, ⟨"evaluate_flag", .read⟩, ⟨"enable_flag", .write⟩,
    ⟨"disable_flag", .write⟩]

def buildToolList (tier : ToolCapabilityTier) : List ToolDef :=
  allTools.filter (fun t => tier.permits t.tier)

def roleForTier : ToolCapabilityTier → Role
  | .read => .viewer
  | _ => .editor

structure ToolCallParams where
  name : String := ""
  arguments : Option Json := none

def ToolCallParams.decode : Json → Option ToolCallParams :=
  Json.decodeRecord (fun key v r =>
    if Json.named "name" key then
      (Json.decodeString r.name v).map (fun s => { r with name := s })
    else if Json.named "arguments" key then some { r with arguments := some v }
    else some r) {}

structure ListFlagsArgs where
  projectSlug : String := ""
  environmentSlug : String := ""

def ListFlagsArgs.decode : Json → Option ListFlagsArgs :=
  Json.decodeRecord (fun key v r =>
    if Json.named "project_slug" key then
      (Json.decodeString r.projectSlug v).map (fun s => { r with projectSlug := s })
    else if Json.named "environment_slug" key then
      (Json.decodeString r.environmentSlug v).map (fun s => { r with environmentSlug := s })
    else some r) {}

structure EvalFlagArgs where
  projectSlug : String := ""
  environmentSlug : String := ""
  key : String := ""
  evalContext : EvalContext := ⟨"", fun _ => none⟩

def EvalFlagArgs.decode : Json → Option EvalFlagArgs :=
  Json.decodeRecord (fun key v r =>
    if Json.named "project_slug" key then
      (Json.decodeString r.projectSlug v).map (fun s => { r with projectSlug := s })
    else if Json.named "environment_slug" key then
      (Json.decodeString r.environmentSlug v).map (fun s => { r with environmentSlug := s })
    else if Json.named "key" key then
      (Json.decodeString r.key v).map (fun s => { r with key := s })
    else if Json.named "eval_context" key then
      (decodeEvalContext r.evalContext v).map (fun c => { r with evalContext := c })
    else some r) {}

structure SetEnabledArgs where
  projectSlug : String := ""
  environmentSlug : String := ""
  key : String := ""
  deriving DecidableEq, Repr

def SetEnabledArgs.decode : Json → Option SetEnabledArgs :=
  Json.decodeRecord (fun key v r =>
    if Json.named "project_slug" key then
      (Json.decodeString r.projectSlug v).map (fun s => { r with projectSlug := s })
    else if Json.named "environment_slug" key then
      (Json.decodeString r.environmentSlug v).map (fun s => { r with environmentSlug := s })
    else if Json.named "key" key then
      (Json.decodeString r.key v).map (fun s => { r with key := s })
    else some r) {}

/-! ## The gates -/

/-- The key of a plaintext, unless it is unknown or revoked. -/
def liveKeyCheck (sha256 : String → KeyHash) (plaintext : String) : McpProg (Option APIKey) := do
  match ← (Proc.call (McpOp.db ⟨none, .apiKeyByHash (sha256 plaintext)⟩)).attempt with
  | .error _ => return none
  | .ok key => return if key.revoked = true then none else some key

/-- The context of a call made with a key. -/
def APIKey.ctx (key : APIKey) : Ctx := ⟨some ⟨key.id, roleForTier key.capabilityTier⟩, none⟩

/-- The project and environment of the given slugs, provided they are those of
    the key: their ids, and the slug of the environment. -/
def resolveProjectAndEnv (projectSlug environmentSlug : String) (key : APIKey) :
    McpProg (Except String (String × String × String)) := do
  match ← (Proc.call (McpOp.db ⟨none, .projectBySlug projectSlug⟩)).attempt with
  | .error .notFound => return .error "not_found"
  | .error _ => return .error "internal_error"
  | .ok proj =>
      if proj.id ≠ key.projectID then return .error "forbidden"
      else do
        match ← (Proc.call (McpOp.db ⟨none, .environmentBySlug proj.id environmentSlug⟩)).attempt with
        | .error .notFound => return .error "not_found"
        | .error _ => return .error "internal_error"
        | .ok env =>
            if env.id ≠ key.environmentID then return .error "forbidden"
            else return .ok (proj.id, env.id, env.slug)

/-! ## Tool handlers -/

def callListFlags (id : Option Json) (rawArgs : Option Json) (key : APIKey) :
    McpProg JsonRPCResponse := do
  match rawArgs.bind ListFlagsArgs.decode with
  | none => return toolErrorResult id "internal_error"
  | some args => do
      match ← resolveProjectAndEnv args.projectSlug args.environmentSlug key with
      | .error e => return toolErrorResult id e
      | .ok (projectID, environmentID, _) => do
          match ← (db (FlagService.listByEnvironment key.ctx projectID environmentID)).attempt with
          | .error _ => return toolErrorResult id "internal_error"
          | .ok views => return rpcResult id (.flags (views.map (fun v =>
              ⟨v.flag.key, v.enabled, v.flag.defaultVariantKey, v.flag.type⟩)))

def callEvaluateFlag (srt : Sorter) (id : Option Json) (rawArgs : Option Json) (key : APIKey) :
    McpProg JsonRPCResponse := do
  match rawArgs.bind EvalFlagArgs.decode with
  | none => return toolErrorResult id "internal_error"
  | some args => do
      let allowed ← Proc.call (McpOp.allow key.id)
      if allowed = false then return toolErrorResult id "internal_error"
      else do
        match ← resolveProjectAndEnv args.projectSlug args.environmentSlug key with
        | .error e => return toolErrorResult id e
        | .ok (projectID, environmentID, _) => do
            match ← (db (EvaluationService.evaluate srt key.ctx projectID environmentID args.key
                args.evalContext)).attempt with
            | .error .panic => Proc.fail .panic
            | .error .notFound => return toolErrorResult id "not_found"
            | .error _ => return toolErrorResult id "internal_error"
            | .ok view => return rpcResult id (.evaluation
                ⟨view.key, view.enabled, view.valueKey, view.reason⟩)

def callSetEnabled (id : Option Json) (rawArgs : Option Json) (key : APIKey) (enabled : Bool) :
    McpProg JsonRPCResponse := do
  match rawArgs.bind SetEnabledArgs.decode with
  | none => return toolErrorResult id "internal_error"
  | some args => do
      match ← resolveProjectAndEnv args.projectSlug args.environmentSlug key with
      | .error e => return toolErrorResult id e
      | .ok (projectID, environmentID, envSlug) => do
          match ← (db (FlagService.setEnabled key.ctx
              { projectID := projectID, environmentID := environmentID, flagKey := args.key
                enabled := enabled, projectSlug := args.projectSlug, envSlug := envSlug
                source := "mcp" })).attempt with
          | .error .notFound => return toolErrorResult id "not_found"
          | .error _ => return toolErrorResult id "internal_error"
          | .ok _ =>
              return rpcResult id
                (.toggled args.key enabled (if enabled then "enabled" else "disabled"))

/-! ## The routes -/

def handleInitialize (req : JsonRPCRequest) : JsonRPCResponse :=
  rpcResult req.id (.serverInfo "2024-11-05" "cuttlegate" "1.0.0")

def handleToolsList (req : JsonRPCRequest) (tier : ToolCapabilityTier) : JsonRPCResponse :=
  rpcResult req.id (.tools (buildToolList tier))

def handleToolsCall (srt : Sorter) (req : JsonRPCRequest) (key : APIKey) :
    McpProg JsonRPCResponse :=
  match req.params.bind ToolCallParams.decode with
  | none => return rpcError req.id (-32602) "invalid params"
  | some p =>
      match toolTier p.name with
      | none => return toolErrorResult req.id "not_found"
      | some requiredTier =>
          if key.capabilityTier.permits requiredTier = false then
            return rpcResult req.id (.toolError ⟨"insufficient_capability", requiredTier.text,
              key.capabilityTier.text⟩)
          else if p.name = "list_flags" then callListFlags req.id p.arguments key
          else if p.name = "evaluate_flag" then callEvaluateFlag srt req.id p.arguments key
          else if p.name = "enable_flag" then callSetEnabled req.id p.arguments key true
          else if p.name = "disable_flag" then callSetEnabled req.id p.arguments key false
          else return toolErrorResult req.id "not_found"

/-- Dispatch a request whose key was found live. -/
def dispatch (srt : Sorter) (req : JsonRPCRequest) (liveKey : APIKey) : McpProg JsonRPCResponse :=
  if req.method = "initialize" then return handleInitialize req
  else if req.method = "tools/list" then return handleToolsList req liveKey.capabilityTier
  else if req.method = "tools/call" then handleToolsCall srt req liveKey
  else return rpcError req.id (-32601) "method not found"

/-- Bring the tier of a session up to date, if there is one. -/
def updateSession (sess : Option Nat) (tier : ToolCapabilityTier) : McpProg Unit :=
  match sess with
  | none => return ()
  | some at_ => Proc.call (McpOp.setSessionTier at_ tier)

def handleMessage (h : McpHost) (m : Message) : McpProg McpResponse := do
  let plaintext := extractBearer m.authorization
  if plaintext = "" then return .toolError 401 { error := "unauthenticated" }
  else if m.sessionID = "" then return .rpc 400 (rpcError none (-32600) "missing session_id")
  else do
    let sess ← Proc.call (McpOp.session m.sessionID)
    match m.body.bind JsonRPCRequest.decode with
    | none => return .rpc 200 (rpcError none (-32700) "parse error")
    | some req => do
        match ← liveKeyCheck h.host.sha256 plaintext with
        | none => return .rpc 200 (rpcResult req.id (.refused { error := "unauthenticated" }))
        | some liveKey => do
            updateSession sess liveKey.capabilityTier
            let resp ← dispatch h.host.sortSlice req liveKey
            return .rpc 200 resp

/-- A stream: the session lives until the client goes away. -/
def handleSSE (h : McpHost) (authorization : String) (flusher : Bool) : McpProg McpResponse := do
  let plaintext := extractBearer authorization
  if plaintext = "" then return .toolError 401 { error := "unauthenticated" }
  else do
    match ← (db (APIKeyService.authenticateMCP h.host.sha256 ⟨none, none⟩ plaintext)).attempt with
    | .error _ => return .toolError 401 { error := "unauthenticated" }
    | .ok key =>
        if flusher = false then return .plain 500 "streaming unsupported"
        else do
          let sessID ← Proc.call McpOp.newSessionID
          Proc.call (McpOp.openSession ⟨sessID, key.id, key.capabilityTier⟩)
          -- The client may stay for any time between these two.
          Proc.call (McpOp.closeSession sessID)
          return .stream sessID

/-! ## Requests side by side -/

/-- What the server and the management of keys are asked for. -/
inductive McpRequest where
  | createKey (ctx : Ctx) (projectID environmentID name : String) (tier : ToolCapabilityTier)
  | updateKeyTier (ctx : Ctx) (id : String) (tier : ToolCapabilityTier)
  | revokeKey (ctx : Ctx) (id : String)
  | sse (authorization : String) (flusher : Bool)
  | message (m : Message)

/-- The program that serves a request; the response is sent and gone. -/
def serve (h : McpHost) : McpRequest → McpProg Unit
  | .createKey ctx projectID environmentID name tier =>
      db (APIKeyService.create h.host.sha256 ctx projectID environmentID name tier) >>= fun _ =>
        Proc.ret ()
  | .updateKeyTier ctx id tier =>
      db (APIKeyService.updateCapabilityTier ctx id tier) >>= fun _ => Proc.ret ()
  | .revokeKey ctx id => db (APIKeyService.revoke ctx id)
  | .sse authorization flusher => handleSSE h authorization flusher >>= fun _ => Proc.ret ()
  | .message m => handleMessage h m >>= fun _ => Proc.ret ()

/-! ## Footprints -/

/-- The tables an operation of the tool server may write. -/
def McpOp.writes : McpOp → List Tbl
  | .db c => c.op.writes
  | _ => []

/-- Every operation of the program writes no table outside `ts`. -/
def McpWithin {α : Type} (ts : List Tbl) (p : McpProg α) : Prop :=
  Proc.Uses (fun op : McpOp => op.writes ⊆ ts) p

section Footprint

variable {α β : Type} {ts : List Tbl}

theorem mcpWithin_db (p : Prog α) (hp : Within ts p) : McpWithin ts (db p) :=
  Proc.uses_lift _ _ _ p hp

theorem mcpWithin_call (op : McpOp) (hop : op.writes ⊆ ts) : McpWithin ts (Proc.call op) :=
  (Proc.uses_call op).mpr hop

theorem mcpWithin_bind (x : McpProg α) (f : α → McpProg β) (hx : McpWithin ts x)
    (hf : ∀ a, McpWithin ts (f a)) : McpWithin ts (x >>= f) :=
  Proc.uses_bind x f hx hf

theorem mcpWithin_attempt (x : McpProg α) (hx : McpWithin ts x) : McpWithin ts x.attempt :=
  (Proc.uses_attempt x).mpr hx

theorem mcpWithin_ret (a : α) : McpWithin ts (Proc.ret a : McpProg α) := trivial

theorem liveKeyCheck_within (sha256 : String → KeyHash) (plaintext : String) :
    McpWithin ts (liveKeyCheck sha256 plaintext) := by
  refine mcpWithin_bind _ _ (mcpWithin_attempt _ (mcpWithin_call _ (List.nil_subset ts)))
    (fun r => ?_)
  cases r with
  | error e => exact mcpWithin_ret _
  | ok key => exact mcpWithin_ret _

theorem resolveProjectAndEnv_within (projectSlug environmentSlug : String) (key : APIKey) :
    McpWithin ts (resolveProjectAndEnv projectSlug environmentSlug key) := by
  refine mcpWithin_bind _ _ (mcpWithin_attempt _ (mcpWithin_call _ (List.nil_subset ts)))
    (fun r => ?_)
  split
  · exact mcpWithin_ret _
  · exact mcpWithin_ret _
  · rename_i proj
    by_cases hproj : proj.id ≠ key.projectID
    · rw [if_pos hproj]
      exact mcpWithin_ret _
    · rw [if_neg hproj]
      refine mcpWithin_bind _ _ (mcpWithin_attempt _ (mcpWithin_call _ (List.nil_subset ts)))
        (fun r => ?_)
      split
      · exact mcpWithin_ret _
      · exact mcpWithin_ret _
      · split
        · exact mcpWithin_ret _
        · exact mcpWithin_ret _

theorem callListFlags_within (id rawArgs : Option Json) (key : APIKey) :
    McpWithin ts (callListFlags id rawArgs key) := by
  unfold callListFlags
  cases rawArgs.bind ListFlagsArgs.decode with
  | none => exact mcpWithin_ret _
  | some args =>
      refine mcpWithin_bind _ _ (resolveProjectAndEnv_within _ _ key) (fun r => ?_)
      cases r with
      | error e => exact mcpWithin_ret _
      | ok ids =>
          have hlist : Within ts
              (FlagService.listByEnvironment key.ctx ids.1 ids.2.1) := by
            refine within_bind _ _ (within_read _ _ rfl) (fun states => ?_)
            split
            · exact within_ret _
            · exact within_bind _ _ (within_read _ _ rfl) (fun flags => within_ret _)
          refine mcpWithin_bind _ _ (mcpWithin_attempt _ (mcpWithin_db _ hlist)) (fun r => ?_)
          cases r with
          | error e => exact mcpWithin_ret _
          | ok views => exact mcpWithin_ret _

theorem callEvaluateFlag_within (srt : Sorter) (id rawArgs : Option Json) (key : APIKey) :
    McpWithin [.auditEvents, .evaluations] (callEvaluateFlag srt id rawArgs key) := by
  unfold callEvaluateFlag
  cases rawArgs.bind EvalFlagArgs.decode with
  | none => exact mcpWithin_ret _
  | some args =>
      refine mcpWithin_bind _ _ (mcpWithin_call _ (List.nil_subset _)) (fun allowed => ?_)
      -- Over the limit nothing is read at all.
      by_cases hallowed : allowed = false
      · rw [if_pos hallowed]
        exact mcpWithin_ret _
      rw [if_neg hallowed]
      refine mcpWithin_bind _ _ (resolveProjectAndEnv_within _ _ key) (fun r => ?_)
      cases r with
      | error e => exact mcpWithin_ret _
      | ok ids =>
          refine mcpWithin_bind _ _ (mcpWithin_attempt _ (mcpWithin_db _
            (EvaluationService.evaluate_within key.ctx srt _ _ _ _))) (fun r => ?_)
          split
          · exact trivial
          · exact mcpWithin_ret _
          · exact mcpWithin_ret _
          · exact mcpWithin_ret _

theorem callSetEnabled_within (id rawArgs : Option Json) (key : APIKey) (enabled : Bool) :
    McpWithin [.states, .published, .auditEvents] (callSetEnabled id rawArgs key enabled) := by
  unfold callSetEnabled
  cases rawArgs.bind SetEnabledArgs.decode with
  | none => exact mcpWithin_ret _
  | some args =>
      refine mcpWithin_bind _ _ (resolveProjectAndEnv_within _ _ key) (fun r => ?_)
      cases r with
      | error e => exact mcpWithin_ret _
      | ok ids =>
          refine mcpWithin_bind _ _ (mcpWithin_attempt _ (mcpWithin_db _
            (FlagService.setEnabled_within key.ctx _))) (fun r => ?_)
          split
          · exact mcpWithin_ret _
          · exact mcpWithin_ret _
          · exact mcpWithin_ret _

theorem mcpWithin_mono {us : List Tbl} (hsub : ts ⊆ us) (p : McpProg α) (hp : McpWithin ts p) :
    McpWithin us p :=
  Proc.uses_mono (fun _ hop => List.Subset.trans hop hsub) p hp

theorem handleToolsCall_within (srt : Sorter) (req : JsonRPCRequest) (key : APIKey) :
    McpWithin [.states, .published, .auditEvents, .evaluations] (handleToolsCall srt req key) := by
  unfold handleToolsCall
  split
  · exact mcpWithin_ret _
  split
  · exact mcpWithin_ret _
  -- The tool is known; its tier decides whether one of the handlers runs.
  split
  · exact mcpWithin_ret _
  split
  · exact callListFlags_within _ _ key
  split
  · exact mcpWithin_mono (by simp) _ (callEvaluateFlag_within srt _ _ key)
  split
  · exact mcpWithin_mono (by simp) _ (callSetEnabled_within _ _ key true)
  split
  · exact mcpWithin_mono (by simp) _ (callSetEnabled_within _ _ key false)
  · exact mcpWithin_ret _

theorem dispatch_within (srt : Sorter) (req : JsonRPCRequest) (key : APIKey) :
    McpWithin [.states, .published, .auditEvents, .evaluations] (dispatch srt req key) := by
  unfold dispatch
  split
  · exact mcpWithin_ret _
  split
  · exact mcpWithin_ret _
  split
  · exact handleToolsCall_within srt req key
  · exact mcpWithin_ret _

theorem updateSession_within (sess : Option Nat) (tier : ToolCapabilityTier) :
    McpWithin ts (updateSession sess tier) := by
  cases sess with
  | none => exact mcpWithin_ret ()
  | some at_ => exact mcpWithin_call _ (List.nil_subset ts)

theorem handleMessage_within (h : McpHost) (m : Message) :
    McpWithin [.states, .published, .auditEvents, .evaluations] (handleMessage h m) := by
  by_cases hbearer : extractBearer m.authorization = ""
  · simp only [handleMessage, if_pos hbearer]
    exact mcpWithin_ret _
  by_cases hsession : m.sessionID = ""
  · simp only [handleMessage, if_neg hbearer, if_pos hsession]
    exact mcpWithin_ret _
  simp only [handleMessage, if_neg hbearer, if_neg hsession]
  refine mcpWithin_bind _ _ (mcpWithin_call _ (List.nil_subset _)) (fun sess => ?_)
  split
  · exact mcpWithin_ret _
  refine mcpWithin_bind _ _ (liveKeyCheck_within _ _) (fun key => ?_)
  cases key with
  | none => exact mcpWithin_ret _
  | some liveKey =>
      refine mcpWithin_bind _ _ (updateSession_within sess _) (fun _ => ?_)
      exact mcpWithin_bind _ _ (dispatch_within _ _ liveKey) (fun resp => mcpWithin_ret _)

theorem handleSSE_within (h : McpHost) (authorization : String) (flusher : Bool) :
    McpWithin ts (handleSSE h authorization flusher) := by
  by_cases hbearer : extractBearer authorization = ""
  · simp only [handleSSE, if_pos hbearer]
    exact mcpWithin_ret _
  simp only [handleSSE, if_neg hbearer]
  refine mcpWithin_bind _ _ (mcpWithin_attempt _ (mcpWithin_db _ (within_mono (List.nil_subset ts) _
    (APIKeyService.authenticateMCP_within _ _ _)))) (fun r => ?_)
  cases r with
  | error e => exact mcpWithin_ret _
  | ok key =>
      change McpWithin ts (if flusher = false then _ else _)
      split
      · exact mcpWithin_ret _
      refine mcpWithin_bind _ _ (mcpWithin_call _ (List.nil_subset ts)) (fun sessID => ?_)
      refine mcpWithin_bind _ _ (mcpWithin_call _ (List.nil_subset ts)) (fun _ => ?_)
      exact mcpWithin_bind _ _ (mcpWithin_call _ (List.nil_subset ts)) (fun _ => mcpWithin_ret _)

/-- Nothing the tool server or the management of keys does touches projects,
    environments or flags. -/
theorem serve_within (h : McpHost) (r : McpRequest) :
    McpWithin [.states, .published, .auditEvents, .evaluations, .apiKeys] (serve h r) := by
  cases r with
  | createKey ctx projectID environmentID name tier =>
      refine mcpWithin_bind _ _ (mcpWithin_db _ ?_) (fun _ => mcpWithin_ret _)
      exact within_mono (by simp) _ (APIKeyService.create_within _ ctx _ _ _ _)
  | updateKeyTier ctx id tier =>
      refine mcpWithin_bind _ _ (mcpWithin_db _ ?_) (fun _ => mcpWithin_ret _)
      exact within_mono (by simp) _ (APIKeyService.updateCapabilityTier_within ctx id tier)
  | revokeKey ctx id =>
      refine mcpWithin_db _ (within_require ctx _ _ (fun _ => within_call ctx _ ?_))
      simp [Op.writes]
  | sse authorization flusher =>
      exact mcpWithin_bind _ _ (handleSSE_within h _ _) (fun _ => mcpWithin_ret _)
  | message m =>
      refine mcpWithin_bind _ _ (mcpWithin_mono (by simp) _ (handleMessage_within h m))
        (fun _ => mcpWithin_ret _)

end Footprint

end Cuttlegate
