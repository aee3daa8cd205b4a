import Cuttlegate.Adapters.Broker
import Cuttlegate.Theory.Scope

/-!
# Streams on the Wire

What a stream sends to its client, down to the calls on the response writer of
the server, and whether the deployed route sends it.

The handler writes one chunk per event of its environment and one comment per
tick of its timer, and flushes after each. Given a writer that can flush it
does so. The route is wired behind the middlewares of the metrics and of the
tenant, both of which wrap the writer in a type of their own that forwards
headers and writes but cannot flush. So the handler finds no flusher on any
request, and refuses before it subscribes.

How an event is put into JSON and a time into text makes no difference to any
of this.

## Main definitions

* `Wire`: A call on the response writer of the server.
* `SSEHandler.handleEvent`, `SSEHandler.loopWire`, `Response.wire`: What is sent.
* `Streams`: What a client of a stream should see.

## Theorems

* `SSEHandler.loopWire_chunks`: The loop sends the events of its environment.
* `SSEHandler.stream_streams`: A stream on a writer that can flush.
* `stream_never_streams`: The deployed stream.
-/

namespace Cuttlegate

/-- A call on the response writer of the server. -/
inductive Wire where
  | writeHeader (status : Nat)
  | write (text : String)
  | flush
  deriving DecidableEq, Repr

/-- The JSON of one data line. -/
structure SseEventPayload where
  type : String
  project : String
  environment : String
  flagKey : String
  enabled : Bool
  occurredAt : String
  deriving DecidableEq, Repr

def keepAlive : String := ": keep-alive\n\n"

section Encoding

variable (format : Time → String) (marshal : SseEventPayload → String)

/-- The data line of an event. -/
def dataLine (e : FlagStateChangedEvent) : String :=
  "data: " ++ marshal ⟨"flag.state_changed", e.project, e.environment, e.flagKey, e.enabled,
    format e.timestamp⟩ ++ "\n\n"

namespace SSEHandler

/-- Forward an event of the client's project and environment. -/
def handleEvent (e : FlagStateChangedEvent) (projSlug envSlug : String) : List Wire :=
  if e.project ≠ projSlug ∨ e.environment ≠ envSlug then []
  else [.write (dataLine format marshal e), .flush]

/-- What the loop of a stream sends, for what it is woken up by. -/
def loopWire (projSlug envSlug : String) : List StreamInput → List Wire
  | [] => []
  | .done :: _ => []
  | .closed :: _ => []
  | .tick :: rest => [.write keepAlive, .flush] ++ loopWire projSlug envSlug rest
  | .event e :: rest =>
      handleEvent format marshal e projSlug envSlug ++ loopWire projSlug envSlug rest

end SSEHandler

/-- What an answer is on the wire. A stream is open while its loop runs. -/
def Response.wire (json : Body → String) (projSlug envSlug : String) (inputs : List StreamInput)
    (resp : Response) : List Wire :=
  match resp.body with
  | .stream _ => .writeHeader resp.status :: .flush ::
      SSEHandler.loopWire format marshal projSlug envSlug inputs
  | .text message => [.writeHeader resp.status, .write (message ++ "\n")]
  | body => [.writeHeader resp.status, .write (json body)]

/-- The events a stream is woken up by before it ends. -/
def receivedEvents : List StreamInput → List FlagStateChangedEvent
  | [] => []
  | .done :: _ => []
  | .closed :: _ => []
  | .tick :: rest => receivedEvents rest
  | .event e :: rest => e :: receivedEvents rest

/-- The client sees a stream: after the headers, chunk by chunk and flushed
    each time, exactly the received events of its project and environment in
    their order, with only keep-alive comments in between. -/
def Streams (projSlug envSlug : String) (inputs : List StreamInput) (wire : List Wire) : Prop :=
  ∃ chunks : List String,
    wire = .writeHeader 200 :: .flush :: chunks.flatMap (fun chunk => [.write chunk, .flush]) ∧
    chunks.filter (fun chunk => chunk ≠ keepAlive) =
      ((receivedEvents inputs).filter (fun e => e.project = projSlug ∧ e.environment = envSlug)).map
        (dataLine format marshal)

/-- A data line is no comment. -/
theorem dataLine_ne_keepAlive (e : FlagStateChangedEvent) :
    dataLine format marshal e ≠ keepAlive := by
  intro heq
  have hhead := congrArg (fun line => line.toList.head?) heq
  simp [dataLine, keepAlive] at hhead

/-- The loop sends the events of its environment, and comments. -/
theorem SSEHandler.loopWire_chunks (projSlug envSlug : String) (inputs : List StreamInput) :
    ∃ chunks : List String,
      loopWire format marshal projSlug envSlug inputs =
        chunks.flatMap (fun chunk => [.write chunk, .flush]) ∧
      chunks.filter (fun chunk => chunk ≠ keepAlive) =
        ((receivedEvents inputs).filter
          (fun e => e.project = projSlug ∧ e.environment = envSlug)).map
          (dataLine format marshal) := by
  -- On the inputs: each tick and each own event writes one chunk and flushes it.
  induction inputs with
  | nil => exact ⟨[], rfl, rfl⟩
  | cons input rest ih =>
      rcases ih with ⟨chunks, hwire, hdata⟩
      cases input with
      | done => exact ⟨[], rfl, rfl⟩
      | closed => exact ⟨[], rfl, rfl⟩
      | tick =>
          refine ⟨keepAlive :: chunks, ?_, ?_⟩
          · rw [loopWire, hwire]
            rfl
          · rw [List.filter_cons_of_neg (by simp)]
            exact hdata
      | event e =>
          by_cases he : e.project = projSlug ∧ e.environment = envSlug
          · have hne := dataLine_ne_keepAlive format marshal e
            refine ⟨dataLine format marshal e :: chunks, ?_, ?_⟩
            · rw [loopWire, handleEvent, if_neg (by simp [he]), hwire]
              rfl
            · rw [List.filter_cons_of_pos (by simpa using hne), receivedEvents,
                List.filter_cons_of_pos (by simpa using he), List.map_cons, hdata]
          · -- The event is of another environment, and nothing is sent.
            refine ⟨chunks, ?_, ?_⟩
            · rw [loopWire, handleEvent, if_pos (not_and_or.mp he), hwire]
              rfl
            · rw [receivedEvents, List.filter_cons_of_neg (by simpa using he)]
              exact hdata

/-- An answer other than 200 is no stream. -/
theorem Response.wire_not_streams (json : Body → String) (projSlug envSlug : String)
    (inputs : List StreamInput) (resp : Response) (hbad : resp.status ≠ 200) :
    ¬ Streams format marshal projSlug envSlug inputs
      (resp.wire format marshal json projSlug envSlug inputs) := by
  rintro ⟨chunks, hwire, _⟩
  unfold Response.wire at hwire
  split at hwire
  all_goals
    rw [List.cons.injEq, Wire.writeHeader.injEq] at hwire
    exact hbad hwire.1

end Encoding

/-! ## The handler by itself -/

/-- A handler with a writer that can flush and a broker that is open streams,
    whenever it does not answer with an error. -/
theorem SSEHandler.stream_streams (h : HttpHost) (format : Time → String)
    (marshal : SseEventPayload → String) (json : Body → String) (ctx : Ctx)
    (projSlug envSlug : String) (inputs : List StreamInput) (s : HttpState) :
    Proc.Ends (httpExec h) (fun r _ => ∀ resp, r = .ok resp → resp.status < 400 →
        Streams format marshal projSlug envSlug inputs
          (resp.wire format marshal json projSlug envSlug inputs))
      (SSEHandler.stream ctx ⟨true⟩ projSlug envSlug true inputs) s := by
  -- A refusal has a status of 400 or above, so it owes no stream.
  have hQ : AllowsRefusal (fun r _ => ∀ resp, r = .ok resp → resp.status < 400 →
      Streams format marshal projSlug envSlug inputs
        (resp.wire format marshal json projSlug envSlug inputs)) := by
    refine ⟨fun _ resp hr => (nomatch hr), fun e _ resp hr hlt => ?_, fun _ resp hr hlt => ?_⟩
    · cases hr
      exact absurd hlt (Nat.not_lt.mpr (writeError_status e))
    · cases hr
      exact absurd hlt (by decide)
  unfold SSEHandler.stream resolvePath
  refine ends_orWriteError h hQ _ _ s (fun proj s₁ _ => ?_)
  refine ends_orWriteError h hQ _ _ s₁ (fun env s₂ _ => ?_)
  intro resp hresp _
  cases hresp
  rcases SSEHandler.loopWire_chunks format marshal projSlug envSlug inputs with
    ⟨chunks, hwire, hdata⟩
  refine ⟨chunks, ?_, hdata⟩
  simp only [Response.wire, hwire]

/-! ## The deployed route -/

/-- The request was answered with an error. -/
def Refused (r : Except Err Response) (_ : HttpState) : Prop :=
  ∀ resp, r = .ok resp → 400 ≤ resp.status

theorem refused_ok (resp : Response) (s : HttpState) (hbad : 400 ≤ resp.status) :
    Refused (.ok resp) s := by
  intro resp' hresp
  cases hresp
  exact hbad

theorem refused_refusal : AllowsRefusal Refused := by
  refine ⟨fun _ resp hr => (nomatch hr), fun e s => ?_, fun s => ?_⟩
  · exact refused_ok _ s (writeError_status e)
  · exact refused_ok _ s (by decide)

theorem writeVerifyError_status (e : VerifyError) : 400 ≤ (writeVerifyError e).status := by
  cases e <;> simp [writeVerifyError, writeUnauthorized]

/-- The middleware of the tenant passes a refusal on. -/
theorem ends_tenantRLS_refused (h : HttpHost) (slug : String) (hslug : slug ≠ "")
    (next : Option String → HttpProg Response) (s : HttpState)
    (hnext : ∀ tenant s', Proc.Ends (httpExec h) Refused (next tenant) s') :
    Proc.Ends (httpExec h) Refused (tenantRLS slug next) s := by
  unfold tenantRLS
  rw [if_neg hslug]
  refine ends_orWriteError h refused_refusal _ _ s (fun proj s₁ _ => ?_)
  refine Proc.ends_attempt _ _ s₁ (fun r s₂ _ => ?_)
  cases r with
  | error e => exact refused_ok _ s₂ (by decide)
  | ok _ =>
      refine Proc.ends_attempt _ _ s₂ (fun r s₃ _ => ?_)
      cases r with
      | error e => exact refused_ok _ _ (by decide)
      | ok _ =>
          refine Proc.ends_seq _ _ s₃ (hnext (some proj.id) s₃) (fun e s' _ resp hr => (nomatch hr))
            (fun resp s' hdone => ?_)
          have hbad : resp.status ≥ 400 := hdone resp rfl
          simp only [if_pos hbad]
          exact refused_ok _ _ hbad

/-- Behind the two middlewares no writer can flush, whatever the server
    provides, so that every stream is refused. -/
theorem SSEHandler.stream_refused (h : HttpHost) (ctx : Ctx) (w : Writer)
    (projSlug envSlug : String) (subscribed : Bool) (inputs : List StreamInput) (s : HttpState) :
    Proc.Ends (httpExec h) Refused (SSEHandler.stream ctx (statusRecorder (responseWriter w))
      projSlug envSlug subscribed inputs) s := by
  unfold SSEHandler.stream resolvePath
  refine ends_orWriteError h refused_refusal _ _ s (fun proj s₁ _ => ?_)
  refine ends_orWriteError h refused_refusal _ _ s₁ (fun env s₂ _ => ?_)
  exact refused_ok _ s₂ (by decide)

/-- A request to the stream route, as it is wired. -/
theorem KeyRequest.stream_refused (h : HttpHost) (w : Writer) (req : KeyRequest)
    (subscribed : Bool) (inputs : List StreamInput) (s : HttpState) :
    Proc.Ends (httpExec h) Refused
      (KeyRequest.serve h w { req with route := .stream subscribed inputs }) s := by
  -- Behind the recorder the writer is no flusher, whoever calls.
  have hgo : ∀ ac s', Proc.Ends (httpExec h) Refused (tenantRLS req.projSlug (fun tenant =>
      SSEHandler.stream ⟨some ac, tenant⟩ (statusRecorder (responseWriter w)) req.projSlug
        req.envSlug subscribed inputs)) s' := by
    intro ac s'
    exact ends_tenantRLS_refused h req.projSlug req.projSlug_ne _ s' (fun tenant s'' =>
      SSEHandler.stream_refused h _ w req.projSlug req.envSlug subscribed inputs s'')
  unfold KeyRequest.serve requireBearerOrAPIKey
  cases bearerToken req.authorization with
  | none => exact refused_ok _ s (by decide)
  | some token =>
      by_cases hcg : "cg_".toList.isPrefixOf token.toList = true
      · simp only [if_pos hcg]
        refine Proc.ends_attempt _ _ s (fun r s₁ _ => ?_)
        cases r with
        | error e => exact refused_ok _ s₁ (by decide)
        | ok scope => exact hgo _ s₁
      · simp only [if_neg hcg]
        cases h.verify token with
        | error e => exact refused_ok _ s (writeVerifyError_status e)
        | ok who => exact hgo _ s

/-- No request to the stream route is streamed to: not on any server or
    database, not with any credentials or path, not with any broker, and not
    on a writer that can flush. -/
theorem stream_never_streams (h : HttpHost) (w : Writer) (b : Broker FlagStateChangedEvent)
    (req : KeyRequest) (inputs : List StreamInput) (format : Time → String)
    (marshal : SseEventPayload → String) (json : Body → String) (s : HttpState) :
    ¬ ∃ resp, (Proc.run (httpExec h) (KeyRequest.serve h w
        { req with route := .stream b.subscribe.1.isSome inputs }) s).1 = .ok resp ∧
      Streams format marshal req.projSlug req.envSlug inputs
        (resp.wire format marshal json req.projSlug req.envSlug inputs) := by
  rintro ⟨resp, hrun, hstreams⟩
  have hbad : 400 ≤ resp.status :=
    KeyRequest.stream_refused h w req b.subscribe.1.isSome inputs s resp hrun
  exact Response.wire_not_streams format marshal json _ _ inputs resp (by omega) hstreams

/-- A request to stream the changes of an environment. -/
def streamProd : KeyRequest where
  authorization := "Bearer cg_demo"
  projSlug := "shop"
  projSlug_ne := shop_ne_empty
  envSlug := "prod"
  route := .stream (NewBroker FlagStateChangedEvent 64).subscribe.1.isSome
    [.event ⟨"shop", "prod", "dark-mode", true, 0⟩, .done]

/-- The key is good, its environment exists, the broker is open, nothing fails
    and the server's writer can flush; and the stream is refused. -/
theorem stream_refused_shop :
    streamProd.Presents keyHost (shopAnd [] []).world.store shopKey ∧
      shopKey.below (shopAnd [] []).world.store "shop" "prod" ∧
      (NewBroker FlagStateChangedEvent 64).closed = false ∧
      (Proc.run (httpExec keyHost) (streamProd.serve keyHost ⟨true⟩) (shopAnd [] [])).1 =
        .ok ⟨500, .text "streaming unsupported"⟩ ∧
      ∀ format marshal json, ¬ Streams format marshal "shop" "prod"
        [.event ⟨"shop", "prod", "dark-mode", true, 0⟩, .done]
        ((⟨500, .text "streaming unsupported"⟩ : Response).wire format marshal json "shop" "prod"
          [.event ⟨"shop", "prod", "dark-mode", true, 0⟩, .done]) := by
  refine ⟨⟨"cg_demo", by decide, by decide, rfl, by decide⟩,
    ⟨_, _, rfl, rfl, rfl, rfl⟩, rfl, by decide +kernel, fun format marshal json => ?_⟩
  exact Response.wire_not_streams format marshal json _ _ _ _ (by decide)

end Cuttlegate
