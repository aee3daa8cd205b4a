import Cuttlegate.Sdk.OpenFeature
import Cuttlegate.Theory.EvaluationWire

/-!
# What the OpenFeature Providers Answer

A provider asked for a flag in a context answers with the evaluation of the
flag for the user it makes of the context. The JavaScript and the Python
provider make the same user of every context, the one with its strings. The Go
provider makes that user of a context that has nothing but strings; if there is
a value that is neither a string nor `null`, the server refuses the request and
the provider answers with the default.

## Main definitions

* `asked`: The answer of the server to a provider.
* `Provided`: What the providers answer.

## Theorems

* `provided_strings`, `provided_refused`: What they make of an answer.
* `open_feature_over_wire`: What they answer.
-/

namespace Cuttlegate

open Sdk.OpenFeature (FlattenedContext EvaluationContext isString boolVariant resolveParsed)

/-- A context of strings can be read. -/
theorem evalContext_readable (fc : FlattenedContext) (kept : Json → Bool)
    (hkept : ∀ a ∈ fc.attributes kept, isString a.2 = true) : (fc.evalContext kept).Readable := by
  intro a ha
  have hstring := hkept a ha
  cases hvalue : a.2 with
  | str text => rfl
  | null | bool _ | num _ | arr _ | obj _ =>
      rw [hvalue] at hstring
      exact Bool.noConfusion hstring

/-- The entries kept by all providers, when there are only strings. -/
theorem evalContext_all (fc : FlattenedContext)
    (hall : ∀ a ∈ fc.attributes (fun _ => true), isString a.2 = true) :
    fc.evalContext (fun _ => true) = fc.evalContext isString := by
  have hsame : fc.attributes (fun _ => true) = fc.attributes isString := by
    refine List.filter_congr (fun a ha => ?_)
    by_cases hkey : (a.1 != "targetingKey") = true
    · have hin : a ∈ fc.attributes (fun _ => true) :=
        List.mem_filter.mpr ⟨ha, by rw [hkey, Bool.and_true]⟩
      rw [hall a hin]
    · rw [Bool.not_eq_true] at hkey
      rw [hkey, Bool.false_and, Bool.false_and]
  unfold FlattenedContext.evalContext
  congr 2

/-! ## The providers with their server -/

/-- What the server answers to a client that sends a user. -/
def asked (h : HttpHost) (w : Writer) (req : KeyRequest) (s : HttpState) (ctx : Sdk.EvalContext) :
    Except Err Response :=
  (Proc.run (httpExec h) (KeyRequest.serve h w
    { req with route := .evaluateAll (some (Sdk.requestBody ctx)) }) s).1

section Asked

variable (format : Time → String) (answered : Sdk.EvalContext → Except Err Response)

/-- A handler that panics closes the connection. -/
def askGo (ctx : Sdk.EvalContext) : Sdk.Reply :=
  match answered ctx with
  | .ok resp => Sdk.Go.reply resp.status (Sdk.bulkBody format resp.body)
  | .error _ => .failed

def askJs (ctx : Sdk.EvalContext) : Sdk.Js.Answer :=
  match answered ctx with
  | .ok resp => Sdk.Js.answer resp.status (Sdk.bulkBody format resp.body)
  | .error _ => .failed (.error "fetch failed")

def askPython (ctx : Sdk.EvalContext) : Sdk.Python.Answer :=
  match answered ctx with
  | .ok resp => Sdk.Python.answer resp.status (Sdk.bulkBody format resp.body)
  | .error _ => .failed

end Asked

section Provided

variable (format : Time → String) (timeout : Nat) (defaults : List (String × Sdk.Go.FlagDefault))
  (answered : Sdk.EvalContext → Except Err Response) (fc : FlattenedContext)
  (ctx : EvaluationContext) (key : String)

/-- The JavaScript and the Python provider answer with a variant. -/
structure Provided (variant : String) : Prop where
  jsBoolean : ∀ d, Sdk.OpenFeature.Js.resolveBooleanEvaluation timeout defaults
    (askJs format answered) key d ctx =
      .matched (variant == "true") (boolVariant (variant == "true"))
  jsString : ∀ d, Sdk.OpenFeature.Js.resolveStringEvaluation timeout defaults
    (askJs format answered) key d ctx = .matched variant variant
  jsNumber : ∀ (α : Type) (number : String → Option α) (d : α),
    Sdk.OpenFeature.Js.resolveNumberEvaluation timeout defaults (askJs format answered) key number
      d ctx = resolveParsed number .parseError d (.ok variant)
  jsObject : ∀ parse d, Sdk.OpenFeature.Js.resolveObjectEvaluation timeout defaults
    (askJs format answered) key parse d ctx = resolveParsed parse .general d (.ok variant)
  pythonBoolean : ∀ d, Sdk.OpenFeature.Python.resolveBooleanDetails defaults
    (askPython format answered) key d ctx =
      .matched (variant == "true") (boolVariant (variant == "true"))
  pythonString : ∀ d, Sdk.OpenFeature.Python.resolveStringDetails defaults
    (askPython format answered) key d ctx = .matched variant variant
  pythonParsed : ∀ (α : Type) (parse : String → Option α) (d : α),
    Sdk.OpenFeature.Python.resolveParsedDetails defaults (askPython format answered) key parse d
      ctx = resolveParsed parse .general d (.ok variant)

/-- The Go provider answers with a variant. -/
structure GoProvided (variant : String) : Prop where
  boolean : ∀ d, Sdk.OpenFeature.Go.BooleanEvaluation (askGo format answered) key d fc =
    .matched (variant == "true") (boolVariant (variant == "true"))
  string : ∀ d, Sdk.OpenFeature.Go.StringEvaluation (askGo format answered) key d fc =
    .matched variant variant

/-- The Go provider answers with the default of the caller. -/
structure GoDefaulted : Prop where
  boolean : ∀ d, Sdk.OpenFeature.Go.BooleanEvaluation (askGo format answered) key d fc =
    .failed d .general (.client (.unexpected 400))
  string : ∀ d, Sdk.OpenFeature.Go.StringEvaluation (askGo format answered) key d fc =
    .failed d .general (.client (.unexpected 400))

variable (resp : Response) (v : EvalView) (evaluatedAt : String)

/-- The providers answer what their clients return for the key. -/
theorem provided (hasked : answered (ctx.evalContext isString) = .ok resp)
    (hreturn : clientsReturn format timeout defaults resp key =
      (.ok (v.result (·.getD "") evaluatedAt), .ok (v.result (fun value => value) evaluatedAt),
        .ok (v.result (·.getD "") evaluatedAt))) :
    Provided format timeout defaults answered ctx key v.valueKey := by
  rcases Prod.ext_iff.mp hreturn with ⟨_, hrest⟩
  rcases Prod.ext_iff.mp hrest with ⟨hjs, hpython⟩
  -- The JavaScript providers go through these two calls, the Python ones through
  -- the two after them.
  have hjsString : Sdk.Js.createClient.string timeout defaults
      (askJs format answered (Sdk.OpenFeature.Js.toEvalContext ctx)) key = .ok v.valueKey := by
    rw [askJs, Sdk.OpenFeature.Js.toEvalContext, hasked]
    exact congrArg (fun r => r >>= fun result => Except.ok result.variant) hjs
  have hjsBool : Sdk.Js.createClient.bool timeout defaults
      (askJs format answered (Sdk.OpenFeature.Js.toEvalContext ctx)) key =
        .ok (v.valueKey == "true") := by
    rw [askJs, Sdk.OpenFeature.Js.toEvalContext, hasked]
    exact congrArg (fun r => r >>= fun result => Except.ok (result.variant == "true")) hjs
  have hpyString : Sdk.Python.string defaults
      (askPython format answered (Sdk.OpenFeature.Python.evalContext ctx)) key =
        .ok v.valueKey := by
    rw [askPython, Sdk.OpenFeature.Python.evalContext, hasked]
    exact congrArg (fun r => r >>= fun result => Except.ok result.variant) hpython
  have hpyBool : Sdk.Python.bool defaults
      (askPython format answered (Sdk.OpenFeature.Python.evalContext ctx)) key =
        .ok (v.valueKey == "true") := by
    rw [askPython, Sdk.OpenFeature.Python.evalContext, hasked]
    exact congrArg (fun r => r >>= fun result => Except.ok (result.variant == "true")) hpython
  constructor
  · intro d
    rw [Sdk.OpenFeature.Js.resolveBooleanEvaluation, hjsBool]
    rfl
  · intro d
    rw [Sdk.OpenFeature.Js.resolveStringEvaluation, hjsString]
    rfl
  · intro α number d
    rw [Sdk.OpenFeature.Js.resolveNumberEvaluation, hjsString]
  · intro parse d
    rw [Sdk.OpenFeature.Js.resolveObjectEvaluation, hjsString]
  · intro d
    rw [Sdk.OpenFeature.Python.resolveBooleanDetails, hpyBool]
    rfl
  · intro d
    rw [Sdk.OpenFeature.Python.resolveStringDetails, hpyString]
    rfl
  · intro α parse d
    rw [Sdk.OpenFeature.Python.resolveParsedDetails, hpyString]

theorem goProvided (hasked : answered (fc.evalContext (fun _ => true)) = .ok resp)
    (hreturn : Sdk.Go.evaluate (Sdk.Go.reply resp.status (Sdk.bulkBody format resp.body)) key =
      .ok (v.result (·.getD "") evaluatedAt)) :
    GoProvided format answered fc key v.valueKey := by
  constructor
  · intro d
    rw [Sdk.OpenFeature.Go.BooleanEvaluation, askGo, Sdk.OpenFeature.Go.toEvalContext, hasked]
    dsimp only
    rw [Sdk.Go.bool, hreturn]
    rfl
  · intro d
    rw [Sdk.OpenFeature.Go.StringEvaluation, askGo, Sdk.OpenFeature.Go.toEvalContext, hasked]
    dsimp only
    rw [Sdk.Go.string, hreturn]
    rfl

theorem goDefaulted (hasked : answered (fc.evalContext (fun _ => true)) = .ok resp)
    (hreturn : Sdk.Go.evaluate (Sdk.Go.reply resp.status (Sdk.bulkBody format resp.body)) key =
      .error (.unexpected 400)) : GoDefaulted format answered fc key := by
  constructor
  · intro d
    rw [Sdk.OpenFeature.Go.BooleanEvaluation, askGo, Sdk.OpenFeature.Go.toEvalContext, hasked]
    dsimp only
    rw [Sdk.Go.bool, hreturn]
    rfl
  · intro d
    rw [Sdk.OpenFeature.Go.StringEvaluation, askGo, Sdk.OpenFeature.Go.toEvalContext, hasked]
    dsimp only
    rw [Sdk.Go.string, hreturn]
    rfl

end Provided

/-- For every flag of the project and every context: the JavaScript and the
    Python provider answer with the evaluation of the flag for the user with
    the strings of the context, where its targeting key is one. So does the Go
    provider if there is nothing else in the context. If there is a value that
    is neither a string nor `null`, it answers with the default of the caller. -/
theorem open_feature_over_wire (h : HttpHost) (hfails : ∀ n, h.host.fails n = false) (w : Writer)
    (req : KeyRequest) (s : HttpState) (proj : Project) (env : Environment)
    (hreq : req.Admitted h s proj env) (hs : EvalStore h.host.uuid s.world.store)
    (format : Time → String) (timeout : Nat) (defaults : List (String × Sdk.Go.FlagDefault))
    (fc : FlattenedContext) (f : Flag) (hf : f ∈ s.world.store.flags)
    (hproject : f.projectID = proj.id) :
    ∃ v, viewOf h.host.sortSlice ⟨some proj.id, h.host.rls⟩ s.world.store proj.id env.id
        (fc.evalContext isString).read f = .ok v ∧
      (∀ hkey, Provided format timeout defaults (asked h w req s) ⟨fc, hkey⟩ f.key v.valueKey) ∧
      ((∀ a ∈ fc.attributes (fun _ => true), isString a.2 = true) →
        GoProvided format (asked h w req s) fc f.key v.valueKey) ∧
      ((∃ a ∈ fc.attributes (fun _ => true), Sdk.attributeText a.2 = none) →
        GoDefaulted format (asked h w req s) fc f.key) := by
  have hserve : ∀ ctx : Sdk.EvalContext, _ := fun ctx =>
    serve_evaluateAll h hfails w { req with route := .evaluateAll (some (Sdk.requestBody ctx)) } ctx
      rfl s proj env ⟨hreq.closed, hreq.project, hreq.environment, hreq.key, hreq.limiter⟩ hs
  have hstrings : (fc.evalContext isString).Readable := by
    refine evalContext_readable fc isString (fun a ha => ?_)
    have hgood := List.of_mem_filter ha
    rw [Bool.and_eq_true] at hgood
    exact hgood.2
  rcases (hserve _).1 hstrings with ⟨⟨views, evaluatedAt⟩, listed, hrun, hlisted, hviews⟩
  rcases clientsReturn_flag hs hlisted hviews format timeout defaults evaluatedAt f hf hproject with
    ⟨v, hview, hreturn⟩
  refine ⟨v, hview,
    fun hkey => provided format timeout defaults _ ⟨fc, hkey⟩ f.key _ v _ hrun hreturn,
    fun hall => ?_, fun hother => ?_⟩
  · -- The Go provider sends the same user.
    refine goProvided format _ fc f.key _ v _ ?_ (Prod.ext_iff.mp hreturn).1
    rw [evalContext_all fc hall]
    exact hrun
  · rcases hother with ⟨a, ha, hnone⟩
    have hunreadable : ¬ (fc.evalContext (fun _ => true)).Readable := by
      intro hread
      have hsome := hread a ha
      rw [hnone] at hsome
      exact Bool.noConfusion hsome
    exact goDefaulted format _ fc f.key _ ((hserve _).2 hunreadable)
      (Prod.ext_iff.mp (clientsReturn_refused format timeout defaults _ f.key)).1

/-- A paying user, with a number. -/
def payingContext : EvaluationContext where
  entries := [("targetingKey", .str "u1"), ("plan", .str "pro"), ("seats", .num "5")]
  keys := by decide
  key := by
    intro a ha htargeting
    rcases List.mem_cons.mp ha with rfl | hrest
    · rfl
    · exact absurd (List.mem_map_of_mem (f := Prod.fst) hrest) (by rw [htargeting]; decide)

/-- The rule for paying users decides for the JavaScript provider, and the Go
    provider never gets to it. -/
theorem open_feature_over_wire_paying :
    Sdk.OpenFeature.Js.resolveBooleanEvaluation 5000 [] (askJs (fun _ => "now")
        (asked keyHost ⟨true⟩ evaluateForPaying (shopAnd [] []))) "dark-mode" false payingContext =
      .matched true "true" ∧
    Sdk.OpenFeature.Go.BooleanEvaluation (askGo (fun _ => "now")
        (asked keyHost ⟨true⟩ evaluateForPaying (shopAnd [] []))) "dark-mode" false
        payingContext.toFlattenedContext =
      .failed false .general (.client (.unexpected 400)) := by
  rcases open_feature_over_wire keyHost (fun _ => rfl) ⟨true⟩ evaluateForPaying (shopAnd [] []) _ _
    evaluateForPaying_admitted shopAnd_evalStore (fun _ => "now") 5000 []
    payingContext.toFlattenedContext darkMode List.mem_cons_self rfl
    with ⟨v, hview, hprovided, _, hdefaulted⟩
  have hv : v = ⟨"dark-mode", true, none, "true", .ruleMatch, .bool⟩ :=
    Except.ok.inj (hview.symm.trans (by decide +kernel))
  rw [hv] at hprovided
  refine ⟨(hprovided payingContext.key).jsBoolean false,
    (hdefaulted ⟨("seats", .num "5"), ?_, rfl⟩).boolean false⟩
  exact List.mem_cons_of_mem _ List.mem_cons_self

end Cuttlegate
