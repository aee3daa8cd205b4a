import Cuttlegate.Adapters.Handlers
import Cuttlegate.Sdk.Bootstraps
import Cuttlegate.Sdk.Provider
import Cuttlegate.Sdk.Readers
import Cuttlegate.Sdk.Wire

/-!
# Evaluation Requests as the Clients Make Them

The body of the request that each of the three clients sends, the body of the
response, and how each of them reads it. Bodies are JSON values; the text in
between is left to the encoding libraries on both sides.

The Go and Python clients accept any values for the attributes of a user, the
JavaScript client strings. The server accepts strings and `null`, which it
takes for the empty string.

Go fills a record, as the server does. The JavaScript client checks a schema,
and the Python client looks at the fields one by one, of which it does not
check the kinds.

## Main definitions

* `Sdk.EvalContext`: The user of a request, as a client has it.
* `Sdk.EvalContext.Readable`, `Sdk.EvalContext.read`: What the server makes of
  it.
* `Sdk.requestBody`, `Sdk.BulkResponse.json`: The bodies.
* `Sdk.bulkBody`: The body of an answer of the handler.
* `Sdk.Go.reply`, `Sdk.Js.answer`, `Sdk.Python.answer`: How it is read.
* `Sdk.Js.createClient.evaluate`, `Sdk.Js.createClient.bool`,
  `Sdk.Js.createClient.string`: The methods of the plain JavaScript client.
-/

namespace Cuttlegate.Sdk

/-! ## The request -/

/-- The user of a request. The attributes are a map, which in Go may never have
    been made. -/
structure EvalContext where
  userID : String
  attributes : Option (List (String × Json))
  keys : ((attributes.getD []).map Prod.fst).Nodup

/-- The text of an attribute, for the server. -/
def attributeText : Json → Option String := Json.decodeString ""

namespace EvalContext

/-- The server can read every attribute. -/
def Readable (ctx : EvalContext) : Prop :=
  ∀ a ∈ ctx.attributes.getD [], (attributeText a.2).isSome = true

/-- The user for whom the server evaluates. -/
def read (ctx : EvalContext) : Cuttlegate.EvalContext where
  userID := ctx.userID
  attributes k := ((ctx.attributes.getD []).find? (fun a => a.1 == k)).bind
    (fun a => attributeText a.2)

def json (ctx : EvalContext) : Json :=
  .obj [("user_id", .str ctx.userID), ("attributes", ctx.attributes.elim .null .obj)]

end EvalContext

def requestBody (ctx : EvalContext) : Json := .obj [("context", ctx.json)]

/-! ## The response -/

def BulkFlag.json (f : BulkFlag) : Json :=
  .obj [("key", .str f.key), ("enabled", .bool f.enabled), ("value", f.value.elim .null .str),
    ("value_key", .str f.valueKey), ("reason", .str f.reason), ("type", .str f.type)]

def BulkResponse.json (r : BulkResponse) : Json :=
  .obj [("flags", .arr (r.flags.map BulkFlag.json)), ("evaluated_at", .str r.evaluatedAt)]

/-- The body of an answer to a bulk evaluation. The clients do not read those
    of errors. -/
def bulkBody (format : Time → String) : Body → Option Json
  | .evaluations views evaluatedAt => some (evaluateAllResponse format (views, evaluatedAt)).json
  | _ => none

/-! ## Go -/

namespace Go

def decodeFlag : Json → Option BulkFlag :=
  Json.decodeRecord (fun key v r =>
    if Json.named "key" key then (Json.decodeString r.key v).map (fun s => { r with key := s })
    else if Json.named "enabled" key then
      (Json.decodeBool r.enabled v).map (fun b => { r with enabled := b })
    else if Json.named "value" key then
      (Json.decodePointer (Json.decodeString "") v).map (fun s => { r with value := s })
    else if Json.named "value_key" key then
      (Json.decodeString r.valueKey v).map (fun s => { r with valueKey := s })
    else if Json.named "reason" key then
      (Json.decodeString r.reason v).map (fun s => { r with reason := s })
    else if Json.named "type" key then
      (Json.decodeString r.type v).map (fun s => { r with type := s })
    else some r) ⟨"", false, none, "", "", ""⟩

def decodeResponse : Json → Option BulkResponse :=
  Json.decodeRecord (fun key v r =>
    if Json.named "flags" key then
      (Json.decodeList decodeFlag v).map (fun l => { r with flags := l })
    else if Json.named "evaluated_at" key then
      (Json.decodeString r.evaluatedAt v).map (fun s => { r with evaluatedAt := s })
    else some r) ⟨[], ""⟩

/-- What comes back, as the client tells it apart. -/
def reply (status : Nat) (body : Option Json) : Reply := .answered status (body.bind decodeResponse)

end Go

/-! ## JavaScript -/

namespace Js

/-- One flag of the schema. A server that does not send `value_key` is taken to
    send the empty string. -/
def parseFlag : Json → Option BulkFlag
  | .obj fields =>
      match field fields "key", field fields "enabled", field fields "value",
          field fields "reason", field fields "type" with
      | some (.str key), some (.bool enabled), some value, some (.str reason),
          some (.str type) =>
          match value, (field fields "value_key").getD (.str "") with
          | .null, .str valueKey => some ⟨key, enabled, none, valueKey, reason, type⟩
          | .str text, .str valueKey => some ⟨key, enabled, some text, valueKey, reason, type⟩
          | _, _ => none
      | _, _, _, _, _ => none
  | _ => none

/-- The schema of the response. -/
def parseResponse : Json → Option BulkResponse
  | .obj fields =>
      match field fields "flags", field fields "evaluated_at" with
      | some (.arr flags), some (.str evaluatedAt) =>
          (flags.mapM parseFlag).map (fun l => ⟨l, evaluatedAt⟩)
      | _, _ => none
  | _ => none

/-- What comes back, as the client tells it apart. -/
def answer (status : Nat) (body : Option Json) : Answer :=
  .answered status (body.elim .invalid (fun json =>
    (parseResponse json).elim .unexpected .parsed))

namespace createClient

variable (timeout : Nat) (defaults : List (String × Go.FlagDefault)) (a : Answer) (key : String)

def evaluate : Except CuttlegateError (EvalResult (Option String)) := do
  let results ← evaluateAll timeout defaults a
  match results.find? (fun r => r.key == key) with
  | none => .error ⟨"not_found", "Flag \"" ++ key ++ "\" not found"⟩
  | some result => .ok result

def bool : Except CuttlegateError Bool := do
  let result ← evaluate timeout defaults a key
  .ok (result.variant == "true")

def string : Except CuttlegateError String := do
  let result ← evaluate timeout defaults a key
  .ok result.variant

end createClient

end Js

/-! ## Python -/

namespace Python

/-- The fields that are looked up before a flag is read. -/
def requiredFlagFields : List String := ["key", "enabled", "value_key", "reason"]

/-- One flag of a response. Of the fields that are there, those whose kinds do
    not fit are not noticed by the client and not modelled any further. -/
def parseFlag : Json → Except Body BulkFlag
  | .obj fields =>
      match requiredFlagFields.find? (fun name => (field fields name).isNone) with
      | some name => .error (.incomplete name)
      | none =>
          match field fields "key", field fields "enabled", field fields "value_key",
              field fields "reason", (field fields "value").getD .null with
          | some (.str key), some (.bool enabled), some (.str valueKey), some (.str reason),
              .str value => .ok ⟨key, enabled, some value, valueKey, reason, ""⟩
          | some (.str key), some (.bool enabled), some (.str valueKey), some (.str reason),
              .null => .ok ⟨key, enabled, none, valueKey, reason, ""⟩
          | _, _, _, _, _ => .error .alien
  | _ => .error .alien

/-- The JSON of a response, where a missing field is an empty one. -/
def parseResponse : Json → Body
  | .obj fields =>
      match (field fields "flags").getD (.arr []),
          (field fields "evaluated_at").getD (.str "") with
      | .arr flags, .str evaluatedAt =>
          match flags.mapM parseFlag with
          | .ok l => .parsed ⟨l, evaluatedAt⟩
          | .error body => body
      | _, _ => .alien
  | _ => .alien

/-- What comes back, as the client tells it apart. -/
def answer (status : Nat) (body : Option Json) : Answer :=
  .answered status (body.elim .invalid parseResponse)

end Python

end Cuttlegate.Sdk
