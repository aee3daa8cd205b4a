import Cuttlegate.Lib.Calendar
import Cuttlegate.Lib.Framing
import Cuttlegate.Lib.Json
import Cuttlegate.Sdk.Caches

/-!
# The Readers of the Stream

How each client library reads the stream of announcements: from the chunks in
which the network hands over the text, to what the caller is told.

The three recognise the frames in different ways. JavaScript collects text in
a buffer and takes off what comes before a blank line, then looks at the lines
of such a block. Go has a scanner take off lines, which gives up at a line of
64 KiB. Python iterates over the lines of the response, which an HTTP library
splits wherever Python sees a line boundary. All three look for a `data:` line,
drop the white space around the rest of it, and decode that as JSON; they check
the decoded value to different degrees.

Decoding JSON text, and the iteration over the lines of a response, are
parameters. Text is a list of characters, of which the chunks are the pieces.

## Main definitions

* `Sdk.dataText`: What a line of the stream carries.
* `Sdk.Js.readSSEStream`, `Sdk.Js.processSSEBlock`: The JavaScript reader.
* `Sdk.Go.attemptStream`, `Sdk.Go.scan`: The Go reader, for one flag.
* `Sdk.Python.readSse`, `Sdk.Python.splitlines`: The Python reader.
-/

namespace Cuttlegate.Sdk

/-- A text without the white space at its ends. -/
def trimWith (space : Char → Bool) (text : List Char) : List Char :=
  ((text.dropWhile space).reverse.dropWhile space).reverse

/-- What a line carries, if anything: comments, blank lines and lines of
    another field carry nothing, and neither does an empty `data:` line. -/
def dataText (space : Char → Bool) (blank : List Char → Bool) (line : List Char) :
    Option (List Char) :=
  if line.head? = some ':' ∨ blank line = true then none
  else if "data:".toList.isPrefixOf line then
    if trimWith space (line.drop 5) = [] then none else some (trimWith space (line.drop 5))
  else none

/-- The value of a key of an object. A key that occurs again overwrites. -/
def field (fields : List (String × Json)) (key : String) : Option Json :=
  (Feed.latest Prod.fst key fields).map Prod.snd

/-- The spaces of Unicode outside Latin-1 that all three languages know. -/
def isWideSpace (c : Char) : Bool :=
  c.toNat == 0x1680 || (0x2000 ≤ c.toNat && c.toNat ≤ 0x200a) || c.toNat == 0x2028 ||
    c.toNat == 0x2029 || c.toNat == 0x202f || c.toNat == 0x205f || c.toNat == 0x3000

/-! ## JavaScript -/

namespace Js

/-- What `trim` removes. -/
def isSpace (c : Char) : Bool :=
  (9 ≤ c.toNat && c.toNat ≤ 13) || c.toNat == 32 || c.toNat == 160 || c.toNat == 0xfeff ||
    isWideSpace c

/-- What comes before the first blank line of the buffer, and what comes
    after it. -/
def cutBlock : List Char → Option (List Char × List Char)
  | [] => none
  | [_] => none
  | a :: b :: rest =>
      if a = '\n' ∧ b = '\n' then some ([], rest)
      else (cutBlock (b :: rest)).map (fun found => (a :: found.1, found.2))

/-- Blocks end with a blank line. -/
def blocks : Cutter Char where
  cut := cutBlock
  -- A block ends at the first empty line, and that line goes with it.
  shrinks := by
    intro x
    induction x with
    | nil => exact fun _ _ h => (nomatch h)
    | cons a x ih =>
        cases x with
        | nil => exact fun _ _ h => (nomatch h)
        | cons b rest =>
            intro frame rest' h
            rw [cutBlock] at h
            by_cases hblank : a = '\n' ∧ b = '\n'
            · rw [if_pos hblank] at h
              cases h
              simp only [List.length_cons]
              omega
            · rw [if_neg hblank] at h
              rcases Option.map_eq_some_iff.mp h with ⟨found, hfound, heq⟩
              cases heq
              have hshort := ih found.1 found.2 hfound
              simp only [List.length_cons] at hshort ⊢
              omega
  stable := by
    intro x
    induction x with
    | nil => exact fun _ _ _ h => (nomatch h)
    | cons a x ih =>
        cases x with
        | nil => exact fun _ _ _ h => (nomatch h)
        | cons b rest =>
            intro y frame rest' h
            rw [cutBlock] at h
            rw [List.cons_append, List.cons_append, cutBlock]
            by_cases hblank : a = '\n' ∧ b = '\n'
            · rw [if_pos hblank] at h ⊢
              cases h
              rfl
            · rw [if_neg hblank] at h ⊢
              rcases Option.map_eq_some_iff.mp h with ⟨found, hfound, heq⟩
              cases heq
              rw [← List.cons_append, ih y found.1 found.2 hfound]
              rfl

/-- The schema of the wire format: the fields are there and of their kinds, and
    the type is the one of a state change. -/
def safeParse : Json → Option WireEvent
  | .obj fields =>
      match field fields "type", field fields "project", field fields "environment",
          field fields "flag_key", field fields "enabled", field fields "occurred_at" with
      | some (.str type), some (.str project), some (.str environment), some (.str flagKey),
          some (.bool enabled), some (.str occurredAt) =>
          if type = sseEventType then
            some ⟨type, project, environment, flagKey, enabled, occurredAt⟩
          else none
      | _, _, _, _, _, _ => none
  | _ => none

/-- What the caller of the reader is told. -/
inductive Heard where
  | flagChange (event : WireEvent)
  | error (message : String)
  deriving DecidableEq, Repr

section Read

variable (parse : String → Option Json)

def processLine (line : List Char) : List Heard :=
  match dataText isSpace (fun line => trimWith isSpace line == []) line with
  | none => []
  | some jsonStr =>
      match parse (String.ofList jsonStr) with
      | none => [.error "SSE data is not valid JSON"]
      | some parsed =>
          match safeParse parsed with
          | none => [.error "SSE event has unexpected shape"]
          | some event => [.flagChange event]

def processSSEBlock (block : List Char) : List Heard :=
  (block.splitOn '\n').flatMap (processLine parse)

/-- What the caller is told while the chunks of a stream are read. -/
def readSSEStream (chunks : List (List Char)) : List Heard :=
  (blocks.read [] chunks).1.flatMap (processSSEBlock parse)

end Read

end Js

/-! ## Go -/

namespace Go

/-- What `TrimSpace` removes. -/
def isSpace (c : Char) : Bool :=
  (9 ≤ c.toNat && c.toNat ≤ 13) || c.toNat == 32 || c.toNat == 0x85 || c.toNat == 160 ||
    isWideSpace c

/-- The first line of the buffer, and what comes after it. -/
def cutLine : List Char → Option (List Char × List Char)
  | [] => none
  | a :: rest =>
      if a = '\n' then some ([], rest)
      else (cutLine rest).map (fun found => (a :: found.1, found.2))

/-- Lines end with a line feed. -/
def lines : Cutter Char where
  cut := cutLine
  shrinks := by
    intro x
    induction x with
    | nil => exact fun _ _ h => (nomatch h)
    | cons a x ih =>
        intro frame rest h
        rw [cutLine] at h
        by_cases hend : a = '\n'
        · rw [if_pos hend] at h
          cases h
          exact Nat.lt_succ_self _
        · rw [if_neg hend] at h
          rcases Option.map_eq_some_iff.mp h with ⟨found, hfound, heq⟩
          cases heq
          exact Nat.lt_succ_of_lt (ih found.1 found.2 hfound)
  stable := by
    intro x
    induction x with
    | nil => exact fun _ _ _ h => (nomatch h)
    | cons a x ih =>
        intro y frame rest h
        rw [cutLine] at h
        rw [List.cons_append, cutLine]
        by_cases hend : a = '\n'
        · rw [if_pos hend] at h ⊢
          cases h
          rfl
        · rw [if_neg hend] at h ⊢
          rcases Option.map_eq_some_iff.mp h with ⟨found, hfound, heq⟩
          cases heq
          rw [ih y found.1 found.2 hfound]
          rfl

/-- The longest line the scanner takes, in bytes. -/
def maxScanTokenSize : Nat := 64 * 1024

/-- A line without the carriage return at its end. -/
def dropCR (line : List Char) : List Char :=
  if line.getLast? = some '\r' then line.dropLast else line

/-- The lines a scanner finds in the chunks of a stream that has ended. What is
    left without a line feed is a line if it is not empty, and a line that does
    not fit ends the scan. -/
def scan (chunks : List (List Char)) : List (List Char) :=
  let found := lines.read [] chunks
  (((found.1 ++ if found.2 = [] then [] else [found.2]).takeWhile
    (fun line => (line.map Char.utf8Size).sum < maxScanTokenSize))).map dropCR

/-- Fill the record of the wire format from a value. -/
def unmarshal : Json → Option WireEvent :=
  Json.decodeRecord (fun key v r =>
    if Json.named "type" key then (Json.decodeString r.type v).map (fun s => { r with type := s })
    else if Json.named "project" key then
      (Json.decodeString r.project v).map (fun s => { r with project := s })
    else if Json.named "environment" key then
      (Json.decodeString r.environment v).map (fun s => { r with environment := s })
    else if Json.named "flag_key" key then
      (Json.decodeString r.flagKey v).map (fun s => { r with flagKey := s })
    else if Json.named "enabled" key then
      (Json.decodeBool r.enabled v).map (fun b => { r with enabled := b })
    else if Json.named "occurred_at" key then
      (Json.decodeString r.occurredAt v).map (fun s => { r with occurredAt := s })
    else some r) ⟨"", "", "", "", false, ""⟩

/-- What the two channels of a subscription carry. A time, in nanoseconds since
    1970, that cannot be read is the zero time. -/
inductive Heard where
  | update (key : String) (enabled : Bool) (updatedAt : Option Int)
  | error (message : String)
  deriving DecidableEq, Repr

section Read

variable (parse : String → Option Json) (key : String)

def processLine (line : List Char) : List Heard :=
  match dataText isSpace (fun line => line == []) line with
  | none => []
  | some jsonStr =>
      match (parse (String.ofList jsonStr)).bind unmarshal with
      | none => [.error "SSE invalid JSON"]
      | some wire =>
          if wire.type ≠ sseEventType then []
          else if wire.flagKey ≠ key then []
          else match Calendar.parse wire.occurredAt.toList with
            | none => [.error "SSE invalid occurred_at", .update wire.flagKey wire.enabled none]
            | some updatedAt => [.update wire.flagKey wire.enabled (some updatedAt)]

/-- What a subscription to a flag is told by the chunks of a stream. -/
def attemptStream (chunks : List (List Char)) : List Heard :=
  (scan chunks).flatMap (processLine parse key)

end Read

end Go

/-! ## Python -/

namespace Python

/-- What `strip` removes. -/
def isSpace (c : Char) : Bool :=
  (9 ≤ c.toNat && c.toNat ≤ 13) || (28 ≤ c.toNat && c.toNat ≤ 32) || c.toNat == 0x85 ||
    c.toNat == 160 || isWideSpace c

/-- The characters that end a line for `splitlines`. -/
def isLineBoundary (c : Char) : Bool :=
  (10 ≤ c.toNat && c.toNat ≤ 13) || (28 ≤ c.toNat && c.toNat ≤ 30) || c.toNat == 0x85 ||
    c.toNat == 0x2028 || c.toNat == 0x2029

/-- The lines of a text. A carriage return and a line feed are one boundary,
    and there is no line after a boundary at the end. -/
def splitlines : List Char → List (List Char)
  | [] => []
  | '\r' :: '\n' :: rest => [] :: splitlines rest
  | c :: rest =>
      if isLineBoundary c then [] :: splitlines rest
      else match splitlines rest with
        | [] => [[c]]
        | line :: lines => (c :: line) :: lines

/-- The value of the digits in a text. -/
def digitsValue (text : List Char) : Nat :=
  (text.filter Char.isDigit).foldl (fun n c => 10 * n + (c.toNat - 48)) 0

/-- Whether a number is zero once it is read. What has a point or an exponent
    becomes a double, which is zero up to half of the least one, `2 ^ -1074`. -/
def isZero (text : List Char) : Bool :=
  let mantissa := text.takeWhile (fun c => c ≠ 'e' ∧ c ≠ 'E')
  let power := text.drop (mantissa.length + 1)
  let places := ((mantissa.dropWhile (· ≠ '.')).drop 1).length
  let exponent := (if power.head? = some '-' then -1 else 1) * (digitsValue power : Int) - places
  mantissa.any Char.isDigit &&
    if exponent ≥ 0 then digitsValue mantissa == 0
    else decide (digitsValue mantissa * 2 ^ 1075 ≤ 10 ^ exponent.natAbs)

/-- What counts as true. -/
def truthy : Json → Bool
  | .null => false
  | .bool b => b
  | .num text => !isZero text.toList
  | .str s => s ≠ ""
  | .arr elems => elems.length > 0
  | .obj fields => fields.length > 0

/-- An event as it is handed to the caller: only the type is checked, and the
    state is made a boolean. -/
structure FlagChangeEvent where
  type : Json
  project : Json
  environment : Json
  flagKey : Json
  enabled : Bool
  occurredAt : Json

inductive Heard where
  | change (event : FlagChangeEvent)
  | error (message : String)

section Read

variable (parse : String → Option Json)

def handleDataLine (raw : List Char) : List Heard :=
  match parse (String.ofList raw) with
  | none => [.error "SSE data is not valid JSON"]
  | some (.obj fields) =>
      match field fields "type" with
      | some (.str type) =>
          if type ≠ sseEventType then []
          else match field fields "project", field fields "environment", field fields "flag_key",
              field fields "enabled", field fields "occurred_at" with
            | some project, some environment, some flagKey, some enabled, some occurredAt =>
                [.change ⟨.str type, project, environment, flagKey, truthy enabled, occurredAt⟩]
            | _, _, _, _, _ => [.error "SSE event missing field"]
      | _ => []
  | some _ => [.error "SSE event is not a JSON object"]

def processLine (line : List Char) : List Heard :=
  match dataText isSpace (fun line => trimWith isSpace line == []) line with
  | none => []
  | some raw => handleDataLine parse raw

/-- What the caller is told while the lines of a response are read; `iterLines`
    is the iteration over them. -/
def readSse (iterLines : List (List Char) → List (List Char)) (chunks : List (List Char)) :
    List Heard :=
  (iterLines chunks).flatMap (processLine parse)

end Read

end Python

end Cuttlegate.Sdk
