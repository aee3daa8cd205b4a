import Mathlib.Data.Bool.AllAny
import Cuttlegate.Sdk.Readers
import Cuttlegate.Theory.Streaming
import Mathlib.Data.List.TakeWhile

/-!
# The Stream from End to End

What the server writes on a stream, read by the three client libraries.

The server writes a comment at every tick and a `data:` line for every event
of the client's project and environment, each followed by a blank line. The
JSON of such a line is printable text without spaces as soon as its fields
are, so no reader finds a boundary in it, and the white space the readers drop
is the single space after the colon. Each reader therefore sees one frame, or
two lines, for each of these writes, however the text was cut; it skips the
comments, and it decodes what the server encoded.

The decoding of JSON text is assumed to be the inverse of the encoding, and
the iteration over the lines of a response to depend on its text only.

## Main definitions

* `marshalPayload`, `rfc3339`: How a payload and a time are encoded.
* `streamFrames`: What the server writes, frame by frame.
* `IsSlug`: The grammar of slugs, and the length the server accepts.

## Theorems

* `marshalPayload_graphic`: What the JSON of a line looks like.
* `wireText_eq`: The text the server writes.
* `Sdk.Js.reads`, `Sdk.Go.reads`, `Sdk.Python.reads`: What the readers find.
* `wire_round_trip`: The three readers.
-/

namespace Cuttlegate

/-! ## Encoding -/

/-- A payload as JSON text, in the order of the fields of the source. -/
def marshalPayload (p : SseEventPayload) : String :=
  "\x7b\"type\":" ++ jsonString p.type ++ ",\"project\":" ++ jsonString p.project
    ++ ",\"environment\":" ++ jsonString p.environment ++ ",\"flag_key\":" ++ jsonString p.flagKey
    ++ ",\"enabled\":" ++ (if p.enabled = true then "true" else "false")
    ++ ",\"occurred_at\":" ++ jsonString p.occurredAt ++ "\x7d"

/-- A payload as a JSON value. -/
def SseEventPayload.object (p : SseEventPayload) : Json :=
  .obj [("type", .str p.type), ("project", .str p.project), ("environment", .str p.environment),
    ("flag_key", .str p.flagKey), ("enabled", .bool p.enabled), ("occurred_at", .str p.occurredAt)]

/-- The second of a point in time, which is counted in nanoseconds since
    1970. -/
def unixSecond (t : Time) : Nat := t / 1000000000

/-- A point in time without the fraction of its second. -/
def fullSecond (t : Time) : Int := unixSecond t * 1000000000

/-- The year of a point in time. -/
def yearOf (t : Time) : Nat := (Calendar.ofDays (unixSecond t / 86400)).1

def rfc3339 (t : Time) : String := String.ofList (Calendar.format (unixSecond t))

/-- A time of a year of four digits is read back to the second. -/
theorem parse_rfc3339 (t : Time) (hyear : yearOf t < 10000) :
    Calendar.parse (rfc3339 t).toList = some (fullSecond t) := by
  unfold rfc3339
  rw [String.toList_ofList, Calendar.parse_format (unixSecond t) hyear, fullSecond]

/-- The payload of an event. -/
def payloadOf (e : FlagStateChangedEvent) : SseEventPayload :=
  ⟨"flag.state_changed", e.project, e.environment, e.flagKey, e.enabled, rfc3339 e.timestamp⟩

/-- A slug or flag key of a length the server accepts. -/
def IsSlug (s : String) : Prop := slugRe s = true ∧ s.length ≤ maxKeyLength

/-- A printable ASCII character other than the space. -/
def Graphic (c : Char) : Prop := 33 ≤ c.toNat ∧ c.toNat ≤ 126

/-- A printable character that JSON strings contain as it is. -/
def Plain (c : Char) : Prop :=
  Graphic c ∧ c ≠ '"' ∧ c ≠ '\\' ∧ c ≠ '<' ∧ c ≠ '>' ∧ c ≠ '&'

instance (c : Char) : Decidable (Graphic c) :=
  inferInstanceAs (Decidable (33 ≤ c.toNat ∧ c.toNat ≤ 126))

instance (c : Char) : Decidable (Plain c) :=
  inferInstanceAs (Decidable (Graphic c ∧ c ≠ '"' ∧ c ≠ '\\' ∧ c ≠ '<' ∧ c ≠ '>' ∧ c ≠ '&'))

theorem jsonChar_plain (c : Char) (h : Plain c) : jsonChar c = [c] := by
  rcases h with ⟨hg, hquote, hslash, hlt, hgt, hamp⟩
  have hcontrol : ∀ d : Char, d.toNat < 32 → c ≠ d := by
    rintro d hd rfl
    exact absurd hg.1 (by omega)
  unfold jsonChar
  rw [if_neg (not_or.mpr ⟨hquote, hslash⟩), if_neg (hcontrol '\n' (by decide)),
    if_neg (hcontrol '\r' (by decide)), if_neg (hcontrol '\t' (by decide)),
    if_neg (by have := hg.1; omega), if_neg (by have := hg.1; omega), if_neg]
  rintro (hlow | hin | hin | hin | hin | hin)
  · have := hg.1; omega
  · exact hlt hin
  · exact hgt hin
  · exact hamp hin
  · have := hg.2; omega
  · have := hg.2; omega

/-- The text of a string of plain characters is the string in quotes. -/
theorem jsonString_plain (s : String) (h : ∀ c ∈ s.toList, Plain c) :
    (jsonString s).toList = '"' :: (s.toList ++ ['"']) := by
  have hflat : ∀ l : List Char, (∀ c ∈ l, Plain c) → l.flatMap jsonChar = l := by
    intro l
    induction l with
    | nil => exact fun _ => rfl
    | cons c l ih =>
        intro hl
        rw [List.flatMap_cons, jsonChar_plain c (hl c List.mem_cons_self),
          ih (fun d hd => hl d (List.mem_cons_of_mem _ hd))]
        rfl
  unfold jsonString
  rw [String.toList_append, String.toList_append, hflat _ h]
  simp

theorem slug_plain (s : String) (h : slugRe s = true) : ∀ c ∈ s.toList, Plain c := by
  -- Lower-case letters and digits are graphic, and none of the escaped characters is one.
  have hstart : ∀ c, slugStart c = true → Plain c := by
    intro c hc
    have hrange : (97 ≤ c.toNat ∧ c.toNat ≤ 122) ∨ (48 ≤ c.toNat ∧ c.toNat ≤ 57) := by
      simp only [slugStart, Bool.or_eq_true, Bool.and_eq_true, decide_eq_true_eq] at hc
      exact hc
    refine ⟨⟨by omega, by omega⟩, ?_, ?_, ?_, ?_, ?_⟩ <;> rintro rfl <;> revert hrange <;> decide
  have hhyphen : Plain '-' := by
    unfold Plain Graphic
    decide
  unfold slugRe at h
  cases hs : s.toList with
  | nil => exact fun c hc => absurd hc List.not_mem_nil
  | cons d ds =>
      rw [hs] at h
      simp only [Bool.and_eq_true, List.all_eq_true, Bool.or_eq_true, beq_iff_eq] at h
      intro c hc
      rcases List.mem_cons.mp hc with rfl | hc
      · exact hstart _ h.1
      · rcases h.2 c hc with hd | rfl
        · exact hstart c hd
        · exact hhyphen

theorem format_plain (seconds : Nat) : ∀ c ∈ Calendar.format seconds, Plain c := by
  have hdigit : ∀ n, Plain (Calendar.digit n) := by
    intro n
    have hlt : n % 10 < 10 := Nat.mod_lt _ (by decide)
    unfold Calendar.digit
    generalize n % 10 = d at *
    unfold Plain Graphic
    interval_cases d <;> decide
  have hmarks : Plain '-' ∧ Plain 'T' ∧ Plain ':' ∧ Plain 'Z' := by
    unfold Plain Graphic
    decide
  unfold Calendar.format Calendar.dateTime Calendar.pad4 Calendar.pad2
  simp only [List.cons_append, List.nil_append, List.mem_cons, List.not_mem_nil, or_false,
    forall_eq_or_imp, forall_eq, hdigit, hmarks, and_self]

/-- The fields of a payload are plain and not long. -/
structure SseEventPayload.Modest (p : SseEventPayload) : Prop where
  type : (∀ c ∈ p.type.toList, Plain c) ∧ p.type.toList.length ≤ 128
  project : (∀ c ∈ p.project.toList, Plain c) ∧ p.project.toList.length ≤ 128
  environment : (∀ c ∈ p.environment.toList, Plain c) ∧ p.environment.toList.length ≤ 128
  flagKey : (∀ c ∈ p.flagKey.toList, Plain c) ∧ p.flagKey.toList.length ≤ 128
  occurredAt : (∀ c ∈ p.occurredAt.toList, Plain c) ∧ p.occurredAt.toList.length ≤ 128

theorem slug_modest (s : String) (h : IsSlug s) :
    (∀ c ∈ s.toList, Plain c) ∧ s.toList.length ≤ 128 := by
  refine ⟨slug_plain s h.1, ?_⟩
  rw [String.length_toList]
  exact h.2

theorem payloadOf_modest (e : FlagStateChangedEvent) (hproject : IsSlug e.project)
    (henvironment : IsSlug e.environment) (hkey : IsSlug e.flagKey) : (payloadOf e).Modest := by
  refine ⟨?_, slug_modest _ hproject, slug_modest _ henvironment, slug_modest _ hkey, ?_⟩
  · change (∀ c ∈ "flag.state_changed".toList, Plain c) ∧
      "flag.state_changed".toList.length ≤ 128
    exact ⟨List.all_iff_forall_prop.mp (by decide), by decide⟩
  · change (∀ c ∈ (String.ofList _).toList, Plain c) ∧ (String.ofList _).toList.length ≤ 128
    rw [String.toList_ofList, Calendar.format_length]
    exact ⟨format_plain _, by decide⟩

/-- A string of plain characters in quotes. -/
theorem jsonString_modest (s : String) (h : (∀ c ∈ s.toList, Plain c) ∧ s.toList.length ≤ 128) :
    (∀ c ∈ (jsonString s).toList, Graphic c) ∧ (jsonString s).toList.length ≤ 130 := by
  rw [jsonString_plain s h.1]
  refine ⟨fun c hc => ?_, ?_⟩
  · simp only [List.mem_cons, List.mem_append, List.not_mem_nil, or_false] at hc
    rcases hc with rfl | hc | rfl
    · unfold Graphic
      decide
    · exact (h.1 c hc).1
    · unfold Graphic
      decide
  · rw [List.length_cons, List.length_append, List.length_singleton]
    omega

/-- The JSON of a modest payload is printable text without spaces, and not
    long. -/
theorem marshalPayload_graphic (p : SseEventPayload) (hp : p.Modest) :
    (∀ c ∈ (marshalPayload p).toList, Graphic c) ∧ (marshalPayload p).toList ≠ [] ∧
      (marshalPayload p).toList.length ≤ 1000 := by
  have h1 := jsonString_modest _ hp.type
  have h2 := jsonString_modest _ hp.project
  have h3 := jsonString_modest _ hp.environment
  have h4 := jsonString_modest _ hp.flagKey
  have h5 := jsonString_modest _ hp.occurredAt
  have hbool : ∀ b : Bool, (∀ c ∈ (if b = true then "true" else "false").toList, Graphic c) ∧
      (if b = true then "true" else "false").toList.length ≤ 5 := by
    intro b
    cases b with
    | true => exact ⟨List.all_iff_forall_prop.mp (by decide), by decide⟩
    | false => exact ⟨List.all_iff_forall_prop.mp (by decide), by decide⟩
  have h6 := hbool p.enabled
  -- The texts between the fields.
  have hmarks : (∀ c ∈ "\x7b\"type\":".toList, Graphic c) ∧
      (∀ c ∈ ",\"project\":".toList, Graphic c) ∧
      (∀ c ∈ ",\"environment\":".toList, Graphic c) ∧ (∀ c ∈ ",\"flag_key\":".toList, Graphic c) ∧
      (∀ c ∈ ",\"enabled\":".toList, Graphic c) ∧ (∀ c ∈ ",\"occurred_at\":".toList, Graphic c) ∧
      ∀ c ∈ "\x7d".toList, Graphic c := by
    simp only [← List.all_iff_forall_prop]
    decide
  have hlengths : "\x7b\"type\":".toList.length = 8 ∧ ",\"project\":".toList.length = 11 ∧
      ",\"environment\":".toList.length = 15 ∧ ",\"flag_key\":".toList.length = 12 ∧
      ",\"enabled\":".toList.length = 11 ∧ ",\"occurred_at\":".toList.length = 15 ∧
      "\x7d".toList.length = 1 := by decide
  unfold marshalPayload
  simp only [String.toList_append]
  refine ⟨?_, ?_, ?_⟩
  · simp only [List.mem_append, or_imp, forall_and]
    exact ⟨⟨⟨⟨⟨⟨⟨⟨⟨⟨⟨⟨hmarks.1, h1.1⟩, hmarks.2.1⟩, h2.1⟩, hmarks.2.2.1⟩, h3.1⟩, hmarks.2.2.2.1⟩,
      h4.1⟩,
      hmarks.2.2.2.2.1⟩, h6.1⟩, hmarks.2.2.2.2.2.1⟩, h5.1⟩, hmarks.2.2.2.2.2.2⟩
  · exact List.append_ne_nil_of_right_ne_nil _ (by decide)
  · simp only [List.length_append, hlengths]
    omega

/-! ## Frames -/

/-- The text of a list of writes. -/
def wireText (wire : List Wire) : List Char :=
  wire.flatMap (fun call => match call with
    | .write text => text.toList
    | _ => [])

/-- What the loop of a stream writes, frame by frame: nothing stands for a
    comment, an event for its line. -/
def streamFrames (projSlug envSlug : String) (inputs : List StreamInput) :
    List (Option FlagStateChangedEvent) :=
  match inputs with
  | [] => []
  | .done :: _ => []
  | .closed :: _ => []
  | .tick :: rest => none :: streamFrames projSlug envSlug rest
  | .event e :: rest =>
      if e.project ≠ projSlug ∨ e.environment ≠ envSlug then streamFrames projSlug envSlug rest
      else some e :: streamFrames projSlug envSlug rest

/-- A frame without the blank line that ends it. -/
def frameBody : Option FlagStateChangedEvent → List Char
  | none => ": keep-alive".toList
  | some e => "data: ".toList ++ (marshalPayload (payloadOf e)).toList

/-- The events of the client's project and environment. -/
def ownEvents (projSlug envSlug : String) (inputs : List StreamInput) :
    List FlagStateChangedEvent :=
  (receivedEvents inputs).filter (fun e => e.project = projSlug ∧ e.environment = envSlug)

/-- The text the server writes is the text of its frames. -/
theorem wireText_eq (projSlug envSlug : String) (inputs : List StreamInput) :
    wireText (SSEHandler.loopWire rfc3339 marshalPayload projSlug envSlug inputs) =
      (streamFrames projSlug envSlug inputs).flatMap (fun f => frameBody f ++ ['\n', '\n']) := by
  induction inputs with
  | nil => rfl
  | cons input rest ih =>
      cases input with
      | done => rfl
      | closed => rfl
      | tick =>
          rw [SSEHandler.loopWire, streamFrames, List.flatMap_cons, ← ih]
          rfl
      | event e =>
          rw [SSEHandler.loopWire, streamFrames, SSEHandler.handleEvent]
          -- An event of another path writes nothing, an own one writes its data line.
          by_cases hforeign : e.project ≠ projSlug ∨ e.environment ≠ envSlug
          · rw [if_pos hforeign, if_pos hforeign, List.nil_append, ih]
          · have hline : (dataLine rfc3339 marshalPayload e).toList =
                frameBody (some e) ++ ['\n', '\n'] := by
              unfold dataLine frameBody payloadOf
              rw [String.toList_append, String.toList_append]
              rfl
            rw [if_neg hforeign, if_neg hforeign, List.flatMap_cons, ← ih, ← hline]
            rfl

/-- The events among the frames are those of the client. -/
theorem streamFrames_events (projSlug envSlug : String) (inputs : List StreamInput) :
    (streamFrames projSlug envSlug inputs).filterMap (fun f => f) =
      ownEvents projSlug envSlug inputs := by
  unfold ownEvents
  induction inputs with
  | nil => rfl
  | cons input rest ih =>
      cases input with
      | done => rfl
      | closed => rfl
      | tick => exact ih
      | event e =>
          rw [streamFrames, receivedEvents, List.filter_cons]
          by_cases hown : e.project = projSlug ∧ e.environment = envSlug
          · have hkept : ¬ (e.project ≠ projSlug ∨ e.environment ≠ envSlug) := by
              rintro (hne | hne)
              · exact hne hown.1
              · exact hne hown.2
            rw [if_neg hkept, if_pos (decide_eq_true hown), List.filterMap_cons, ih]
          · have hdropped : e.project ≠ projSlug ∨ e.environment ≠ envSlug := by
              by_contra hboth
              simp only [ne_eq, not_or, not_not] at hboth
              exact hown hboth
            rw [if_pos hdropped, if_neg (by simpa using hown), ih]

/-- A character of a frame is printable or a space. -/
def Printable (c : Char) : Prop := 32 ≤ c.toNat ∧ c.toNat ≤ 126

instance (c : Char) : Decidable (Printable c) :=
  inferInstanceAs (Decidable (32 ≤ c.toNat ∧ c.toNat ≤ 126))

/-- What the proofs below need to know of an event: its line is printable text
    without spaces, and not long. -/
structure Tame (e : FlagStateChangedEvent) : Prop where
  graphic : ∀ c ∈ (marshalPayload (payloadOf e)).toList, Graphic c
  nonempty : (marshalPayload (payloadOf e)).toList ≠ []
  short : (marshalPayload (payloadOf e)).toList.length ≤ 1000

theorem frameBody_printable (f : Option FlagStateChangedEvent) (hf : ∀ e, f = some e → Tame e) :
    ∀ c ∈ frameBody f, Printable c := by
  cases f with
  | none =>
      unfold frameBody
      exact List.all_iff_forall_prop.mp (by decide)
  | some e =>
      intro c hc
      rcases List.mem_append.mp hc with hc | hc
      · have hmark : ∀ c ∈ "data: ".toList, Printable c := List.all_iff_forall_prop.mp (by decide)
        exact hmark c hc
      · have hgraphic := (hf e rfl).graphic c hc
        exact ⟨by have := hgraphic.1; omega, hgraphic.2⟩

/-- Printable text has no character of a lower code. -/
theorem Printable.ne_of_lt (c d : Char) (hc : Printable c) (hd : d.toNat < 32) : c ≠ d := by
  rintro rfl
  exact absurd hc.1 (by omega)

/-! ## What a line carries -/

theorem trimWith_space (space : Char → Bool) (text : List Char) (hspace : space ' ' = true)
    (htext : ∀ c ∈ text, space c = false) : Sdk.trimWith space (' ' :: text) = text := by
  have hkeep : ∀ l : List Char, (∀ c ∈ l, space c = false) → l.dropWhile space = l := by
    intro l hl
    cases l with
    | nil => rfl
    | cons c l => exact List.dropWhile_cons_of_neg (by rw [hl c List.mem_cons_self]; decide)
  unfold Sdk.trimWith
  rw [List.dropWhile_cons_of_pos hspace, hkeep text htext,
    hkeep text.reverse (fun c hc => htext c (List.mem_reverse.mp hc)), List.reverse_reverse]

/-- The line of an event carries its JSON. -/
theorem dataText_event (space : Char → Bool) (blank : List Char → Bool)
    (e : FlagStateChangedEvent) (he : Tame e) (hspace : space ' ' = true)
    (hgraphic : ∀ c, Graphic c → space c = false) (hblank : blank (frameBody (some e)) = false) :
    Sdk.dataText space blank (frameBody (some e)) =
      some (marshalPayload (payloadOf e)).toList := by
  have htrim : Sdk.trimWith space ((frameBody (some e)).drop 5) =
      (marshalPayload (payloadOf e)).toList :=
    trimWith_space space _ hspace (fun c hc => hgraphic c (he.graphic c hc))
  have hprefix : "data:".toList.isPrefixOf (frameBody (some e)) = true := rfl
  have hhead : ¬ (frameBody (some e)).head? = some ':' := by
    change ¬ some 'd' = some ':'
    decide
  unfold Sdk.dataText
  rw [if_neg (not_or.mpr ⟨hhead, by rw [hblank]; decide⟩), if_pos hprefix, htrim,
    if_neg he.nonempty]

/-- A comment carries nothing, and neither does a line that counts as blank. -/
theorem dataText_comment (space : Char → Bool) (blank : List Char → Bool) :
    Sdk.dataText space blank (frameBody none) = none := if_pos (.inl rfl)

theorem dataText_blank (space : Char → Bool) (blank : List Char → Bool) (h : blank [] = true) :
    Sdk.dataText space blank [] = none := if_pos (.inr h)

/-- The line of an event is not blank. -/
theorem trimWith_event (space : Char → Bool) (hgraphic : ∀ c, Graphic c → space c = false)
    (e : FlagStateChangedEvent) : (Sdk.trimWith space (frameBody (some e)) == []) = false := by
  have hd : space 'd' = false := hgraphic 'd' (by unfold Graphic; decide)
  have hbody : ∃ rest, frameBody (some e) = 'd' :: rest := ⟨_, rfl⟩
  rcases hbody with ⟨rest, hbody⟩
  rw [beq_eq_false_iff_ne, hbody]
  unfold Sdk.trimWith
  rw [List.dropWhile_cons_of_neg (by rw [hd]; decide), ne_eq, List.reverse_eq_nil_iff,
    List.dropWhile_eq_nil_iff]
  intro hall
  have hin : 'd' ∈ ('d' :: rest).reverse := List.mem_reverse.mpr List.mem_cons_self
  exact absurd (hall 'd' hin) (by rw [hd]; decide)

/-- No reader drops a graphic character. -/
theorem isSpace_graphic (c : Char) (h : Graphic c) :
    Sdk.Js.isSpace c = false ∧ Sdk.Go.isSpace c = false ∧ Sdk.Python.isSpace c = false := by
  rcases h with ⟨hlow, hhigh⟩
  simp only [Sdk.Js.isSpace, Sdk.Go.isSpace, Sdk.Python.isSpace, Sdk.isWideSpace,
    Bool.or_eq_false_iff,
    Bool.and_eq_false_iff, decide_eq_false_iff_not, beq_eq_false_iff_ne]
  omega

/-! ## Decoding -/

/-- The fields of a payload are found in its JSON value. -/
theorem Sdk.Js.safeParse_object (p : SseEventPayload) (h : p.type = Sdk.sseEventType) :
    Sdk.Js.safeParse p.object =
      some ⟨p.type, p.project, p.environment, p.flagKey, p.enabled, p.occurredAt⟩ := by
  simp [Sdk.Js.safeParse, SseEventPayload.object, Sdk.field, Feed.latest, h]

theorem Sdk.Go.unmarshal_object (p : SseEventPayload) :
    Sdk.Go.unmarshal p.object =
      some ⟨p.type, p.project, p.environment, p.flagKey, p.enabled, p.occurredAt⟩ := by
  unfold Sdk.Go.unmarshal SseEventPayload.object Json.decodeRecord
  simp only [List.foldlM_cons, List.foldlM_nil]
  rfl

theorem Sdk.Go.processLine_object (parse : String → Option Json) (key : String)
    (line raw : List Char) (p : SseEventPayload) (time : Int) (h : p.type = Sdk.sseEventType)
    (hline : Sdk.dataText Sdk.Go.isSpace (fun line => line == []) line = some raw)
    (hparse : parse (String.ofList raw) = some p.object)
    (htime : Calendar.parse p.occurredAt.toList = some time) :
    Sdk.Go.processLine parse key line =
      if p.flagKey = key then [.update p.flagKey p.enabled (some time)] else [] := by
  unfold Sdk.Go.processLine
  rw [hline]
  dsimp only
  rw [hparse, Option.bind_some, Sdk.Go.unmarshal_object]
  dsimp only
  rw [if_neg (not_not_intro h), htime, ite_not]

theorem Sdk.Python.handleDataLine_object (parse : String → Option Json) (raw : List Char)
    (p : SseEventPayload) (h : p.type = Sdk.sseEventType)
    (hparse : parse (String.ofList raw) = some p.object) :
    Sdk.Python.handleDataLine parse raw = [.change ⟨.str p.type, .str p.project,
      .str p.environment, .str p.flagKey, p.enabled, .str p.occurredAt⟩] := by
  simp [Sdk.Python.handleDataLine, hparse, SseEventPayload.object, Sdk.field, Feed.latest, h,
    Sdk.Python.truthy]

/-! ## The readers -/

/-- The event as the JavaScript reader decodes it. -/
def wireEventOf (e : FlagStateChangedEvent) : Sdk.WireEvent :=
  ⟨Sdk.sseEventType, e.project, e.environment, e.flagKey, e.enabled, rfc3339 e.timestamp⟩

/-- The event as the Python reader decodes it. -/
def changeEventOf (e : FlagStateChangedEvent) : Sdk.Python.FlagChangeEvent :=
  ⟨.str Sdk.sseEventType, .str e.project, .str e.environment, .str e.flagKey, e.enabled,
    .str (rfc3339 e.timestamp)⟩

/-- A reader that is told nothing by comments is told what the events tell. -/
theorem flatMap_frames {β : Type} (frames : List (Option FlagStateChangedEvent))
    (read : Option FlagStateChangedEvent → List β) (told : FlagStateChangedEvent → List β)
    (hnone : read none = []) (hsome : ∀ e, some e ∈ frames → read (some e) = told e) :
    frames.flatMap read = (frames.filterMap (fun f => f)).flatMap told := by
  induction frames with
  | nil => rfl
  | cons f frames ih =>
      rw [List.flatMap_cons, ih (fun e he => hsome e (List.mem_cons_of_mem _ he))]
      cases f with
      | none => rw [hnone, List.nil_append, List.filterMap_cons]
      | some e =>
          rw [hsome e List.mem_cons_self, List.filterMap_cons, List.flatMap_cons]

/-- Printable text followed by a blank line is one block. -/
theorem Sdk.Js.cutBlock_body (body y : List Char) (h : ∀ c ∈ body, Printable c) :
    Sdk.Js.cutBlock (body ++ ['\n', '\n'] ++ y) = some (body, y) := by
  induction body with
  | nil => rfl
  | cons a body ih =>
      have ha : a ≠ '\n' := (h a List.mem_cons_self).ne_of_lt _ _ (by decide)
      specialize ih (fun c hc => h c (List.mem_cons_of_mem _ hc))
      cases hrest : body ++ ['\n', '\n'] ++ y with
      | nil => exact absurd hrest (by simp)
      | cons b rest =>
          rw [List.cons_append, List.cons_append, hrest, Sdk.Js.cutBlock,
            if_neg (fun hboth => ha hboth.1), ← hrest, ih]
          rfl

/-- Printable text followed by a line feed is one line. -/
theorem Sdk.Go.cutLine_body (body y : List Char) (h : ∀ c ∈ body, Printable c) :
    Sdk.Go.cutLine (body ++ ['\n'] ++ y) = some (body, y) := by
  induction body with
  | nil => rfl
  | cons a body ih =>
      have ha : a ≠ '\n' := (h a List.mem_cons_self).ne_of_lt _ _ (by decide)
      rw [List.cons_append, List.cons_append, Sdk.Go.cutLine, if_neg ha,
        ih (fun c hc => h c (List.mem_cons_of_mem _ hc))]
      rfl

theorem Sdk.Python.splitlines_body (body rest : List Char) (h : ∀ c ∈ body, Printable c) :
    Sdk.Python.splitlines (body ++ '\n' :: rest) = body :: Sdk.Python.splitlines rest := by
  induction body with
  | nil =>
      rw [List.nil_append, Sdk.Python.splitlines, if_pos (by decide)]
      exact fun _ hne => absurd hne (by decide)
  | cons a body ih =>
      have ha : Printable a := h a List.mem_cons_self
      have hinner : Sdk.Python.isLineBoundary a = false := by
        rcases ha with ⟨hlow, hhigh⟩
        simp only [Sdk.Python.isLineBoundary, Bool.or_eq_false_iff, Bool.and_eq_false_iff,
          decide_eq_false_iff_not, beq_eq_false_iff_ne]
        omega
      rw [List.cons_append, Sdk.Python.splitlines, if_neg (by rw [hinner]; decide),
        ih (fun c hc => h c (List.mem_cons_of_mem _ hc))]
      rintro _ rfl
      exact absurd rfl (ha.ne_of_lt _ '\r' (by decide))

/-- The lines of the frames: each is followed by a blank one. -/
def frameLines (frames : List (Option FlagStateChangedEvent)) : List (List Char) :=
  frames.flatMap (fun f => [frameBody f, []])

theorem frameLines_printable (frames : List (Option FlagStateChangedEvent))
    (htame : ∀ e, some e ∈ frames → Tame e) :
    ∀ line ∈ frameLines frames, ∀ c ∈ line, Printable c := by
  intro line hline
  rcases List.mem_flatMap.mp hline with ⟨f, hf, hin⟩
  rcases List.mem_cons.mp hin with rfl | hin
  · exact frameBody_printable f (fun e he => htame e (he ▸ hf))
  · rw [List.mem_singleton.mp hin]
    exact fun c hc => absurd hc List.not_mem_nil

theorem frames_lines (frames : List (Option FlagStateChangedEvent)) :
    frames.flatMap (fun f => frameBody f ++ ['\n', '\n']) =
      (frameLines frames).flatMap (fun line => line ++ ['\n']) := by
  unfold frameLines
  rw [List.flatMap_assoc]
  simp only [List.flatMap_cons, List.flatMap_nil, List.append_nil, List.nil_append,
    List.append_assoc, List.cons_append]

/-- A line of the frames fits the scanner. -/
theorem frameLines_fits (frames : List (Option FlagStateChangedEvent))
    (htame : ∀ e, some e ∈ frames → Tame e) :
    ∀ line ∈ frameLines frames, (line.map Char.utf8Size).sum < Sdk.Go.maxScanTokenSize := by
  -- A character takes four bytes at most, and no line has more than 1012 of them.
  have hsum : ∀ line : List Char, (line.map Char.utf8Size).sum ≤ line.length * 4 := by
    intro line
    induction line with
    | nil => exact Nat.le_refl 0
    | cons c line ih =>
        have hc : c.utf8Size ≤ 4 := Char.utf8Size_le_four c
        rw [List.map_cons, List.sum_cons, List.length_cons]
        omega
  have hshort : ∀ line ∈ frameLines frames, line.length ≤ 1012 := by
    intro line hline
    rcases List.mem_flatMap.mp hline with ⟨f, hf, hin⟩
    rcases List.mem_cons.mp hin with rfl | hin
    · cases f with
      | none =>
          have hcomment : (frameBody none).length = 12 := rfl
          omega
      | some e =>
          have hjson := (htame e hf).short
          have hlength : (frameBody (some e)).length =
              "data: ".toList.length + (marshalPayload (payloadOf e)).toList.length :=
            List.length_append
          have hmark : "data: ".toList.length = 6 := rfl
          omega
    · rw [List.mem_singleton.mp hin]
      exact Nat.zero_le _
  intro line hline
  calc (line.map Char.utf8Size).sum
      ≤ line.length * 4 := hsum line
    _ ≤ 1012 * 4 := Nat.mul_le_mul_right 4 (hshort line hline)
    _ < Sdk.Go.maxScanTokenSize := by decide

theorem Sdk.Go.dropCR_printable (line : List Char) (h : ∀ c ∈ line, Printable c) :
    Sdk.Go.dropCR line = line := by
  refine if_neg (fun hlast => ?_)
  exact absurd rfl ((h '\r' (List.mem_of_getLast? hlast)).ne_of_lt _ '\r' (by decide))

section Readers

variable (parse : String → Option Json) (frames : List (Option FlagStateChangedEvent))
  (htame : ∀ e, some e ∈ frames → Tame e)
  (hparse : ∀ e, some e ∈ frames →
    parse (marshalPayload (payloadOf e)) = some (payloadOf e).object)
  (chunks : List (List Char))
  (hchunks : chunks.flatten = frames.flatMap (fun f => frameBody f ++ ['\n', '\n']))

include htame hparse hchunks

/-- The JavaScript reader is told of the events, each once and in order. -/
theorem Sdk.Js.reads : Sdk.Js.readSSEStream parse chunks =
    (frames.filterMap (fun f => f)).flatMap (fun e => [.flagChange (wireEventOf e)]) := by
  have hframes : (Sdk.Js.blocks.read [] chunks).1 = frames.map frameBody := by
    rw [Sdk.Js.blocks.read_eq [] chunks rfl, List.nil_append, hchunks,
      Sdk.Js.blocks.frames_encoded (fun f => frameBody f ++ ['\n', '\n']) frameBody frames]
    intro f hf y
    exact Sdk.Js.cutBlock_body _ y (frameBody_printable f (fun e he => htame e (he ▸ hf)))
  -- A block has one line only.
  have hblock : ∀ f, (∀ e, f = some e → Tame e) → Sdk.Js.processSSEBlock parse (frameBody f) =
      Sdk.Js.processLine parse (frameBody f) := by
    intro f hf
    have hprintable := frameBody_printable f hf
    unfold Sdk.Js.processSSEBlock
    rw [List.splitOn_eq_singleton_of_beq_eq_false (fun c hc =>
      beq_eq_false_iff_ne.mpr ((hprintable c hc).ne_of_lt _ _ (by decide))), List.flatMap_singleton]
  unfold Sdk.Js.readSSEStream
  rw [hframes, List.flatMap_map]
  refine flatMap_frames frames _ _ ?_ (fun e he => ?_)
  · rw [hblock none (fun _ h => (nomatch h)), Sdk.Js.processLine, dataText_comment]
  · rw [hblock (some e) (fun d hd => Option.some.inj hd ▸ htame e he), Sdk.Js.processLine,
      dataText_event Sdk.Js.isSpace (fun line => Sdk.trimWith Sdk.Js.isSpace line == []) e
        (htame e he) rfl (fun c hc => (isSpace_graphic c hc).1)
        (trimWith_event _ (fun c hc => (isSpace_graphic c hc).1) e)]
    dsimp only
    rw [String.ofList_toList, hparse e he]
    dsimp only
    rw [Sdk.Js.safeParse_object _ rfl]
    rfl

/-- The Python reader is told the same, where the iteration over the lines of
    a response finds the lines of its text. -/
theorem Sdk.Python.reads (iterLines : List (List Char) → List (List Char))
    (hiter : iterLines chunks = Sdk.Python.splitlines chunks.flatten) :
    Sdk.Python.readSse parse iterLines chunks =
      (frames.filterMap (fun f => f)).flatMap (fun e => [.change (changeEventOf e)]) := by
  -- No printable character ends a line, so the lines read are the lines written.
  have hlines : ∀ lines : List (List Char), (∀ line ∈ lines, ∀ c ∈ line, Printable c) →
      Sdk.Python.splitlines (lines.flatMap (fun line => line ++ ['\n'])) = lines := by
    intro lines
    induction lines with
    | nil => exact fun _ => Sdk.Python.splitlines.eq_1
    | cons line lines ih =>
        intro h
        rw [List.flatMap_cons, List.append_assoc, List.singleton_append,
          Sdk.Python.splitlines_body line _ (h line List.mem_cons_self),
          ih (fun other hin => h other (List.mem_cons_of_mem _ hin))]
  unfold Sdk.Python.readSse
  rw [hiter, hchunks, frames_lines, hlines _ (frameLines_printable frames htame), frameLines,
    List.flatMap_assoc]
  have hblank : Sdk.Python.processLine parse [] = [] := by
    unfold Sdk.Python.processLine
    rw [dataText_blank _ _ rfl]
  refine flatMap_frames frames _ _ ?_ (fun e he => ?_)
  · rw [List.flatMap_cons, List.flatMap_singleton, hblank, Sdk.Python.processLine,
      dataText_comment]
    rfl
  · rw [List.flatMap_cons, List.flatMap_singleton, hblank, Sdk.Python.processLine,
      dataText_event Sdk.Python.isSpace (fun line => Sdk.trimWith Sdk.Python.isSpace line == []) e
        (htame e he) rfl (fun c hc => (isSpace_graphic c hc).2.2)
        (trimWith_event _ (fun c hc => (isSpace_graphic c hc).2.2) e)]
    dsimp only
    rw [Sdk.Python.handleDataLine_object parse _ (payloadOf e) rfl
      (by rw [String.ofList_toList]; exact hparse e he)]
    rfl

/-- The Go reader is told of the events of the flag it subscribed to, where the
    times are of years of four digits. -/
theorem Sdk.Go.reads (key : String)
    (hclock : ∀ e, some e ∈ frames → yearOf e.timestamp < 10000) :
    Sdk.Go.attemptStream parse key chunks =
      (frames.filterMap (fun f => f)).flatMap (fun e => if e.flagKey = key then
        [.update e.flagKey e.enabled (some (fullSecond e.timestamp))] else []) := by
  have hprintable := frameLines_printable frames htame
  -- However the text is cut into chunks, the scanner finds the lines written.
  have hread : Sdk.Go.lines.read [] chunks = (frameLines frames, []) := by
    rw [Sdk.Go.lines.read_eq [] chunks rfl, List.nil_append, hchunks, frames_lines,
      Sdk.Go.lines.frames_encoded (fun line => line ++ ['\n']) (fun line => line),
      List.map_id']
    exact fun line hline y => Sdk.Go.cutLine_body line y (hprintable line hline)
  -- None is too long for its buffer, and none ends in a carriage return.
  have hscan : Sdk.Go.scan chunks = frameLines frames := by
    unfold Sdk.Go.scan
    rw [hread]
    dsimp only
    rw [if_pos rfl, List.append_nil, List.takeWhile_eq_self_iff.mpr
      (fun line hline => decide_eq_true (frameLines_fits frames htame line hline))]
    rw [List.map_congr_left
      (fun line hline => Sdk.Go.dropCR_printable line (hprintable line hline)), List.map_id']
  have hblank : Sdk.Go.processLine parse key [] = [] := by
    unfold Sdk.Go.processLine
    rw [dataText_blank _ _ rfl]
  unfold Sdk.Go.attemptStream
  rw [hscan, frameLines, List.flatMap_assoc]
  refine flatMap_frames frames _ _ ?_ (fun e he => ?_)
  · rw [List.flatMap_cons, List.flatMap_singleton, hblank, Sdk.Go.processLine, dataText_comment]
    rfl
  · have hline := dataText_event Sdk.Go.isSpace (fun line => line == []) e (htame e he) rfl
      (fun c hc => (isSpace_graphic c hc).2.1) rfl
    rw [List.flatMap_cons, List.flatMap_singleton, hblank, List.append_nil,
      Sdk.Go.processLine_object parse key _ _ (payloadOf e) (fullSecond e.timestamp) rfl hline
        (by rw [String.ofList_toList]; exact hparse e he) (parse_rfc3339 _ (hclock e he))]
    rfl

end Readers

/-! ## The round trip -/

/-- The frames with an event are those of the client's events. -/
theorem mem_streamFrames (projSlug envSlug : String) (inputs : List StreamInput)
    (e : FlagStateChangedEvent) :
    some e ∈ streamFrames projSlug envSlug inputs ↔ e ∈ ownEvents projSlug envSlug inputs := by
  rw [← streamFrames_events, List.mem_filterMap]
  exact ⟨fun h => ⟨some e, h, rfl⟩, fun ⟨_, hf, heq⟩ => heq ▸ hf⟩

/-- However the text of a stream is cut into chunks, the three readers deliver
    the events of the client's project and environment, each once and in order,
    with the flag key, the state and the second of the event, and they report
    no error. The Go reader does so for the flag it subscribed to. -/
theorem wire_round_trip (jsParse goParse pyParse : String → Option Json)
    (iterLines : List (List Char) → List (List Char))
    (hiter : ∀ chunks, iterLines chunks = Sdk.Python.splitlines chunks.flatten)
    (projSlug envSlug : String) (inputs : List StreamInput)
    (hslugs : ∀ e ∈ ownEvents projSlug envSlug inputs,
      IsSlug e.project ∧ IsSlug e.environment ∧ IsSlug e.flagKey)
    (hclock : ∀ e ∈ ownEvents projSlug envSlug inputs, yearOf e.timestamp < 10000)
    (hparse : ∀ parse ∈ [jsParse, goParse, pyParse],
      ∀ e ∈ ownEvents projSlug envSlug inputs,
        parse (marshalPayload (payloadOf e)) = some (payloadOf e).object)
    (chunks : List (List Char))
    (hchunks : chunks.flatten =
      wireText (SSEHandler.loopWire rfc3339 marshalPayload projSlug envSlug inputs)) :
    Sdk.Js.readSSEStream jsParse chunks =
        (ownEvents projSlug envSlug inputs).map (fun e => .flagChange (wireEventOf e)) ∧
      Sdk.Python.readSse pyParse iterLines chunks =
        (ownEvents projSlug envSlug inputs).map (fun e => .change (changeEventOf e)) ∧
      (∀ key, Sdk.Go.attemptStream goParse key chunks =
        ((ownEvents projSlug envSlug inputs).filter (fun e => e.flagKey = key)).map
          (fun e => .update e.flagKey e.enabled (some (fullSecond e.timestamp)))) ∧
      ∀ e ∈ ownEvents projSlug envSlug inputs,
        Calendar.parse (rfc3339 e.timestamp).toList = some (fullSecond e.timestamp) := by
  rw [wireText_eq] at hchunks
  -- Slugs keep the payload to plain characters, and short.
  have htame : ∀ e, some e ∈ streamFrames projSlug envSlug inputs → Tame e := by
    intro e he
    rcases hslugs e ((mem_streamFrames _ _ _ e).mp he) with ⟨hproject, henvironment, hkey⟩
    rcases marshalPayload_graphic _ (payloadOf_modest e hproject henvironment hkey) with
      ⟨hgraphic, hnonempty, hshort⟩
    exact ⟨hgraphic, hnonempty, hshort⟩
  have hdecode : ∀ parse ∈ [jsParse, goParse, pyParse],
      ∀ e, some e ∈ streamFrames projSlug envSlug inputs →
        parse (marshalPayload (payloadOf e)) = some (payloadOf e).object :=
    fun parse hp e he => hparse parse hp e ((mem_streamFrames _ _ _ e).mp he)
  refine ⟨?_, ?_, fun key => ?_, fun e he => parse_rfc3339 _ (hclock e he)⟩
  · rw [Sdk.Js.reads jsParse _ htame (hdecode jsParse (by simp)) chunks hchunks,
      streamFrames_events, List.map_eq_flatMap]
  · rw [Sdk.Python.reads pyParse _ htame (hdecode pyParse (by simp)) chunks hchunks iterLines
      (hiter chunks), streamFrames_events, List.map_eq_flatMap]
  · rw [Sdk.Go.reads goParse _ htame (hdecode goParse (by simp)) chunks hchunks key
      (fun e he => hclock e ((mem_streamFrames _ _ _ e).mp he)), streamFrames_events]
    -- The Go client keeps the events of one key and drops the rest.
    clear hchunks hslugs hclock hparse htame hdecode
    induction ownEvents projSlug envSlug inputs with
    | nil => rfl
    | cons e events ih =>
        rw [List.flatMap_cons, ih, List.filter_cons]
        by_cases hkey : e.flagKey = key
        · rw [if_pos hkey, if_pos (decide_eq_true hkey), List.map_cons, List.singleton_append]
        · rw [if_neg hkey, if_neg (by simpa using hkey), List.nil_append]

/-- A comment, an event of the client, and one of another environment. -/
def sampleEvent : FlagStateChangedEvent :=
  ⟨"demo", "prod", "checkout", true, 1700000000123456789⟩

def sampleInputs : List StreamInput :=
  [.tick, .event sampleEvent, .event { sampleEvent with environment := "dev" }]

def sampleText : List Char :=
  wireText (SSEHandler.loopWire rfc3339 marshalPayload "demo" "prod" sampleInputs)

def sampleParse (text : String) : Option Json :=
  if text = marshalPayload (payloadOf sampleEvent) then some (payloadOf sampleEvent).object
  else none

/-- The text cut inside the comment. -/
theorem wire_round_trip_cut :
    Sdk.Js.readSSEStream sampleParse [sampleText.take 3, sampleText.drop 3] =
        [.flagChange (wireEventOf sampleEvent)] ∧
      Sdk.Python.readSse sampleParse (fun chunks => Sdk.Python.splitlines chunks.flatten)
        [sampleText.take 3, sampleText.drop 3] = [.change (changeEventOf sampleEvent)] ∧
      Sdk.Go.attemptStream sampleParse "checkout" [sampleText.take 3, sampleText.drop 3] =
        [.update "checkout" true (some 1700000000000000000)] := by
  have hown : ownEvents "demo" "prod" sampleInputs = [sampleEvent] := by decide
  have hslugs : IsSlug sampleEvent.project ∧ IsSlug sampleEvent.environment ∧
      IsSlug sampleEvent.flagKey := by
    unfold IsSlug
    decide
  have hyear : yearOf sampleEvent.timestamp < 10000 := by decide
  have hround := wire_round_trip sampleParse sampleParse sampleParse
    (fun chunks => Sdk.Python.splitlines chunks.flatten) (fun _ => rfl) "demo" "prod" sampleInputs
    (by rw [hown]; simpa using hslugs) (by rw [hown]; simpa using hyear)
    (by rw [hown]; simp [sampleParse]) [sampleText.take 3, sampleText.drop 3]
    (by simp [sampleText])
  rw [hown] at hround
  exact ⟨hround.1, hround.2.1, hround.2.2.1 "checkout"⟩

end Cuttlegate
