import Cuttlegate.Theory.WireRoundTrip

/-!
# Streams that Break Off

A connection can end at any character of what the server writes, and the three
client libraries then read the beginning of a text.

The beginning has some whole frames and a beginning of the next one
(`flatMap_prefix`). The JavaScript reader waits for the end of a frame and
drops what is left. The other two take the rest for a line: it is nothing, or
it is the whole line of the next frame, or its JSON is cut short, which is
an error. None of them makes an event of less than a whole line.

That a decoder refuses JSON that is cut short is assumed, as is that it is the
inverse of the encoding.

## Main definitions

* `Sdk.Go.linesOf`: The lines that the Go scanner makes of a text.
* `Partly`: What is told of the beginning of a frame.
* `Decodes`: What is assumed of a decoder.

## Theorems

* `cut_found`: What the readers find in the beginning of a text.
* `dataText_comment_begin`, `dataText_event_begin`: What the beginning of a
  line carries.
* `flatMap_cut`: What a reader of lines is told.
* `Sdk.Js.reads_cut`, `Sdk.Python.reads_cut`, `Sdk.Go.reads_cut`: What each
  reader makes of whole frames and a rest.
* `broken_stream`: The three readers.
-/

namespace Cuttlegate

/-! ## What is left at the end -/

/-- Printable text is no block, and with a line feed after it neither. -/
theorem Sdk.Js.cutBlock_short (body r : List Char) (h : ∀ c ∈ body, Printable c)
    (hr : r <+: body ++ ['\n', '\n']) (hne : r ≠ body ++ ['\n', '\n']) :
    Sdk.Js.cutBlock r = none := by
  induction body generalizing r with
  | nil =>
      rcases r with _ | ⟨a, _ | ⟨b, r⟩⟩
      · rfl
      · rfl
      · -- Two characters of the separator are all of it.
        rw [List.nil_append, List.cons_prefix_cons, List.cons_prefix_cons,
          List.prefix_nil] at hr
        rcases hr with ⟨rfl, rfl, rfl⟩
        exact absurd rfl hne
  | cons c body ih =>
      rcases r with _ | ⟨a, _ | ⟨b, r⟩⟩
      · rfl
      · rfl
      · rw [List.cons_append, List.cons_prefix_cons] at hr
        rcases hr with ⟨rfl, hr⟩
        have ha : a ≠ '\n' := (h a List.mem_cons_self).ne_of_lt _ _ (by decide)
        rw [Sdk.Js.cutBlock, if_neg (fun hboth => ha hboth.1),
          ih (b :: r) (fun c hc => h c (List.mem_cons_of_mem _ hc)) hr
            (fun heq => hne (by rw [heq]; rfl))]
        rfl

theorem Sdk.Go.cutLine_short (r : List Char) (h : ∀ c ∈ r, Printable c) :
    Sdk.Go.cutLine r = none := by
  induction r with
  | nil => rfl
  | cons a r ih =>
      have ha : a ≠ '\n' := (h a List.mem_cons_self).ne_of_lt _ _ (by decide)
      rw [Sdk.Go.cutLine, if_neg ha, ih (fun c hc => h c (List.mem_cons_of_mem _ hc))]
      rfl

theorem Printable.inner (c : Char) (hc : Printable c) : Sdk.Python.isLineBoundary c = false := by
  rcases hc with ⟨hlow, hhigh⟩
  simp only [Sdk.Python.isLineBoundary, Bool.or_eq_false_iff, Bool.and_eq_false_iff,
    decide_eq_false_iff_not, beq_eq_false_iff_ne]
  omega

theorem Sdk.Python.splitlines_short (r : List Char) (h : ∀ c ∈ r, Printable c) (hne : r ≠ []) :
    Sdk.Python.splitlines r = [r] := by
  induction r with
  | nil => exact absurd rfl hne
  | cons a r ih =>
      have ha : Printable a := h a List.mem_cons_self
      have hinner : Sdk.Python.isLineBoundary a = false := Printable.inner a ha
      have hcr : a ≠ '\r' := ha.ne_of_lt _ _ (by decide)
      rw [Sdk.Python.splitlines, if_neg (by rw [hinner]; decide)]
      · by_cases hr : r = []
        · rw [hr, Sdk.Python.splitlines]
        · rw [ih (fun c hc => h c (List.mem_cons_of_mem _ hc)) hr]
      · exact fun _ heq _ => hcr heq

/-- The beginning of a line and its separator is the line with its line feed,
    or the beginning of the line. -/
theorem prefix_cases (body r : List Char) (hr : r <+: body ++ ['\n', '\n'])
    (hne : r ≠ body ++ ['\n', '\n']) : r = body ++ ['\n'] ∨ r <+: body := by
  rcases List.prefix_or_prefix_of_prefix hr (List.prefix_append body _) with h | ⟨s, rfl⟩
  · exact .inr h
  rw [List.prefix_append_right_inj] at hr
  rcases s with _ | ⟨a, _ | ⟨b, s⟩⟩
  · rw [List.append_nil]
    exact .inr List.prefix_rfl
  · rw [List.cons_prefix_cons] at hr
    rw [hr.1]
    exact .inl rfl
  · rw [List.cons_prefix_cons, List.cons_prefix_cons, List.prefix_nil] at hr
    rcases hr with ⟨rfl, rfl, rfl⟩
    exact absurd rfl hne

/-- Whole lines, and what comes after them. -/
theorem Sdk.Python.splitlines_lines (lines : List (List Char)) (rest : List Char)
    (h : ∀ line ∈ lines, ∀ c ∈ line, Printable c) :
    Sdk.Python.splitlines (lines.flatMap (fun line => line ++ ['\n']) ++ rest) =
      lines ++ Sdk.Python.splitlines rest := by
  induction lines with
  | nil => rfl
  | cons line lines ih =>
      rw [List.flatMap_cons, List.append_assoc, List.append_assoc, List.singleton_append,
        Sdk.Python.splitlines_body line _ (h line List.mem_cons_self),
        ih (fun other hin => h other (List.mem_cons_of_mem _ hin)), List.cons_append]

/-- The lines that the Go scanner makes of a text. -/
def Sdk.Go.linesOf (x : List Char) : List (List Char) :=
  (Sdk.Go.lines.frames x).1 ++
    if (Sdk.Go.lines.frames x).2 = [] then [] else [(Sdk.Go.lines.frames x).2]

/-- Wherever a stream breaks off, JavaScript finds the frames that are whole,
    and Go and Python find their lines and the beginning of one more. -/
theorem cut_found (frames : List (Option FlagStateChangedEvent))
    (htame : ∀ e, some e ∈ frames → Tame e) (x : List Char)
    (hx : x <+: frames.flatMap (fun f => frameBody f ++ ['\n', '\n'])) :
    ∃ (m : Nat) (tail : Option (List Char)),
      (∀ n, (frames.take n).flatMap (fun f => frameBody f ++ ['\n', '\n']) <+: x →
        (frames.take n).length ≤ m) ∧
      (∀ b, tail = some b → ∃ f, frames[m]? = some f ∧ b <+: frameBody f) ∧
      (Sdk.Js.blocks.frames x).1 = (frames.take m).map frameBody ∧
      Sdk.Go.linesOf x = frameLines (frames.take m) ++ tail.toList ∧
      Sdk.Python.splitlines x = frameLines (frames.take m) ++ tail.toList := by
  rcases flatMap_prefix _ frames x hx with ⟨m, r, rfl, hr, hend⟩
  have hsome : ∀ e, some e ∈ frames.take m → Tame e :=
    fun e he => htame e (List.mem_of_mem_take he)
  have hprintable := frameLines_printable (frames.take m) hsome
  have hblocks : Sdk.Js.blocks.frames ((frames.take m).flatMap
      (fun f => frameBody f ++ ['\n', '\n'])) = ((frames.take m).map frameBody, []) := by
    refine Sdk.Js.blocks.frames_encoded _ frameBody _ (fun f hf y => ?_)
    exact Sdk.Js.cutBlock_body _ y (frameBody_printable f (fun e he => hsome e (he ▸ hf)))
  have hlines : Sdk.Go.lines.frames ((frames.take m).flatMap
      (fun f => frameBody f ++ ['\n', '\n'])) = (frameLines (frames.take m), []) := by
    rw [frames_lines, Sdk.Go.lines.frames_encoded (fun line => line ++ ['\n'])
      (fun line => line), List.map_id']
    exact fun line hline y => Sdk.Go.cutLine_body line y (hprintable line hline)
  -- What is left after the whole frames decides the rest.
  have hjs : (Sdk.Js.blocks.frames ((frames.take m).flatMap
      (fun f => frameBody f ++ ['\n', '\n']) ++ r)).1 =
        (frames.take m).map frameBody ++ (Sdk.Js.blocks.frames r).1 := by
    rw [Sdk.Js.blocks.frames_append, hblocks, List.nil_append]
  have hgo : Sdk.Go.linesOf ((frames.take m).flatMap
      (fun f => frameBody f ++ ['\n', '\n']) ++ r) =
        frameLines (frames.take m) ++ Sdk.Go.linesOf r := by
    unfold Sdk.Go.linesOf
    rw [Sdk.Go.lines.frames_append, hlines, List.nil_append, List.append_assoc]
  have hpy : Sdk.Python.splitlines ((frames.take m).flatMap
      (fun f => frameBody f ++ ['\n', '\n']) ++ r) =
        frameLines (frames.take m) ++ Sdk.Python.splitlines r := by
    rw [frames_lines, Sdk.Python.splitlines_lines _ _ hprintable]
  have hwhole := fun n => flatMap_prefix_whole
    (fun f => frameBody f ++ ['\n', '\n']) frames m n r hr
  rw [hjs, hgo, hpy]
  by_cases hempty : r = []
  · rw [hempty]
    rw [hempty] at hwhole
    exact ⟨m, none, hwhole, fun b hb => (nomatch hb), by simp [Cutter.frames, Cutter.take], rfl,
      rfl⟩
  rcases Option.ne_none_iff_exists'.mp (fun h => hempty (hend h)) with ⟨f, hf⟩
  rcases hr f hf with ⟨hbegin, hnot⟩
  have hbody : ∀ c ∈ frameBody f, Printable c :=
    frameBody_printable f (fun e he => htame e (he ▸ List.mem_of_getElem? hf))
  have hnone : (Sdk.Js.blocks.frames r).1 = [] := by
    rw [Sdk.Js.blocks.frames_none r (Sdk.Js.cutBlock_short _ r hbody hbegin hnot)]
  rw [hnone, List.append_nil]
  rcases prefix_cases _ r hbegin hnot with rfl | hshort
  · -- The line is whole, and only the empty one after it is missing.
    refine ⟨m, some (frameBody f), hwhole,
      fun b hb => ⟨f, hf, Option.some.inj hb ▸ List.prefix_rfl⟩, rfl, ?_, ?_⟩
    · unfold Sdk.Go.linesOf
      have hcut := Sdk.Go.cutLine_body (frameBody f) [] hbody
      rw [List.append_nil] at hcut
      rw [Sdk.Go.lines.frames_some _ _ _ hcut, Sdk.Go.lines.frames_none [] rfl]
      rfl
    · rw [Sdk.Python.splitlines_body (frameBody f) [] hbody, Sdk.Python.splitlines]
      rfl
  · have hprint : ∀ c ∈ r, Printable c := fun c hc => hbody c (hshort.subset hc)
    refine ⟨m, some r, hwhole, fun b hb => ⟨f, hf, Option.some.inj hb ▸ hshort⟩, rfl, ?_, ?_⟩
    · unfold Sdk.Go.linesOf
      rw [Sdk.Go.lines.frames_none r (Sdk.Go.cutLine_short r hprint), if_neg hempty]
      rfl
    · rw [Sdk.Python.splitlines_short r hprint hempty]
      rfl

/-! ## What the beginning of a line carries -/

/-- The beginning of a comment carries nothing. -/
theorem dataText_comment_begin (space : Char → Bool) (blank : List Char → Bool) (b : List Char)
    (hb : b <+: frameBody none) : Sdk.dataText space blank b = none := by
  unfold Sdk.dataText
  rcases b with _ | ⟨c, b⟩
  · split
    · rfl
    · exact if_neg (by decide)
  · have hc : c = ':' := (List.cons_prefix_cons.mp hb).1
    rw [hc]
    exact if_pos (.inl rfl)

/-- The beginning of the line of an event carries nothing, or a beginning of
    its JSON. -/
theorem dataText_event_begin (space : Char → Bool) (blank : List Char → Bool)
    (e : FlagStateChangedEvent) (he : Tame e) (hspace : space ' ' = true)
    (hgraphic : ∀ c, Graphic c → space c = false) (b : List Char)
    (hb : b <+: frameBody (some e)) :
    Sdk.dataText space blank b = none ∨
      ∃ raw, raw <+: (marshalPayload (payloadOf e)).toList ∧
        Sdk.dataText space blank b = some raw := by
  unfold Sdk.dataText
  by_cases hskip : b.head? = some ':' ∨ blank b = true
  · exact .inl (if_pos hskip)
  rw [if_neg hskip]
  by_cases hmark : "data:".toList.isPrefixOf b = true
  · rw [if_pos hmark]
    by_cases hempty : Sdk.trimWith space (b.drop 5) = []
    · exact .inl (if_pos hempty)
    · rw [if_neg hempty]
      refine .inr ⟨_, ?_, rfl⟩
      -- After the mark there is a space, and then the JSON begins.
      have hdrop : b.drop 5 <+: ' ' :: (marshalPayload (payloadOf e)).toList := hb.drop 5
      cases hrest : b.drop 5 with
      | nil => exact List.nil_prefix
      | cons c raw =>
          rw [hrest, List.cons_prefix_cons] at hdrop
          rcases hdrop with ⟨rfl, hraw⟩
          rw [trimWith_space space raw hspace (fun c hc => hgraphic c (he.graphic c
            (hraw.subset hc)))]
          exact hraw
  · exact .inl (if_neg hmark)

/-! ## What the readers are told -/

/-- The beginning of a frame is told as nothing, as an error, or as the event
    of the frame. -/
def Partly {β : Type} (told : FlagStateChangedEvent → List β) (error : β)
    (f : Option FlagStateChangedEvent) (heard : List β) : Prop :=
  heard = [] ∨ heard = [error] ∨ ∃ e, f = some e ∧ heard = told e

/-- The decoder gives back the payload of the event, and refuses its JSON when
    that is cut short. -/
def Decodes (parse : String → Option Json) (e : FlagStateChangedEvent) : Prop :=
  parse (marshalPayload (payloadOf e)) = some (payloadOf e).object ∧
    ∀ text, text <+: (marshalPayload (payloadOf e)).toList →
      text ≠ (marshalPayload (payloadOf e)).toList → parse (String.ofList text) = none

theorem Sdk.Go.processLine_begin (parse : String → Option Json) (key : String)
    (f : Option FlagStateChangedEvent)
    (hf : ∀ e, f = some e → Tame e ∧ yearOf e.timestamp < 10000 ∧ Decodes parse e)
    (b : List Char) (hb : b <+: frameBody f) :
    Partly (fun e => if e.flagKey = key then
      [.update e.flagKey e.enabled (some (fullSecond e.timestamp))] else [])
      (.error "SSE invalid JSON") f (Sdk.Go.processLine parse key b) := by
  cases f with
  | none =>
      refine .inl ?_
      rw [Sdk.Go.processLine, dataText_comment_begin _ _ b hb]
  | some e =>
      rcases hf e rfl with ⟨htame, hclock, hparse, hshort⟩
      rcases dataText_event_begin Sdk.Go.isSpace (fun line => line == []) e htame rfl
        (fun c hc => (isSpace_graphic c hc).2.1) b hb with hnone | ⟨raw, hraw, hdata⟩
      · refine .inl ?_
        rw [Sdk.Go.processLine, hnone]
      by_cases hwhole : raw = (marshalPayload (payloadOf e)).toList
      · refine .inr (.inr ⟨e, rfl, ?_⟩)
        rw [hwhole] at hdata
        exact Sdk.Go.processLine_object parse key _ _ (payloadOf e) (fullSecond e.timestamp) rfl
          hdata (by rw [String.ofList_toList]; exact hparse) (parse_rfc3339 _ hclock)
      · refine .inr (.inl ?_)
        rw [Sdk.Go.processLine, hdata]
        dsimp only
        rw [hshort raw hraw hwhole]
        rfl

theorem Sdk.Python.processLine_begin (parse : String → Option Json)
    (f : Option FlagStateChangedEvent) (hf : ∀ e, f = some e → Tame e ∧ Decodes parse e)
    (b : List Char) (hb : b <+: frameBody f) :
    Partly (fun e => [.change (changeEventOf e)]) (.error "SSE data is not valid JSON") f
      (Sdk.Python.processLine parse b) := by
  cases f with
  | none =>
      refine .inl ?_
      rw [Sdk.Python.processLine, dataText_comment_begin _ _ b hb]
  | some e =>
      rcases hf e rfl with ⟨htame, hparse, hshort⟩
      rcases dataText_event_begin Sdk.Python.isSpace
        (fun line => Sdk.trimWith Sdk.Python.isSpace line == []) e htame rfl
        (fun c hc => (isSpace_graphic c hc).2.2) b hb with hnone | ⟨raw, hraw, hdata⟩
      · refine .inl ?_
        rw [Sdk.Python.processLine, hnone]
      by_cases hwhole : raw = (marshalPayload (payloadOf e)).toList
      · refine .inr (.inr ⟨e, rfl, ?_⟩)
        rw [Sdk.Python.processLine, hdata, hwhole]
        exact Sdk.Python.handleDataLine_object parse _ (payloadOf e) rfl
          (by rw [String.ofList_toList]; exact hparse)
      · refine .inr (.inl ?_)
        rw [Sdk.Python.processLine, hdata]
        dsimp only
        rw [Sdk.Python.handleDataLine, hshort raw hraw hwhole]

/-- A reader of lines is told of the events whose frames are whole, perhaps of
    one more, and perhaps of one error at the end. -/
theorem flatMap_cut {β : Type} (frames : List (Option FlagStateChangedEvent)) (m : Nat)
    (tail : Option (List Char)) (read : List Char → List β)
    (told : FlagStateChangedEvent → List β) (error : β) (hblank : read [] = [])
    (hnone : read (frameBody none) = [])
    (hsome : ∀ e, some e ∈ frames → read (frameBody (some e)) = told e)
    (htail : ∀ b, tail = some b → ∃ f, frames[m]? = some f ∧ Partly told error f (read b)) :
    ∃ k errs, ((frames.take m).filterMap (fun f => f)).length ≤ k ∧
      (errs = [] ∨ errs = [error]) ∧
      (frameLines (frames.take m) ++ tail.toList).flatMap read =
        ((frames.filterMap (fun f => f)).take k).flatMap told ++ errs := by
  have hframes : (frameLines (frames.take m)).flatMap read =
      ((frames.take m).filterMap (fun f => f)).flatMap told := by
    rw [frameLines, List.flatMap_assoc]
    refine flatMap_frames (frames.take m) _ told ?_ (fun e he => ?_)
    · simp [hnone, hblank]
    · simp [hsome e (List.mem_of_mem_take he), hblank]
  have htake : ∀ n, (frames.take n).filterMap (fun f => f) =
      (frames.filterMap (fun f => f)).take ((frames.take n).filterMap (fun f => f)).length := by
    intro n
    exact List.prefix_iff_eq_take.mp ((List.take_prefix n frames).filterMap _)
  rw [List.flatMap_append, hframes]
  cases htailed : tail with
  | none => exact ⟨_, [], le_refl _, .inl rfl, by rw [← htake]; simp⟩
  | some b =>
      rw [Option.toList_some, List.flatMap_singleton]
      rcases htail b htailed with ⟨f, hf, hread | hread | ⟨e, rfl, hread⟩⟩
      · exact ⟨_, [], le_refl _, .inl rfl, by rw [← htake, hread]⟩
      · exact ⟨_, [error], le_refl _, .inr rfl, by rw [← htake, hread]⟩
      · -- The whole line of one more event is there.
        refine ⟨((frames.take (m + 1)).filterMap (fun f => f)).length, [], ?_, .inl rfl, ?_⟩
        · exact ((List.take_sublist_take_left (Nat.le_succ m)).filterMap _).length_le
        · rw [← htake, List.take_add_one, hf, hread]
          simp

/-- No line of a stream that breaks off is too long for the scanner, or ends in
    a carriage return. -/
theorem Sdk.Go.scan_cut (frames : List (Option FlagStateChangedEvent))
    (htame : ∀ e, some e ∈ frames → Tame e) (m : Nat) (tail : Option (List Char))
    (htail : ∀ b, tail = some b → ∃ f, frames[m]? = some f ∧ b <+: frameBody f)
    (chunks : List (List Char))
    (hlines : Sdk.Go.linesOf chunks.flatten = frameLines (frames.take m) ++ tail.toList) :
    Sdk.Go.scan chunks = frameLines (frames.take m) ++ tail.toList := by
  have hline : ∀ line ∈ frameLines (frames.take m) ++ tail.toList,
      (line.map Char.utf8Size).sum < Sdk.Go.maxScanTokenSize ∧ ∀ c ∈ line, Printable c := by
    intro line hline
    have hfits := frameLines_fits frames htame
    have hprintable := frameLines_printable frames htame
    rcases List.mem_append.mp hline with hline | hline
    · have hin : line ∈ frameLines frames := by
        rcases List.mem_flatMap.mp hline with ⟨f, hf, hin⟩
        exact List.mem_flatMap.mpr ⟨f, List.mem_of_mem_take hf, hin⟩
      exact ⟨hfits line hin, hprintable line hin⟩
    · rcases htail line (Option.mem_toList.mp hline) with ⟨f, hf, s, hbody⟩
      have hin : frameBody f ∈ frameLines frames :=
        List.mem_flatMap.mpr ⟨f, List.mem_of_getElem? hf, List.mem_cons_self⟩
      have hsum := hfits _ hin
      rw [← hbody, List.map_append, List.sum_append] at hsum
      refine ⟨by omega, fun c hc => hprintable _ hin c ?_⟩
      rw [← hbody]
      exact List.mem_append_left _ hc
  unfold Sdk.Go.scan
  rw [Sdk.Go.lines.read_eq [] chunks rfl, List.nil_append]
  change ((Sdk.Go.linesOf chunks.flatten).takeWhile _).map _ = _
  rw [hlines, List.takeWhile_eq_self_iff.mpr
    (fun line hin => decide_eq_true (hline line hin).1), List.map_congr_left
      (fun line hin => Sdk.Go.dropCR_printable line (hline line hin).2), List.map_id']

/-- What was sent is a beginning of what is to be sent, frame by frame. -/
theorem streamFrames_sent (projSlug envSlug : String) (sent rest : List StreamInput) :
    streamFrames projSlug envSlug sent <+: streamFrames projSlug envSlug (sent ++ rest) := by
  induction sent with
  | nil => exact List.nil_prefix
  | cons input sent ih =>
      cases input with
      | done => exact List.prefix_rfl
      | closed => exact List.prefix_rfl
      | tick => exact List.cons_prefix_cons.mpr ⟨rfl, ih⟩
      | event e =>
          rw [List.cons_append, streamFrames, streamFrames]
          by_cases hforeign : e.project ≠ projSlug ∨ e.environment ≠ envSlug
          · rw [if_pos hforeign, if_pos hforeign]
            exact ih
          · rw [if_neg hforeign, if_neg hforeign]
            exact List.cons_prefix_cons.mpr ⟨rfl, ih⟩

/-- The frames of slugs are tame. -/
theorem streamFrames_tame (projSlug envSlug : String) (inputs : List StreamInput)
    (hslugs : ∀ e ∈ ownEvents projSlug envSlug inputs,
      IsSlug e.project ∧ IsSlug e.environment ∧ IsSlug e.flagKey) :
    ∀ e, some e ∈ streamFrames projSlug envSlug inputs → Tame e := by
  intro e he
  rcases hslugs e ((mem_streamFrames _ _ _ e).mp he) with ⟨hproject, henvironment, hkey⟩
  rcases marshalPayload_graphic _ (payloadOf_modest e hproject henvironment hkey) with
    ⟨hgraphic, hnonempty, hlength⟩
  exact ⟨hgraphic, hnonempty, hlength⟩

section Readers

variable (parse : String → Option Json) (frames : List (Option FlagStateChangedEvent)) (m : Nat)
  (chunks : List (List Char))

/-- The JavaScript reader tells the events whose frames are whole. -/
theorem Sdk.Js.reads_cut (hframes : ∀ e, some e ∈ frames → Tame e ∧ Decodes parse e)
    (hblocks : (Sdk.Js.blocks.frames chunks.flatten).1 = (frames.take m).map frameBody) :
    Sdk.Js.readSSEStream parse chunks =
      ((frames.take m).filterMap (fun f => f)).map (fun e => .flagChange (wireEventOf e)) := by
  have htaken : ∀ e, some e ∈ frames.take m → Tame e ∧ Decodes parse e :=
    fun e he => hframes e (List.mem_of_mem_take he)
  -- The blocks found are those of a stream that ends after its last whole frame.
  have hended := Sdk.Js.reads parse (frames.take m) (fun e he => (htaken e he).1)
    (fun e he => (htaken e he).2.1)
    [(frames.take m).flatMap (fun f => frameBody f ++ ['\n', '\n'])] (by simp)
  have hwhole : (Sdk.Js.blocks.frames ((frames.take m).flatMap
      (fun f => frameBody f ++ ['\n', '\n']))).1 = (frames.take m).map frameBody := by
    rw [Sdk.Js.blocks.frames_encoded _ frameBody _ (fun f hf y => Sdk.Js.cutBlock_body _ y
      (frameBody_printable f (fun e he => (htaken e (he ▸ hf)).1)))]
  unfold Sdk.Js.readSSEStream at hended ⊢
  rw [Sdk.Js.blocks.read_eq [] _ rfl, List.flatten_singleton, List.nil_append, hwhole,
    ← hblocks] at hended
  rw [Sdk.Js.blocks.read_eq [] chunks rfl, List.nil_append, hended, List.map_eq_flatMap]

variable (tail : Option (List Char))

/-- The Python reader tells them, perhaps one more event, and perhaps an
    error. -/
theorem Sdk.Python.reads_cut (iterLines : List (List Char) → List (List Char))
    (hiter : ∀ chunks, iterLines chunks = Sdk.Python.splitlines chunks.flatten)
    (hframes : ∀ e, some e ∈ frames → Tame e ∧ Decodes parse e)
    (htail : ∀ b, tail = some b → ∃ f, frames[m]? = some f ∧ b <+: frameBody f)
    (hlines : Sdk.Python.splitlines chunks.flatten =
      frameLines (frames.take m) ++ tail.toList) :
    ∃ k errs, ((frames.take m).filterMap (fun f => f)).length ≤ k ∧
      (errs = [] ∨ errs = [.error "SSE data is not valid JSON"]) ∧
      Sdk.Python.readSse parse iterLines chunks =
        ((frames.filterMap (fun f => f)).take k).map (fun e => .change (changeEventOf e)) ++
          errs := by
  have hline : ∀ e, some e ∈ frames →
      Sdk.Python.processLine parse (frameBody (some e)) = [.change (changeEventOf e)] := by
    intro e he
    rcases hframes e he with ⟨htame, hwhole, _⟩
    have hdata := dataText_event Sdk.Python.isSpace
      (fun line => Sdk.trimWith Sdk.Python.isSpace line == []) e htame rfl
      (fun c hc => (isSpace_graphic c hc).2.2)
      (trimWith_event _ (fun c hc => (isSpace_graphic c hc).2.2) e)
    rw [Sdk.Python.processLine, hdata]
    refine Sdk.Python.handleDataLine_object parse _ (payloadOf e) rfl ?_
    rw [String.ofList_toList]
    exact hwhole
  have hlast : ∀ b, tail = some b → ∃ f, frames[m]? = some f ∧
      Partly (fun e => [.change (changeEventOf e)]) (.error "SSE data is not valid JSON") f
        (Sdk.Python.processLine parse b) := by
    intro b hb
    rcases htail b hb with ⟨f, hf, hbegin⟩
    refine ⟨f, hf, Sdk.Python.processLine_begin parse f (fun e he => ?_) b hbegin⟩
    exact hframes e (he ▸ List.mem_of_getElem? hf)
  rcases flatMap_cut frames m tail (Sdk.Python.processLine parse) _ _
    (by rw [Sdk.Python.processLine, dataText_blank _ _ rfl])
    (by rw [Sdk.Python.processLine, dataText_comment]) hline hlast with
    ⟨k, errs, hk, herrs, hheard⟩
  refine ⟨k, errs, hk, herrs, ?_⟩
  rw [Sdk.Python.readSse, hiter, hlines, hheard, List.map_eq_flatMap]

/-- The Go reader does the same for the events of its flag. -/
theorem Sdk.Go.reads_cut (key : String)
    (hframes : ∀ e, some e ∈ frames → Tame e ∧ yearOf e.timestamp < 10000 ∧ Decodes parse e)
    (htail : ∀ b, tail = some b → ∃ f, frames[m]? = some f ∧ b <+: frameBody f)
    (hlines : Sdk.Go.linesOf chunks.flatten = frameLines (frames.take m) ++ tail.toList) :
    ∃ k errs, ((frames.take m).filterMap (fun f => f)).length ≤ k ∧
      (errs = [] ∨ errs = [.error "SSE invalid JSON"]) ∧
      Sdk.Go.attemptStream parse key chunks =
        (((frames.filterMap (fun f => f)).take k).filter (fun e => e.flagKey = key)).map
          (fun e => .update e.flagKey e.enabled (some (fullSecond e.timestamp))) ++ errs := by
  have hline : ∀ e, some e ∈ frames →
      Sdk.Go.processLine parse key (frameBody (some e)) = if e.flagKey = key then
        [.update e.flagKey e.enabled (some (fullSecond e.timestamp))] else [] := by
    intro e he
    rcases hframes e he with ⟨htame, hclock, hwhole, _⟩
    have hdata := dataText_event Sdk.Go.isSpace (fun line => line == []) e htame rfl
      (fun c hc => (isSpace_graphic c hc).2.1) rfl
    refine Sdk.Go.processLine_object parse key _ _ (payloadOf e) (fullSecond e.timestamp) rfl
      hdata ?_ (parse_rfc3339 _ hclock)
    rw [String.ofList_toList]
    exact hwhole
  have hlast : ∀ b, tail = some b → ∃ f, frames[m]? = some f ∧
      Partly (fun e => if e.flagKey = key then
        [.update e.flagKey e.enabled (some (fullSecond e.timestamp))] else [])
        (.error "SSE invalid JSON") f (Sdk.Go.processLine parse key b) := by
    intro b hb
    rcases htail b hb with ⟨f, hf, hbegin⟩
    refine ⟨f, hf, Sdk.Go.processLine_begin parse key f (fun e he => ?_) b hbegin⟩
    exact hframes e (he ▸ List.mem_of_getElem? hf)
  rcases flatMap_cut frames m tail (Sdk.Go.processLine parse key) _ _
    (by rw [Sdk.Go.processLine, dataText_blank _ _ rfl])
    (by rw [Sdk.Go.processLine, dataText_comment]) hline hlast with ⟨k, errs, hk, herrs, hheard⟩
  refine ⟨k, errs, hk, herrs, ?_⟩
  rw [Sdk.Go.attemptStream, Sdk.Go.scan_cut frames (fun e he => (hframes e he).1) m tail htail
    chunks hlines, hheard]
  -- The Go client keeps the events of one key and drops the rest.
  congr 1
  induction (frames.filterMap (fun f => f)).take k with
  | nil => rfl
  | cons e events ih =>
      rw [List.flatMap_cons, ih, List.filter_cons]
      by_cases hkey : e.flagKey = key
      · rw [if_pos hkey, if_pos (decide_eq_true hkey), List.map_cons, List.singleton_append]
      · rw [if_neg hkey, if_neg (by simpa using hkey), List.nil_append]

end Readers

/-- Whatever has arrived of a stream, and however it was cut into chunks: each
    reader delivers a beginning of the events of the client's project and
    environment, which has every event whose frame has arrived as a whole. The
    JavaScript reader reports no error, and the others at most the one of the
    line that has broken off. -/
theorem broken_stream (jsParse goParse pyParse : String → Option Json)
    (iterLines : List (List Char) → List (List Char))
    (hiter : ∀ chunks, iterLines chunks = Sdk.Python.splitlines chunks.flatten)
    (projSlug envSlug : String) (inputs : List StreamInput)
    (hslugs : ∀ e ∈ ownEvents projSlug envSlug inputs,
      IsSlug e.project ∧ IsSlug e.environment ∧ IsSlug e.flagKey)
    (hclock : ∀ e ∈ ownEvents projSlug envSlug inputs, yearOf e.timestamp < 10000)
    (hparse : ∀ parse ∈ [jsParse, goParse, pyParse], ∀ e ∈ ownEvents projSlug envSlug inputs,
      Decodes parse e)
    (chunks : List (List Char))
    (hchunks : chunks.flatten <+:
      wireText (SSEHandler.loopWire rfc3339 marshalPayload projSlug envSlug inputs)) :
    ∃ whole, (∀ sent, sent <+: inputs →
        wireText (SSEHandler.loopWire rfc3339 marshalPayload projSlug envSlug sent) <+:
          chunks.flatten → (ownEvents projSlug envSlug sent).length ≤ whole) ∧
      Sdk.Js.readSSEStream jsParse chunks =
        ((ownEvents projSlug envSlug inputs).take whole).map
          (fun e => .flagChange (wireEventOf e)) ∧
      (∃ k errs, whole ≤ k ∧ (errs = [] ∨ errs = [.error "SSE data is not valid JSON"]) ∧
        Sdk.Python.readSse pyParse iterLines chunks =
          ((ownEvents projSlug envSlug inputs).take k).map (fun e => .change (changeEventOf e)) ++
            errs) ∧
      ∀ key, ∃ k errs, whole ≤ k ∧ (errs = [] ∨ errs = [.error "SSE invalid JSON"]) ∧
        Sdk.Go.attemptStream goParse key chunks =
          (((ownEvents projSlug envSlug inputs).take k).filter (fun e => e.flagKey = key)).map
            (fun e => .update e.flagKey e.enabled (some (fullSecond e.timestamp))) ++ errs := by
  rw [wireText_eq] at hchunks
  have htame := streamFrames_tame projSlug envSlug inputs hslugs
  have hin := fun e he => (mem_streamFrames projSlug envSlug inputs e).mp he
  rcases cut_found _ htame chunks.flatten hchunks with ⟨m, tail, hwhole, htail, hjs, hgo, hpy⟩
  refine ⟨(((streamFrames projSlug envSlug inputs).take m).filterMap (fun f => f)).length,
    fun sent hsent hwire => ?_, ?_, ?_, fun key => ?_⟩
  · -- The frames sent are the first ones, and they are whole.
    rcases hsent with ⟨rest, rfl⟩
    have hbegin := List.prefix_iff_eq_take.mp (streamFrames_sent projSlug envSlug sent rest)
    rw [wireText_eq, hbegin] at hwire
    have hle := hwhole _ hwire
    rw [← hbegin] at hle
    rw [← streamFrames_events, hbegin]
    exact ((List.take_sublist_take_left hle).filterMap _).length_le
  · rw [Sdk.Js.reads_cut jsParse _ m chunks
      (fun e he => ⟨htame e he, hparse jsParse (by simp) e (hin e he)⟩) hjs,
      ← streamFrames_events,
      ← List.prefix_iff_eq_take.mp ((List.take_prefix m _).filterMap _)]
  · rw [← streamFrames_events]
    exact Sdk.Python.reads_cut pyParse _ m chunks tail iterLines hiter
      (fun e he => ⟨htame e he, hparse pyParse (by simp) e (hin e he)⟩) htail hpy
  · rw [← streamFrames_events]
    exact Sdk.Go.reads_cut goParse _ m chunks tail key
      (fun e he => ⟨htame e he, hclock e (hin e he), hparse goParse (by simp) e (hin e he)⟩)
      htail hgo

/-- Two events, of which the last character of the second is missing. -/
theorem broken_stream_second :
    ∃ whole, 1 ≤ whole ∧ Sdk.Js.readSSEStream sampleParse
        [(wireText (SSEHandler.loopWire rfc3339 marshalPayload "demo" "prod"
          [.event sampleEvent, .event sampleEvent])).dropLast] =
      ([sampleEvent, sampleEvent].take whole).map (fun e => .flagChange (wireEventOf e)) := by
  have hown : ownEvents "demo" "prod" [.event sampleEvent, .event sampleEvent] =
      [sampleEvent, sampleEvent] := by decide
  have hslugs : IsSlug sampleEvent.project ∧ IsSlug sampleEvent.environment ∧
      IsSlug sampleEvent.flagKey := by
    unfold IsSlug
    decide
  have hyear : yearOf sampleEvent.timestamp < 10000 := by decide
  have hshort : ∀ text : List Char, text ≠ (marshalPayload (payloadOf sampleEvent)).toList →
      sampleParse (String.ofList text) = none := by
    intro text hne
    refine if_neg (fun heq => hne ?_)
    rw [← heq, String.toList_ofList]
  rcases broken_stream sampleParse sampleParse sampleParse
    (fun chunks => Sdk.Python.splitlines chunks.flatten) (fun _ => rfl) "demo" "prod"
    [.event sampleEvent, .event sampleEvent] (by rw [hown]; simpa using hslugs)
    (by rw [hown]; simpa using hyear)
    (by rw [hown]; simpa [Decodes, sampleParse] using fun text _ hne => hshort text hne)
    [(wireText (SSEHandler.loopWire rfc3339 marshalPayload "demo" "prod"
      [.event sampleEvent, .event sampleEvent])).dropLast]
    (by rw [List.flatten_singleton]; exact List.dropLast_prefix _) with ⟨whole, hwhole, hjs, _⟩
  rw [hown] at hjs
  have hfirst := hwhole [.event sampleEvent] ⟨[.event sampleEvent], rfl⟩ (by decide +kernel)
  exact ⟨whole, hfirst, hjs⟩

end Cuttlegate
