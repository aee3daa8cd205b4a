import Cuttlegate.Lib.Separated
import Cuttlegate.Web.RuleEditor

/-!
# Typing the Values of a Condition

The input of the values shows them with a comma and a space between, and after
each keystroke they are what the text reads as. The reading drops a comma or a
white space at the end of the text, so the next keystroke finds neither of them
there.

Typing from no values therefore ends with at most one value, of the characters
other than commas and white space. The text of a list comes out as that list
only when it has one value at most, without white space. That the values can be
entered at once, by pasting, is another matter: then it is enough that no value
is empty, has a comma or has white space at an end, and that is also when the
text of stored values reads as them.

## Main definitions

* `commas`: How the values are written.
* `Typeable`: A value the text can be read for.

## Theorems

* `parse_shown_iff`: When the text of values reads as them.
* `typed_eq`: What typing into an input without values ends with.
* `typed_new`: A new condition is typed into in the same way.
* `values_typed_iff`: The lists that can be typed, and the ones that are read
  back.
-/

namespace Cuttlegate

open Separated

/-- Values are written with a comma and a space between. -/
def commas : Style Char := ⟨',', ' ', Sdk.Js.isSpace, by decide, by decide⟩

/-- The value is not empty, has no comma and no white space at its ends. -/
structure Typeable (v : String) : Prop where
  ne_empty : v ≠ ""
  comma : ',' ∉ v.toList
  ends : Sdk.trimWith Sdk.Js.isSpace v.toList = v.toList

/-! ## The text of values -/

theorem shownValues_eq (values : List String) :
    shownValues values = commas.join (values.map String.toList) := String.toList_intercalate

theorem parseValues_eq (text : List Char) :
    parseValues text = (commas.fields text).map String.ofList := by
  have hempty : ∀ x : List Char, (String.ofList x != "") = !x.isEmpty := by
    intro x
    cases x with
    | nil => rfl
    | cons c x => simp [bne, ← String.toList_inj]
  have hsplit : (text.splitOn ',').map (fun v => String.ofList (Sdk.trimWith Sdk.Js.isSpace v)) =
      ((text.splitOn commas.sep).map commas.trim).map String.ofList := by
    rw [List.map_map]
    rfl
  rw [parseValues, hsplit, List.filter_map, Style.fields]
  congr 1
  exact List.filter_congr (fun x _ => hempty x)

theorem ofList_toList (values : List String) :
    (values.map String.toList).map String.ofList = values := by
  rw [List.map_map]
  exact List.map_id'' (fun v => String.ofList_toList) values

theorem toList_ofList (xs : List (List Char)) :
    (xs.map String.ofList).map String.toList = xs := by
  rw [List.map_map]
  exact List.map_id'' (fun x => String.toList_ofList) xs

theorem map_ofList_eq_iff (xs : List (List Char)) (values : List String) :
    xs.map String.ofList = values ↔ xs = values.map String.toList := by
  constructor
  · rintro rfl
    exact (toList_ofList xs).symm
  · rintro rfl
    exact ofList_toList values

theorem field_toList_iff (v : String) : commas.Field v.toList ↔ Typeable v := by
  have hne : v.toList ≠ [] ↔ v ≠ "" := by
    rw [Ne, Ne, ← String.toList_inj]
    rfl
  exact ⟨fun h => ⟨hne.mp h.ne_nil, h.sep, h.trim⟩, fun h => ⟨hne.mpr h.ne_empty, h.comma, h.ends⟩⟩

/-- The text of values reads as them exactly when each of them can be read. -/
theorem parse_shown_iff (values : List String) :
    parseValues (shownValues values) = values ↔ ∀ v ∈ values, Typeable v := by
  rw [parseValues_eq, shownValues_eq, map_ofList_eq_iff, Style.fields_join_iff]
  constructor
  · intro h v hv
    exact (field_toList_iff v).mp (h v.toList (List.mem_map_of_mem hv))
  · intro h x hx
    rcases List.mem_map.mp hx with ⟨v, hv, rfl⟩
    exact (field_toList_iff v).mpr (h v hv)

/-- The values after one more character. -/
theorem parse_press (xs : List (List Char)) (c : Char) :
    parseValues (shownValues (xs.map String.ofList) ++ [c]) =
      (commas.press xs c).map String.ofList := by
  rw [parseValues_eq, shownValues_eq, toList_ofList, Style.press]

/-! ## Keystrokes -/

variable (draft : RuleDraft) (i : Nat) (condition : Condition)

theorem Condition.patched_values (values : List String) :
    condition.patched { values := some values } = { condition with values := values } := rfl

theorem updateCondition_conditions (patch : ConditionPatch)
    (h : draft.conditions[i]? = some condition) :
    (draft.updateCondition i patch).conditions[i]? = some (condition.patched patch) := by
  rw [RuleDraft.updateCondition, List.getElem?_mapIdx, h]
  simp

/-- The last values entered count. -/
theorem updateCondition_again (old new : List String) :
    (draft.updateCondition i { values := some old }).updateCondition i { values := some new } =
      draft.updateCondition i { values := some new } := by
  unfold RuleDraft.updateCondition
  congr 1
  rw [List.mapIdx_mapIdx]
  congr 1
  funext idx c
  by_cases h : idx = i
  · simp [h, Condition.patched_values]
  · simp [h]

/-- The values entered are the ones that are there. -/
theorem updateCondition_same (h : draft.conditions[i]? = some condition) :
    draft.updateCondition i { values := some condition.values } = draft := by
  have hsame : draft.conditions.mapIdx (fun idx c => if idx ≠ i then c
      else c.patched { values := some condition.values }) = draft.conditions := by
    apply List.ext_getElem?
    intro n
    rw [List.getElem?_mapIdx]
    by_cases hn : n = i
    · rw [hn, h]
      simp [Condition.patched_values]
    · cases draft.conditions[n]? <;> simp [hn]
  rw [RuleDraft.updateCondition, hsame]

theorem keystroke_eq (h : draft.conditions[i]? = some condition)
    (hop : condition.isSegmentOp = false) (c : Char) :
    draft.keystroke i c = draft.updateCondition i
      { values := some (parseValues (shownValues condition.values ++ [c])) } := by
  rw [RuleDraft.keystroke, h]
  simp only
  rw [hop, if_neg Bool.false_ne_true, RuleDraft.enter]

theorem typed_snoc (text : List Char) (c : Char) :
    draft.typed i (text ++ [c]) = (draft.typed i text).keystroke i c := by
  rw [RuleDraft.typed, List.foldl_append, List.foldl_cons, List.foldl_nil, RuleDraft.typed]

/-- What typing into an input without values ends with. -/
theorem typed_eq (h : draft.conditions[i]? = some condition)
    (hop : condition.isSegmentOp = false) (hnone : condition.values = []) (text : List Char) :
    draft.typed i text =
      draft.updateCondition i { values := some ((commas.type [] text).map String.ofList) } := by
  induction text using List.reverseRecOn with
  | nil =>
      have hsame := updateCondition_same draft i condition h
      rw [hnone] at hsame
      exact hsame.symm
  | append_singleton text c ih =>
      have hpatched := updateCondition_conditions draft i condition
        { values := some ((commas.type [] text).map String.ofList) } h
      rw [typed_snoc, ih, keystroke_eq _ i _ hpatched hop, updateCondition_again,
        Condition.patched_values, parse_press, Style.type_snoc]

/-- Typing starts in the same way whatever the values are that show nothing,
    as those of a new condition do. -/
theorem typed_blank (h : draft.conditions[i]? = some condition)
    (hop : condition.isSegmentOp = false) (hblank : shownValues condition.values = [])
    (c : Char) (text : List Char) :
    draft.typed i (c :: text) =
      (draft.updateCondition i { values := some [] }).typed i (c :: text) := by
  have hpatched := updateCondition_conditions draft i condition { values := some [] } h
  have hfirst : draft.keystroke i c =
      (draft.updateCondition i { values := some [] }).keystroke i c := by
    rw [keystroke_eq draft i condition h hop, hblank, keystroke_eq _ i _ hpatched hop,
      updateCondition_again]
    rfl
  rw [RuleDraft.typed, List.foldl_cons, hfirst, RuleDraft.typed, List.foldl_cons]

/-- What typing into a new condition ends with. -/
theorem typed_new (c : Char) (text : List Char) :
    draft.addCondition.typed draft.conditions.length (c :: text) =
      draft.addCondition.updateCondition draft.conditions.length
        { values := some ((commas.type [] (c :: text)).map String.ofList) } := by
  have hnew : draft.addCondition.conditions[draft.conditions.length]? = some ⟨"", .eq, [""]⟩ :=
    List.getElem?_concat_length
  have hpatched := updateCondition_conditions _ _ _ { values := some [] } hnew
  rw [typed_blank _ _ _ hnew rfl rfl, typed_eq _ _ _ hpatched rfl rfl, updateCondition_again]

/-- The values typed are the ones of the text exactly when there is one at
    most, without commas and white space. -/
theorem typed_iff (h : draft.conditions[i]? = some condition)
    (hop : condition.isSegmentOp = false) (hnone : condition.values = []) (values : List String) :
    draft.typed i (shownValues values) = draft.updateCondition i { values := some values } ↔
      values = [] ∨ ∃ v, values = [v] ∧ v ≠ "" ∧
        ∀ c ∈ v.toList, c ≠ ',' ∧ Sdk.Js.isSpace c = false := by
  have hentered : ∀ old new : List String,
      draft.updateCondition i { values := some old } =
        draft.updateCondition i { values := some new } ↔ old = new := by
    intro old new
    constructor
    · intro heq
      have hold := updateCondition_conditions draft i condition { values := some old } h
      have hnew := updateCondition_conditions draft i condition { values := some new } h
      rw [heq, hnew] at hold
      exact (congrArg Condition.values (Option.some.inj hold)).symm
    · rintro rfl
      rfl
  have hdropped : ∀ c, commas.dropped c = false ↔ c ≠ ',' ∧ Sdk.Js.isSpace c = false := by
    intro c
    simp [Style.dropped, commas]
  rw [typed_eq draft i condition h hop hnone, hentered, map_ofList_eq_iff, shownValues_eq,
    Style.type_join_iff]
  constructor
  · rintro (hnil | ⟨x, hx, hne, hkept⟩)
    · exact .inl (List.map_eq_nil_iff.mp hnil)
    · rcases List.map_eq_singleton_iff.mp hx with ⟨v, rfl, rfl⟩
      refine .inr ⟨v, rfl, fun hv => hne (by rw [hv]; rfl), ?_⟩
      exact fun c hc => (hdropped c).mp (hkept c hc)
  · rintro (rfl | ⟨v, rfl, hne, hkept⟩)
    · exact .inl rfl
    · refine .inr ⟨v.toList, rfl, ?_, fun c hc => (hdropped c).mpr (hkept c hc)⟩
      intro hv
      exact hne (String.toList_inj.mp hv)

/-- Values can be typed when there is one of them at most, without commas and
    white space. The text of values reads as them when none is empty, has a
    comma or has white space at an end. -/
theorem values_typed_iff (h : draft.conditions[i]? = some condition)
    (hop : condition.isSegmentOp = false) (hnone : condition.values = []) (values : List String) :
    (draft.typed i (shownValues values) = draft.updateCondition i { values := some values } ↔
      values = [] ∨ ∃ v, values = [v] ∧ v ≠ "" ∧
        ∀ c ∈ v.toList, c ≠ ',' ∧ Sdk.Js.isSpace c = false) ∧
    (parseValues (shownValues values) = values ↔ ∀ v ∈ values, Typeable v) :=
  ⟨typed_iff draft i condition h hop hnone values, parse_shown_iff values⟩

/-- A condition on countries, of which none has been named. -/
def countries : RuleDraft := ⟨"", 1, [⟨"country", .isIn, []⟩], "on", none, true⟩

/-- One value is typed as it is. -/
theorem country_typed :
    countries.typed 0 (shownValues ["de"]) =
      countries.updateCondition 0 { values := some ["de"] } := by
  have hkept : ∀ c ∈ "de".toList, c ≠ ',' ∧ Sdk.Js.isSpace c = false := by
    intro c hc
    rcases List.mem_pair.mp hc with rfl | rfl
    · exact ⟨by decide, rfl⟩
    · exact ⟨by decide, rfl⟩
  exact (values_typed_iff countries 0 ⟨"country", .isIn, []⟩ rfl rfl rfl ["de"]).1.mpr
    (.inr ⟨"de", rfl, by decide, hkept⟩)

/-- Two values run into one, and a stored value with a comma is read as two. -/
theorem countries_joined :
    (¬ ∀ (draft : RuleDraft) (i : Nat) (condition : Condition) (values : List String),
      draft.conditions[i]? = some condition → condition.isSegmentOp = false →
      condition.values = [] → values ≠ [] → (∀ v ∈ values, Typeable v) →
      draft.typed i (shownValues values) = draft.updateCondition i { values := some values }) ∧
    ¬ ∀ values, parseValues (shownValues values) = values := by
  constructor
  · intro h
    have htypeable : ∀ v ∈ ["de", "at"], Typeable v := by
      intro v hv
      rcases List.mem_pair.mp hv with rfl | rfl
      · exact ⟨by decide, by decide, by decide⟩
      · exact ⟨by decide, by decide, by decide⟩
    have htyped := h countries 0 ⟨"country", .isIn, []⟩ ["de", "at"] rfl rfl rfl
      (List.cons_ne_nil _ _) htypeable
    rw [typed_iff countries 0 ⟨"country", .isIn, []⟩ rfl rfl rfl] at htyped
    rcases htyped with hnil | ⟨v, hv, -⟩
    · exact absurd hnil (List.cons_ne_nil _ _)
    · have hlength := congrArg List.length hv
      rw [List.length_singleton] at hlength
      exact absurd hlength (by decide)
  · intro h
    have hread := (parse_shown_iff ["a,b"]).mp (h ["a,b"]) "a,b" List.mem_cons_self
    exact hread.comma (by decide)

end Cuttlegate
