import Mathlib.Data.List.DropRight
import Mathlib.Tactic.Common

/-!
# Lists Written with Separators

A list of pieces written as one text, and the text read back: the pieces are
joined by a separator and a gap, and a text is cut at the separators, the
spaces at the ends of each piece go, and so do empty pieces.

Joined pieces are read back when they are fields: not empty, without a
separator, and without a space at either end. Reading always gives fields, so
no other pieces are.

A text that is typed into such a list is read and printed again after each
character. A separator or a space at the end of a text is lost in that, so a
list that is typed from its beginning never has a second piece, and its piece
has no space at all.

## Main definitions

* `Separated.Style`: The separator, the gap and the spaces.
* `Style.join`, `Style.fields`: Writing and reading.
* `Style.Field`: The pieces that can be read.
* `Style.press`, `Style.type`: One character more, and a run of them.

## Theorems

* `Style.fields_join_iff`: What is read back.
* `Style.fields_snoc_dropped`: The characters that are lost at the end.
* `Style.type_nil`: What typing from no pieces ends with.
* `Style.type_join_iff`: The lists that can be typed.
-/

namespace Separated

structure Style (α : Type) where
  sep : α
  gap : α
  space : α → Bool
  space_sep : space sep = false
  space_gap : space gap = true

namespace Style

variable {α : Type} (s : Style α)

/-- A text without the spaces at its ends. -/
def trim (text : List α) : List α := (text.dropWhile s.space).rdropWhile s.space

/-- The text of pieces. -/
def join (xs : List (List α)) : List α := [s.sep, s.gap].intercalate xs

/-- A piece that can be read from a text. -/
structure Field (x : List α) : Prop where
  ne_nil : x ≠ []
  sep : s.sep ∉ x
  trim : s.trim x = x

/-! ## Spaces at the ends -/

theorem trim_space (c : α) (text : List α) (hc : s.space c = true) :
    s.trim (c :: text) = s.trim text := by
  rw [trim, List.dropWhile_cons_of_pos hc, trim]

theorem trim_snoc (text : List α) (c : α) (hc : s.space c = true) :
    s.trim (text ++ [c]) = s.trim text := by
  unfold trim
  rw [List.dropWhile_append]
  cases hrest : (text.dropWhile s.space).isEmpty with
  | true =>
      rw [if_pos rfl, List.isEmpty_iff.mp hrest, List.dropWhile_cons_of_pos hc]
      rfl
  | false => rw [if_neg Bool.false_ne_true, List.rdropWhile_concat_pos _ _ _ hc]

theorem trim_sublist (text : List α) : (s.trim text).Sublist text :=
  (List.rdropWhile_prefix s.space (text.dropWhile s.space)).sublist.trans
    (List.dropWhile_sublist s.space)

theorem trim_printed (text : List α) (h : ∀ c ∈ text, s.space c = false) :
    s.trim text = text := by
  have hdrop : text.dropWhile s.space = text := by
    cases text with
    | nil => rfl
    | cons c text => rw [List.dropWhile_cons_of_neg (by simp [h c List.mem_cons_self])]
  rw [trim, hdrop, List.rdropWhile_eq_self_iff]
  intro hne
  simp [h _ (List.getLast_mem hne)]

/-- Nothing is left to trim. The end is done last, so for the beginning note
    that a text which begins with a printed character goes on doing so. -/
theorem trim_trim (text : List α) : s.trim (s.trim text) = s.trim text := by
  have hdrop : (s.trim text).dropWhile s.space = s.trim text := by
    rw [List.dropWhile_eq_self_iff]
    intro hlt
    have hprefix := List.rdropWhile_prefix s.space (text.dropWhile s.space)
    have hpos := Nat.lt_of_lt_of_le hlt hprefix.length_le
    have hhead : (s.trim text)[0] = (text.dropWhile s.space)[0] :=
      List.IsPrefix.getElem hprefix hlt
    rw [hhead]
    exact List.dropWhile_get_zero_not s.space text hpos
  rw [trim, hdrop, trim, List.rdropWhile_idempotent]

/-- The one piece that a text without lost characters is. -/
def single (text : List α) : List (List α) := if text.isEmpty then [] else [text]

theorem join_singleton (x : List α) : s.join [x] = x := List.intercalate_singleton

theorem join_single (text : List α) : s.join (single text) = text := by
  cases text with
  | nil => rfl
  | cons c text => exact s.join_singleton (c :: text)

theorem single_eq (text : List α) (h : text ≠ []) : single text = [text] := by
  cases text with
  | nil => exact absurd rfl h
  | cons c text => rfl

/-! ## Reading -/

variable [DecidableEq α]

/-- The pieces of a text. -/
def fields (text : List α) : List (List α) :=
  ((text.splitOn s.sep).map s.trim).filter (fun x => !x.isEmpty)

theorem fields_nil : s.fields [] = [] := rfl

/-- A text is read on both sides of a separator. -/
theorem fields_append (a b : List α) :
    s.fields (a ++ s.sep :: b) = s.fields a ++ s.fields b := by
  unfold fields
  rw [List.splitOn_append_cons_self, List.map_append, List.filter_append]

/-- Without a separator there is one piece at most. -/
theorem fields_plain (text : List α) (h : s.sep ∉ text) :
    s.fields text = single (s.trim text) := by
  rw [fields, List.splitOn_eq_singleton h, List.map_singleton, single, List.filter_singleton]
  cases (s.trim text).isEmpty <;> rfl

theorem fields_field (x : List α) (hx : s.Field x) : s.fields x = [x] := by
  rw [fields_plain s x hx.sep, hx.trim, single_eq x hx.ne_nil]

theorem fields_space (c : α) (text : List α) (hc : s.space c = true) :
    s.fields (c :: text) = s.fields text := by
  have hne : c ≠ s.sep := by
    rintro rfl
    exact absurd (s.space_sep.symm.trans hc) Bool.false_ne_true
  unfold fields
  rw [List.splitOn_cons_eq_if_modifyHead, if_neg (by simpa using hne)]
  cases hsplit : text.splitOn s.sep with
  | nil => exact absurd hsplit (List.splitOn_ne_nil _ _)
  | cons x xs => rw [List.modifyHead_cons, List.map_cons, List.map_cons, s.trim_space c x hc]

/-- A text is cut at every separator. -/
theorem sep_not_mem_splitOn (text : List α) : ∀ piece ∈ text.splitOn s.sep, s.sep ∉ piece := by
  induction text with
  | nil => simp
  | cons c text ih =>
      intro piece hpiece
      rw [List.splitOn_cons_eq_if_modifyHead] at hpiece
      cases hc : c == s.sep with
      | true =>
          rw [hc, if_pos rfl, List.mem_cons] at hpiece
          rcases hpiece with rfl | hpiece
          · exact List.not_mem_nil
          · exact ih piece hpiece
      | false =>
          rw [hc, if_neg Bool.false_ne_true] at hpiece
          have hne : s.sep ≠ c := fun h => by simp [h] at hc
          cases hsplit : text.splitOn s.sep with
          | nil => exact absurd hsplit (List.splitOn_ne_nil _ _)
          | cons x xs =>
              rw [hsplit] at hpiece ih
              rw [List.modifyHead_cons, List.mem_cons] at hpiece
              rcases hpiece with rfl | hpiece
              · rw [List.mem_cons]
                rintro (h | h)
                · exact hne h
                · exact ih x List.mem_cons_self h
              · exact ih piece (List.mem_cons_of_mem x hpiece)

/-- What is read from a text are fields. -/
theorem field_of_mem (text x : List α) (hx : x ∈ s.fields text) : s.Field x := by
  unfold fields at hx
  rcases List.mem_filter.mp hx with ⟨hmap, hne⟩
  rcases List.mem_map.mp hmap with ⟨piece, hpiece, rfl⟩
  refine ⟨by simpa using hne, ?_, s.trim_trim piece⟩
  intro hsep
  exact s.sep_not_mem_splitOn text piece hpiece ((s.trim_sublist piece).subset hsep)

/-- Joined fields are read back. -/
theorem fields_join (xs : List (List α)) (h : ∀ x ∈ xs, s.Field x) :
    s.fields (s.join xs) = xs := by
  induction xs with
  | nil => rfl
  | cons x xs ih =>
      have hx := h x List.mem_cons_self
      have hrest := ih (fun y hy => h y (List.mem_cons_of_mem x hy))
      cases xs with
      | nil =>
          rw [join, List.intercalate_singleton]
          exact s.fields_field x hx
      | cons y ys =>
          have hjoin : s.join (x :: y :: ys) = x ++ s.sep :: s.gap :: s.join (y :: ys) := by
            rw [join, List.intercalate_cons_cons, join]
            simp
          rw [hjoin, fields_append, s.fields_field x hx, s.fields_space _ _ s.space_gap, hrest]
          rfl

/-- Joined pieces are read back exactly when they are fields. -/
theorem fields_join_iff (xs : List (List α)) :
    s.fields (s.join xs) = xs ↔ ∀ x ∈ xs, s.Field x := by
  constructor
  · intro h x hx
    rw [← h] at hx
    exact s.field_of_mem (s.join xs) x hx
  · exact s.fields_join xs

/-! ## Typing -/

/-- The character says nothing at the end of a text. -/
def dropped (c : α) : Bool := c == s.sep || s.space c

/-- One more character at the end of the text of some pieces. -/
def press (xs : List (List α)) (c : α) : List (List α) := s.fields (s.join xs ++ [c])

/-- The characters of a text, one at a time. -/
def type (xs : List (List α)) (text : List α) : List (List α) := text.foldl s.press xs

theorem type_snoc (xs : List (List α)) (text : List α) (c : α) :
    s.type xs (text ++ [c]) = s.press (s.type xs text) c := by
  rw [type, List.foldl_append, List.foldl_cons, List.foldl_nil, type]

/-- A separator or a space at the end of a text is lost. A space belongs to
    what comes after the last separator, so this goes by induction on the
    length, from one separator to the next. -/
theorem fields_snoc_dropped (text : List α) (c : α) (hc : s.dropped c = true) :
    s.fields (text ++ [c]) = s.fields text := by
  rcases Bool.or_eq_true_iff.mp hc with hsep | hspace
  · rw [eq_of_beq hsep, fields_append, fields_nil, List.append_nil]
  · induction hn : text.length using Nat.strong_induction_on generalizing text with
    | _ n ih =>
        by_cases hmem : s.sep ∈ text
        · rcases List.append_of_mem hmem with ⟨a, b, rfl⟩
          have hlt : b.length < n := by
            rw [← hn, List.length_append, List.length_cons]
            omega
          rw [List.append_assoc, List.cons_append, fields_append, ih b.length hlt b rfl,
            fields_append]
        · have hsnoc : s.sep ∉ text ++ [c] := by
            intro h
            rcases List.mem_append.mp h with h | h
            · exact hmem h
            · rw [← List.mem_singleton.mp h, s.space_sep] at hspace
              exact absurd hspace Bool.false_ne_true
          rw [fields_plain s _ hsnoc, fields_plain s _ hmem, s.trim_snoc text c hspace]

theorem fields_single (text : List α) (h : ∀ c ∈ text, s.dropped c = false) :
    s.fields text = single text := by
  have hparts : ∀ c ∈ text, c ≠ s.sep ∧ s.space c = false := by
    intro c hc
    have hdropped := h c hc
    rw [dropped, Bool.or_eq_false_iff] at hdropped
    exact ⟨by simpa using hdropped.1, hdropped.2⟩
  rw [fields_plain s text (fun hmem => (hparts _ hmem).1 rfl),
    s.trim_printed text (fun c hc => (hparts c hc).2)]

/-- Typing from no pieces keeps the characters that are not lost, in one
    piece. -/
theorem type_nil (text : List α) :
    s.type [] text = single (text.filter (fun c => !s.dropped c)) := by
  induction text using List.reverseRecOn with
  | nil => rfl
  | append_singleton text c ih =>
      have hkept : ∀ d ∈ text.filter (fun c => !s.dropped c), s.dropped d = false := by
        intro d hd
        simpa using (List.mem_filter.mp hd).2
      rw [type_snoc, ih, press, join_single, List.filter_append]
      cases hc : s.dropped c with
      | true =>
          rw [s.fields_snoc_dropped _ c hc, s.fields_single _ hkept]
          simp [hc]
      | false =>
          have hsnoc : ∀ d ∈ text.filter (fun c => !s.dropped c) ++ [c], s.dropped d = false := by
            intro d hd
            rcases List.mem_append.mp hd with hd | hd
            · exact hkept d hd
            · rw [List.mem_singleton.mp hd]
              exact hc
          rw [s.fields_single _ hsnoc]
          simp [hc]

/-- The lists that come out as they are typed: none, or one piece with no
    separator and no space in it. -/
theorem type_join_iff (xs : List (List α)) :
    s.type [] (s.join xs) = xs ↔
      xs = [] ∨ ∃ x, xs = [x] ∧ x ≠ [] ∧ ∀ c ∈ x, s.dropped c = false := by
  rw [type_nil]
  constructor
  · intro h
    by_cases hkept : (s.join xs).filter (fun c => !s.dropped c) = []
    · rw [hkept] at h
      exact .inl h.symm
    · rw [single_eq _ hkept] at h
      refine .inr ⟨_, h.symm, hkept, ?_⟩
      intro c hc
      simpa using (List.mem_filter.mp hc).2
  · rintro (rfl | ⟨x, rfl, hne, hx⟩)
    · rfl
    · have hkept : x.filter (fun c => !s.dropped c) = x := by
        rw [List.filter_eq_self]
        intro c hc
        rw [hx c hc]
        rfl
      rw [join_singleton, hkept, single_eq x hne]

end Style

end Separated
