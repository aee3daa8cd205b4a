import Mathlib.Data.List.Infix
import Mathlib.Tactic.Common

/-!
# Quoted Texts

A text between two quotes, in which a quote is written twice and every other
character stands for itself. A reader takes it off the front of a longer text:
it goes on through doubled quotes and stops at the first quote that is not
followed by another one.

The reader takes off exactly what the writer wrote, as long as no quote
follows, and it takes off nothing else. So a quoted text can be put in front of
any text that does not begin with a quote, whatever it quotes.

## Main definitions

* `Quoted.quote`: The writer.
* `Quoted.scan`: The reader, with the text that is left over.

## Theorems

* `Quoted.scan_quote`: What was written is taken off.
* `Quoted.scan_eq_some_iff`: Nothing else is.
* `Quoted.scan_shorter`: Reading on ends.
-/

namespace Quoted

variable {α : Type} [DecidableEq α] (q : α)

/-- The text with its quotes doubled. -/
def double (s : List α) : List α := s.flatMap (fun c => if c = q then [q, q] else [c])

/-- The text between quotes. -/
def quote (s : List α) : List α := q :: (double q s ++ [q])

/-- What comes before the closing quote, and what comes after it. -/
def body : List α → Option (List α × List α)
  | [] => none
  | [c] => if c = q then some ([], []) else none
  | c :: d :: rest =>
      if c = q then
        if d = q then (body rest).map (fun r => (q :: r.1, r.2)) else some ([], d :: rest)
      else (body (d :: rest)).map (fun r => (c :: r.1, r.2))

/-- The text that is quoted at the front, and what comes after it. -/
def scan : List α → Option (List α × List α)
  | [] => none
  | c :: rest => if c = q then body q rest else none

theorem double_cons (c : α) (s : List α) :
    double q (c :: s) = (if c = q then [q, q] else [c]) ++ double q s := List.flatMap_cons

/-- The closing quote ends the text when no other one follows. -/
theorem body_close (rest : List α) (h : rest.head? ≠ some q) :
    body q (q :: rest) = some ([], rest) := by
  cases rest with
  | nil => rw [body, if_pos rfl]
  | cons d rest =>
      have hd : d ≠ q := fun hd => h (by rw [hd]; rfl)
      rw [body, if_pos rfl, if_neg hd]

theorem body_doubled (rest : List α) :
    body q (q :: q :: rest) = (body q rest).map (fun r => (q :: r.1, r.2)) := by
  rw [body, if_pos rfl, if_pos rfl]

theorem body_plain (c : α) (rest : List α) (hc : c ≠ q) :
    body q (c :: rest) = (body q rest).map (fun r => (c :: r.1, r.2)) := by
  cases rest with
  | nil =>
      have hnone : body q [c] = none := by rw [body, if_neg hc]
      rw [hnone]
      rfl
  | cons d rest => rw [body, if_neg hc]

theorem body_double (s rest : List α) (h : rest.head? ≠ some q) :
    body q (double q s ++ q :: rest) = some (s, rest) := by
  induction s with
  | nil => exact body_close q rest h
  | cons c s ih =>
      rw [double_cons, List.append_assoc]
      by_cases hc : c = q
      · rw [if_pos hc, List.cons_append, List.cons_append, List.nil_append, body_doubled, ih, hc]
        rfl
      · rw [if_neg hc, List.singleton_append, body_plain q c _ hc, ih]
        rfl

/-- What was written is taken off, whatever follows but a quote. -/
theorem scan_quote (s rest : List α) (h : rest.head? ≠ some q) :
    scan q (quote q s ++ rest) = some (s, rest) := by
  rw [quote, List.cons_append, scan, if_pos rfl, List.append_assoc, List.singleton_append]
  exact body_double q s rest h

/-- What is read is what would have been written. The cases are those of the
    reader, so a doubled quote takes two characters at once. -/
theorem body_some (text s rest : List α) (h : body q text = some (s, rest)) :
    text = double q s ++ q :: rest ∧ rest.head? ≠ some q := by
  induction text using body.induct q generalizing s rest with
  | case1 => exact absurd h (by simp [body])
  | case2 =>
      rw [body, if_pos rfl] at h
      cases h
      exact ⟨rfl, by simp⟩
  | case3 c hc =>
      rw [body, if_neg hc] at h
      exact absurd h (by simp)
  | case4 tail ih =>
      rw [body_doubled, Option.map_eq_some_iff] at h
      rcases h with ⟨r, hr, heq⟩
      cases heq
      rcases ih r.1 r.2 hr with ⟨htail, hhead⟩
      refine ⟨?_, hhead⟩
      rw [double_cons, if_pos rfl, htail]
      rfl
  | case5 d tail hd =>
      rw [body, if_pos rfl, if_neg hd] at h
      cases h
      refine ⟨rfl, ?_⟩
      rw [List.head?_cons]
      exact fun heq => hd (Option.some.inj heq)
  | case6 c d tail hc ih =>
      rw [body_plain q c _ hc, Option.map_eq_some_iff] at h
      rcases h with ⟨r, hr, heq⟩
      cases heq
      rcases ih r.1 r.2 hr with ⟨htail, hhead⟩
      refine ⟨?_, hhead⟩
      rw [double_cons, if_neg hc, htail]
      rfl

/-- The reader takes off what the writer wrote and nothing else. -/
theorem scan_eq_some_iff (text s rest : List α) :
    scan q text = some (s, rest) ↔ text = quote q s ++ rest ∧ rest.head? ≠ some q := by
  constructor
  · intro h
    cases text with
    | nil => exact absurd h (by simp [scan])
    | cons c text =>
        rw [scan] at h
        by_cases hc : c = q
        · rw [if_pos hc] at h
          rcases body_some q text s rest h with ⟨htext, hhead⟩
          refine ⟨?_, hhead⟩
          rw [htext, hc, quote, List.cons_append, List.append_assoc]
          rfl
        · rw [if_neg hc] at h
          exact absurd h (by simp)
  · rintro ⟨rfl, h⟩
    exact scan_quote q s rest h

/-- What is left over is shorter. -/
theorem scan_shorter (text s rest : List α) (h : scan q text = some (s, rest)) :
    rest.length < text.length := by
  rw [((scan_eq_some_iff q text s rest).mp h).1, List.length_append, quote, List.length_cons]
  omega

end Quoted
