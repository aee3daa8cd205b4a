import Mathlib.Data.List.Infix
import Mathlib.Tactic.Common

/-!
# Patterns with Wildcards

The pattern language of the `LIKE` operator, over an arbitrary alphabet. A
pattern is a text in which two characters are wildcards, one for any number of
characters and one for a single character, and a third takes the character
after it literally. A pattern that ends in a lone escape is none.

Wrapping a text between two wildcards is the usual way to search for it, and
it does search for it exactly when the text is plain, that is, has none of the
three characters. Otherwise the pattern accepts a text no longer than the one
searched for that is different from it, so does not contain it.

Matching up to case folds the pattern and the text first. What is needed of the
folding is that it keeps the three characters and turns nothing else into them.

## Main definitions

* `Like.Meta`: The three characters.
* `Like.Token`, `Like.tokens`: A pattern, taken apart.
* `Like.accepts`: The texts a pattern stands for.
* `Like.matchesFold`: Matching up to a folding.
* `Like.Plain`: The texts without any of the three characters.

## Theorems

* `Like.accepts_infix`: A literal between two wildcards is a search.
* `Like.sample_tokens`: A short text that a wrapped pattern accepts.
* `Like.matchesFold_plain`: Wrapping searches for a plain text.
* `Like.exists_mismatch`: It does not search for any other.
-/

namespace Like

variable {α : Type}

/-- The characters of a pattern with a meaning of their own. -/
structure Meta (α : Type) where
  any : α
  one : α
  escape : α
  any_ne_one : any ≠ one
  any_ne_escape : any ≠ escape
  one_ne_escape : one ≠ escape

inductive Token (α : Type) where
  | any
  | one
  | lit (a : α)
  deriving DecidableEq, Repr

/-- The text has none of the characters with a meaning. -/
def Plain (m : Meta α) (s : List α) : Prop :=
  ∀ c ∈ s, c ≠ m.any ∧ c ≠ m.one ∧ c ≠ m.escape

section Patterns

variable [DecidableEq α] (m : Meta α)

/-- What an unescaped character stands for. -/
def tokenOf (c : α) : Token α :=
  if c = m.any then .any else if c = m.one then .one else .lit c

/-- The tokens of a pattern; there are none when it ends in a lone escape. -/
def tokens : List α → Option (List (Token α))
  | [] => some []
  | [c] => if c = m.escape then none else some [tokenOf m c]
  | c :: d :: rest =>
      if c = m.escape then (tokens rest).map (.lit d :: ·)
      else (tokens (d :: rest)).map (tokenOf m c :: ·)

/-- Whether a pattern stands for a text. -/
def accepts : List (Token α) → List α → Bool
  | [], t => t.isEmpty
  | .any :: p, t => t.tails.any (accepts p)
  | .one :: p, t => match t with
    | [] => false
    | _ :: rest => accepts p rest
  | .lit a :: p, t => match t with
    | [] => false
    | b :: rest => a == b && accepts p rest

/-- Whether a text matches a pattern, both folded first. -/
def matchesFold (fold : α → α) (pattern text : List α) : Bool :=
  match tokens m (pattern.map fold) with
  | some p => accepts p (text.map fold)
  | none => false

/-- A text a pattern stands for: nothing for the long wildcard, `x` for the
    short one. -/
def sample (x : α) : List (Token α) → List α
  | [] => []
  | .any :: p => sample x p
  | .one :: p => x :: sample x p
  | .lit a :: p => a :: sample x p

/-- The pattern that is to search for a text. -/
def wrap (s : List α) : List α := m.any :: s ++ [m.any]

/-! ## Acceptance -/

theorem accepts_any (p : List (Token α)) (t : List α) :
    accepts (.any :: p) t = true ↔ ∃ u v, t = u ++ v ∧ accepts p v = true := by
  rw [accepts, List.any_eq_true]
  constructor
  · rintro ⟨v, hv, hp⟩
    rcases (List.mem_tails v t).mp hv with ⟨u, hu⟩
    exact ⟨u, v, hu.symm, hp⟩
  · rintro ⟨u, v, rfl, hp⟩
    exact ⟨v, (List.mem_tails v _).mpr (List.suffix_append u v), hp⟩

/-- A run of literals accepts itself, followed by what the rest accepts. -/
theorem accepts_lits (s : List α) (p : List (Token α)) (t : List α) :
    accepts (s.map .lit ++ p) t = true ↔ ∃ v, t = s ++ v ∧ accepts p v = true := by
  induction s generalizing t with
  | nil => simp
  | cons a s ih =>
      rw [List.map_cons, List.cons_append]
      cases t with
      | nil => simp [accepts]
      | cons b t =>
          rw [accepts, Bool.and_eq_true, beq_iff_eq, ih]
          constructor
          · rintro ⟨rfl, v, rfl, hp⟩
            exact ⟨v, rfl, hp⟩
          · rintro ⟨v, hv, hp⟩
            rcases List.cons.inj hv with ⟨rfl, rfl⟩
            exact ⟨rfl, v, rfl, hp⟩

/-- A literal between two wildcards stands for the texts that contain it. -/
theorem accepts_infix (s t : List α) :
    accepts (.any :: (s.map .lit ++ [.any])) t = true ↔ s <:+: t := by
  have hlast : ∀ v : List α, accepts [.any] v = true := fun v =>
    (accepts_any [] v).mpr ⟨v, [], by simp, rfl⟩
  rw [accepts_any]
  constructor
  · rintro ⟨u, v, rfl, hv⟩
    rcases (accepts_lits s _ v).mp hv with ⟨w, rfl, _⟩
    exact ⟨u, w, by rw [List.append_assoc]⟩
  · rintro ⟨u, w, rfl⟩
    refine ⟨u, s ++ w, by rw [List.append_assoc], ?_⟩
    exact (accepts_lits s _ _).mpr ⟨w, rfl, hlast w⟩

/-! ## Tokens -/

variable {m}

theorem tokens_cons (c : α) (rest : List α) (hc : c ≠ m.escape) :
    tokens m (c :: rest) = (tokens m rest).map (tokenOf m c :: ·) := by
  cases rest with
  | nil => simp only [tokens, if_neg hc, Option.map_some]
  | cons d rest => rw [tokens, if_neg hc]

theorem tokens_escape (d : α) (rest : List α) :
    tokens m (m.escape :: d :: rest) = (tokens m rest).map (.lit d :: ·) := by
  rw [tokens, if_pos rfl]

theorem tokenOf_any : tokenOf m m.any = .any := if_pos rfl

theorem tokens_any : tokens m [m.any] = some [.any] := by
  rw [tokens_cons m.any [] m.any_ne_escape, tokenOf_any]
  rfl

theorem tokens_wrap (s : List α) :
    tokens m (wrap m s) = (tokens m (s ++ [m.any])).map (.any :: ·) := by
  rw [wrap, List.cons_append, tokens_cons m.any _ m.any_ne_escape, tokenOf_any]

/-- A plain text stands for itself. -/
theorem tokens_plain (s rest : List α) (hs : Plain m s) :
    tokens m (s ++ rest) = (tokens m rest).map (s.map .lit ++ ·) := by
  induction s with
  | nil => simp
  | cons c s ih =>
      rcases hs c List.mem_cons_self with ⟨hany, hone, hescape⟩
      have hlit : tokenOf m c = .lit c := by
        rw [tokenOf, if_neg hany, if_neg hone]
      rw [List.cons_append, tokens_cons c _ hescape, hlit,
        ih (fun d hd => hs d (List.mem_cons_of_mem c hd)), Option.map_map]
      rfl

theorem accepts_sample (x : α) (p : List (Token α)) : accepts p (sample x p) = true := by
  induction p with
  | nil => rfl
  | cons token p ih =>
      cases token with
      | any => exact (accepts_any p _).mpr ⟨[], sample x p, rfl, ih⟩
      | one => exact ih
      | lit a => rw [sample, accepts, beq_self_eq_true, ih, Bool.and_self]

omit [DecidableEq α] in
theorem sample_ne_cons (x : α) (p : List (Token α)) (c : α) (s : List α)
    (hshort : (sample x p).length ≤ s.length) : sample x p ≠ c :: s := by
  intro heq
  rw [heq, List.length_cons] at hshort
  omega

/-- With a wildcard at the end every text is a pattern. The sample of it is no
    longer than the text, and is the text only when that is plain: a wildcard
    or an escape shortens the sample or changes a character of it. -/
theorem sample_tokens (x : α) (hx : x ≠ m.one) (s : List α) :
    ∃ p, tokens m (s ++ [m.any]) = some p ∧ (sample x p).length ≤ s.length ∧
      (sample x p = s → Plain m s) := by
  -- On the length, since an escape takes two characters at once.
  induction hn : s.length using Nat.strong_induction_on generalizing s with
  | _ n ih =>
    cases s with
    | nil => exact ⟨[.any], tokens_any, by simp [sample], fun _ => by simp [Plain]⟩
    | cons c rest =>
        by_cases hescape : c = m.escape
        · subst hescape
          cases rest with
          | nil =>
              -- The escape takes the closing wildcard.
              refine ⟨[.lit m.any], ?_, by simp [sample, ← hn], fun heq => ?_⟩
              · rw [List.cons_append, List.nil_append, tokens_escape]
                rfl
              · exact absurd (List.cons.inj heq).1 m.any_ne_escape
          | cons d rest =>
              have hshort : rest.length < n := by
                rw [← hn, List.length_cons, List.length_cons]
                omega
              rcases ih rest.length hshort rest rfl with ⟨p, hp, hlen, _⟩
              refine ⟨.lit d :: p, ?_, ?_, fun heq => ?_⟩
              · rw [List.cons_append, List.cons_append, tokens_escape, hp]
                rfl
              · rw [← hn, sample, List.length_cons, List.length_cons, List.length_cons]
                omega
              · refine absurd heq (sample_ne_cons x (.lit d :: p) m.escape (d :: rest) ?_)
                rw [sample, List.length_cons, List.length_cons]
                omega
        · rcases ih rest.length (by simp [← hn]) rest rfl with ⟨p, hp, hlen, hplain⟩
          have htokens : tokens m (c :: rest ++ [m.any]) = some (tokenOf m c :: p) := by
            rw [List.cons_append, tokens_cons c _ hescape, hp]
            rfl
          refine ⟨tokenOf m c :: p, htokens, ?_, ?_⟩
          all_goals unfold tokenOf
          · split
            · rw [← hn, sample, List.length_cons]
              omega
            · split <;> rw [← hn, sample, List.length_cons, List.length_cons] <;> omega
          · by_cases hany : c = m.any
            · rw [if_pos hany]
              exact fun heq => absurd heq (sample_ne_cons x p c rest hlen)
            rw [if_neg hany]
            by_cases hone : c = m.one
            · rw [if_pos hone]
              exact fun heq => absurd ((List.cons.inj heq).1.trans hone) hx
            · rw [if_neg hone]
              intro heq d hd
              rcases List.mem_cons.mp hd with rfl | hd
              · exact ⟨hany, hone, hescape⟩
              · exact hplain (List.cons.inj heq).2 d hd

/-! ## Folding -/

/-- A token with its literal folded. -/
def Token.map (fold : α → α) : Token α → Token α
  | any => any
  | one => one
  | lit a => lit (fold a)

variable (m)

/-- The folding keeps the characters with a meaning, and turns no other into
    one of them. -/
structure KeepsMeta (fold : α → α) : Prop where
  any : ∀ c, fold c = m.any ↔ c = m.any
  one : ∀ c, fold c = m.one ↔ c = m.one
  escape : ∀ c, fold c = m.escape ↔ c = m.escape

variable {m} (fold : α → α) (hfold : KeepsMeta m fold)

include hfold

omit [DecidableEq α] in
theorem plain_map (s : List α) : Plain m (s.map fold) ↔ Plain m s := by
  unfold Plain
  rw [List.forall_mem_map]
  simp only [ne_eq, hfold.any, hfold.one, hfold.escape]

theorem tokenOf_map (c : α) : tokenOf m (fold c) = (tokenOf m c).map fold := by
  unfold tokenOf
  simp only [hfold.any, hfold.one]
  split
  · rfl
  · split <;> rfl

/-- Folding before or after a pattern is taken apart is the same. -/
theorem tokens_map (s : List α) :
    tokens m (s.map fold) = (tokens m s).map (List.map (Token.map fold)) := by
  induction s using tokens.induct m with
  | case1 => rfl
  | case2 => simp [tokens, (hfold.escape m.escape).mpr rfl]
  | case3 c hc => simp [tokens, hfold.escape, hc, tokenOf_map fold hfold]
  | case4 d rest ih =>
      rw [List.map_cons, List.map_cons, (hfold.escape m.escape).mpr rfl, tokens_escape,
        tokens_escape, ih, Option.map_map, Option.map_map]
      rfl
  | case5 c d rest hc ih =>
      have hc' : fold c ≠ m.escape := fun heq => hc ((hfold.escape c).mp heq)
      rw [List.map_cons, tokens_cons _ _ hc', tokens_cons _ _ hc, ih, Option.map_map,
        Option.map_map, tokenOf_map fold hfold]
      rfl

omit hfold [DecidableEq α] in
theorem sample_map (x : α) (p : List (Token α)) :
    (sample x p).map fold = sample (fold x) (p.map (Token.map fold)) := by
  induction p with
  | nil => rfl
  | cons token p ih => cases token <;> simp [sample, Token.map, ih]

omit [DecidableEq α] in
/-- A text contained in a plain one is plain. -/
theorem plain_of_infix (s t : List α) (hpart : s.map fold <:+: t.map fold) (ht : Plain m t) :
    Plain m s := by
  rw [← plain_map fold hfold] at ht ⊢
  exact fun c hc => ht c (hpart.mem hc)

omit [DecidableEq α] in
theorem map_wrap (s : List α) : (wrap m s).map fold = wrap m (s.map fold) := by
  simp [wrap, (hfold.any m.any).mpr rfl]

/-- Wrapping a plain text between wildcards searches for it. -/
theorem matchesFold_plain (s : List α) (hs : Plain m s) (t : List α) :
    matchesFold m fold (wrap m s) t = true ↔ s.map fold <:+: t.map fold := by
  have htokens := tokens_plain (s.map fold) [m.any] ((plain_map fold hfold s).mpr hs)
  rw [tokens_any] at htokens
  rw [matchesFold, map_wrap fold hfold, tokens_wrap, htokens]
  exact accepts_infix (s.map fold) (t.map fold)

/-- A text that is not plain, wrapped between wildcards, matches one that does
    not contain it. -/
theorem exists_mismatch (x : α) (hx : Plain m [x]) (s : List α) (hs : ¬ Plain m s) :
    ∃ t, t ≠ [] ∧ matchesFold m fold (wrap m s) t = true ∧ ¬ s.map fold <:+: t.map fold := by
  have hone : x ≠ m.one := (hx x List.mem_cons_self).2.1
  have hfolded : fold x ≠ m.one := fun heq => hone ((hfold.one x).mp heq)
  rcases sample_tokens (fold x) hfolded (s.map fold) with ⟨p, hp, hlen, hplain⟩
  have hmatch : ∀ t, matchesFold m fold (wrap m s) t = accepts (.any :: p) (t.map fold) := by
    intro t
    rw [matchesFold, map_wrap fold hfold, tokens_wrap, hp]
    rfl
  by_cases hempty : sample (fold x) p = []
  · -- Such a pattern is all wildcards, and accepts every text.
    have hnil := accepts_sample (fold x) p
    rw [hempty] at hnil
    refine ⟨[x], List.cons_ne_nil _ _, ?_, fun hpart => hs ?_⟩
    · rw [hmatch]
      exact (accepts_any p _).mpr ⟨[fold x], [], rfl, hnil⟩
    · exact plain_of_infix fold hfold s [x] hpart hx
  · -- The sample is too short to contain the text without being it.
    rcases sample_tokens x hone s with ⟨q, hq, _, _⟩
    have hpq : p = q.map (Token.map fold) := by
      have hmap := tokens_map fold hfold (s ++ [m.any])
      rw [hq, List.map_append, List.map_singleton, (hfold.any m.any).mpr rfl, hp] at hmap
      exact Option.some.inj hmap
    have hsample : (sample x q).map fold = sample (fold x) p := by
      rw [hpq, sample_map fold x q]
    refine ⟨sample x q, fun heq => hempty ?_, ?_, fun hpart => hs ?_⟩
    · rw [← hsample, heq, List.map_nil]
    · rw [hmatch, hsample]
      exact (accepts_any p _).mpr ⟨[], _, rfl, accepts_sample (fold x) p⟩
    · rw [hsample] at hpart
      have heq := hpart.eq_of_length (le_antisymm hpart.length_le hlen)
      exact (plain_map fold hfold s).mp (hplain heq.symm)

end Patterns

end Like
