import Mathlib.Data.List.Induction

/-!
# Observed Runs

A system given by a relation between a state, what is observed of a step, and
the next state. A run carries the list of its observations, oldest first, so
what happened before what is a statement about that list.

A run is extended at its end. `Steps.split` and `Steps.cut` take it apart
anywhere, which brings back the state the system was in at that point, and
`Steps.invariant` is induction along a run with the history at hand.

## Main definitions

* `Steps`: The runs of a system, with their observations.
* `Steps.gathered`: What is gathered along a history.
* `Throughout`: Every observation meets a condition on what was before.
* `Before`: One observation, and later another.

## Theorems

* `Steps.append`: Runs compose.
* `Steps.split`, `Steps.cut`: A run is cut between observations, or at one.
* `Steps.invariant`: What every step keeps holds along every run.
* `Steps.settled`: Observations that settle each step settle the run.
* `Steps.invariant_replicate`, `Steps.invariant_along`: What steps of one kind
  keep, and what those of one run do.
* `Steps.kept_iff`: What a step keeps only when it brings what it takes.
* `Steps.of_foldlM`: Runs of a partial function.
* `Steps.gathered_invariant`: What relates the state and what was gathered.
* `Steps.throughout_iff`: Two conditions that agree while the first holds.
* `Before.snoc`, `before_last`: Order of observations in a growing history.
-/

variable {σ ω : Type}

/-- The runs of a system, with what was observed of them. -/
inductive Steps (step : σ → ω → σ → Prop) : σ → List ω → σ → Prop
  | refl (s : σ) : Steps step s [] s
  | snoc (s : σ) (H : List ω) (t : σ) (o : ω) (u : σ) :
      Steps step s H t → step t o u → Steps step s (H ++ [o]) u

namespace Steps

variable {step : σ → ω → σ → Prop}

theorem single (s : σ) (o : ω) (t : σ) (h : step s o t) : Steps step s [o] t :=
  snoc s [] s o t (refl s) h

theorem append (s : σ) (H : List ω) (t : σ) (H' : List ω) (u : σ) (h : Steps step s H t)
    (h' : Steps step t H' u) : Steps step s (H ++ H') u := by
  induction h' with
  | refl =>
      rw [List.append_nil]
      exact h
  | snoc H' v o u _ hstep ih =>
      rw [← List.append_assoc]
      exact snoc s _ v o u ih hstep

theorem cons (s : σ) (o : ω) (t : σ) (H : List ω) (u : σ) (hstep : step s o t)
    (h : Steps step t H u) : Steps step s (o :: H) u :=
  append s [o] t H u (single s o t hstep) h

/-- The last step of a run. -/
theorem snoc_inv (s : σ) (H : List ω) (o : ω) (u : σ) (h : Steps step s (H ++ [o]) u) :
    ∃ t, Steps step s H t ∧ step t o u := by
  generalize hall : H ++ [o] = all at h
  cases h with
  | refl => exact absurd hall (by simp)
  | snoc H' t o' u hrun hstep =>
      rcases List.append_inj' hall rfl with ⟨hH, ho⟩
      cases ho
      cases hH
      exact ⟨t, hrun, hstep⟩

/-- A run is cut between any two of its observations. -/
theorem split (s : σ) (H H' : List ω) (u : σ) (h : Steps step s (H ++ H') u) :
    ∃ t, Steps step s H t ∧ Steps step t H' u := by
  -- By induction on the part that comes after the cut, from its end.
  induction H' using List.reverseRecOn generalizing u with
  | nil =>
      rw [List.append_nil] at h
      exact ⟨u, h, refl u⟩
  | append_singleton H' o ih =>
      rw [← List.append_assoc] at h
      rcases snoc_inv s (H ++ H') o u h with ⟨v, hrun, hstep⟩
      rcases ih v hrun with ⟨t, hpre, hpost⟩
      exact ⟨t, hpre, snoc t H' v o u hpost hstep⟩

/-- A run is cut at any of its observations. -/
theorem cut (s : σ) (H : List ω) (o : ω) (H' : List ω) (u : σ)
    (h : Steps step s (H ++ o :: H') u) :
    ∃ t t', Steps step s H t ∧ step t o t' ∧ Steps step t' H' u := by
  rw [List.append_cons] at h
  rcases split s (H ++ [o]) H' u h with ⟨t', hpre, hpost⟩
  rcases snoc_inv s H o t' hpre with ⟨t, hrun, hstep⟩
  exact ⟨t, t', hrun, hstep, hpost⟩

/-- What holds at the start and is kept by every step, given the history, holds
    along every run. -/
theorem invariant (J : List ω → σ → Prop) (s : σ) (hstart : J [] s)
    (hkeep : ∀ H t o u, Steps step s H t → J H t → step t o u → J (H ++ [o]) u)
    (H : List ω) (u : σ) (h : Steps step s H u) : J H u := by
  induction h with
  | refl => exact hstart
  | snoc H t o u hrun hstep ih => exact hkeep H t o u hrun ih hstep

/-- Where the observation settles a step, the observations settle a run. -/
theorem settled (hstep : ∀ t o u u', step t o u → step t o u' → u = u') (s : σ) (H : List ω)
    (u u' : σ) (h : Steps step s H u) (h' : Steps step s H u') : u = u' := by
  induction H using List.reverseRecOn generalizing u u' with
  | nil =>
      have hnil : ∀ v, Steps step s [] v → v = s := by
        intro v hv
        generalize hH : ([] : List ω) = H at hv
        cases hv with
        | refl => rfl
        | snoc => exact absurd hH (by simp)
      rw [hnil u h, hnil u' h']
  | append_singleton H o ih =>
      rcases snoc_inv s H o u h with ⟨t, hrun, hlast⟩
      rcases snoc_inv s H o u' h' with ⟨t', hrun', hlast'⟩
      rw [← ih t t' hrun hrun'] at hlast'
      exact hstep t o u u' hlast hlast'

/-- What observations of one kind keep holds along a run of them. -/
theorem invariant_replicate (Good : σ → Prop) (o : ω)
    (hkeep : ∀ t u, step t o u → Good t → Good u) (n : Nat) (s t : σ)
    (h : Steps step s (List.replicate n o) t) (hstart : Good s) : Good t := by
  refine invariant (fun H v => (∀ a ∈ H, a = o) → Good v) s (fun _ => hstart)
    (fun H v a x _ hgood hstep hall => ?_) _ t h (fun a ha => List.eq_of_mem_replicate ha)
  have ha := hall a (List.mem_append_right _ List.mem_cons_self)
  rw [ha] at hstep
  exact hkeep v x hstep (hgood (fun b hb => hall b (List.mem_append_left _ hb)))

/-- What the steps of one particular run keep holds at every moment of it. -/
theorem invariant_along (Good : σ → Prop) (s : σ) (hstart : Good s) (H : List ω)
    (hkeep : ∀ past o rest t u, H = past ++ o :: rest → Steps step s past t → step t o u →
      Good t → Good u) (past rest : List ω) (t : σ) (hH : H = past ++ rest)
    (hpast : Steps step s past t) : Good t := by
  -- By induction along the part of the run that leads to this moment.
  have hgood : (∃ rest, H = past ++ rest) → Good t := by
    refine invariant (fun past t => (∃ rest, H = past ++ rest) → Good t) s (fun _ => hstart)
      (fun A t o u hA hgood hlast hprefix => ?_) past t hpast
    rcases hprefix with ⟨after, hafter⟩
    rw [List.append_assoc, List.singleton_append] at hafter
    exact hkeep A o after t u hafter hA hlast (hgood ⟨_, hafter⟩)
  exact hgood ⟨rest, hH⟩

/-- What holds at the start is kept along a run if and only if every step brings
    what it takes, for steps which keep it exactly when they do. -/
theorem kept_iff (Good : σ → Prop) (Brings : List ω → σ → ω → Prop) (s : σ) (hstart : Good s)
    (hstep : ∀ past t o u, Steps step s past t → step t o u → Good t →
      (Good u ↔ Brings past t o)) (H : List ω) :
    (∀ past rest t, H = past ++ rest → Steps step s past t → Good t) ↔
      ∀ past o rest t u, H = past ++ o :: rest → Steps step s past t → step t o u →
        Brings past t o := by
  constructor
  · intro hgood past o rest t u hH hpast hlast
    refine (hstep past t o u hpast hlast (hgood past _ t hH hpast)).mp ?_
    exact hgood (past ++ [o]) rest u (by rw [hH]; simp) (snoc s past t o u hpast hlast)
  · intro hbrings
    refine invariant_along Good s hstart H (fun past o rest t u hH hpast hlast hgood => ?_)
    exact (hstep past t o u hpast hlast hgood).mpr (hbrings past o rest t u hH hpast hlast)

/-- Where a step is a partial function, following it along a list is a run. -/
theorem of_foldlM (f : σ → ω → Option σ) (s : σ) (H : List ω) (t : σ) (h : H.foldlM f s = some t) :
    Steps (fun s o t => f s o = some t) s H t := by
  induction H generalizing s with
  | nil =>
      cases h
      exact refl _
  | cons o H ih =>
      rw [List.foldlM_cons] at h
      rcases Option.bind_eq_some_iff.mp h with ⟨u, hu, hrest⟩
      exact cons s o u H t hu (ih u hrest)

/-- What is gathered along a history, from each observation and the state
    before it. -/
def gathered {β : Type} (next : σ → ω → Option σ) (gather : σ → ω → β → β) (s : σ) (first : β)
    (H : List ω) : σ × β :=
  H.foldl (fun p o => ((next p.1 o).getD p.1, gather p.1 o p.2)) (s, first)

/-- A relation between the state and what was gathered that every step keeps
    holds after every run. -/
theorem gathered_invariant {β : Type} (next : σ → ω → Option σ) (gather : σ → ω → β → β)
    (first : β) (I : σ → β → Prop) (s : σ) (hnext : ∀ t o u, step t o u → next t o = some u)
    (hfirst : I s first) (hkeep : ∀ t o u b, step t o u → I t b → I u (gather t o b))
    (H : List ω) (t : σ) (h : Steps step s H t) :
    (gathered next gather s first H).1 = t ∧ I t (gathered next gather s first H).2 := by
  refine invariant (fun H t => (gathered next gather s first H).1 = t ∧
    I t (gathered next gather s first H).2) s ⟨rfl, hfirst⟩ ?_ H t h
  rintro H t o u _ ⟨hstate, hgathered⟩ hlast
  unfold gathered at hstate hgathered ⊢
  rw [List.foldl_append, List.foldl_cons, List.foldl_nil, hstate, hnext t o u hlast]
  exact ⟨rfl, hkeep t o u _ hlast hgathered⟩

end Steps

/-! ## Conditions on each observation -/

/-- Every observation of a history meets a condition on what was before it. -/
def Throughout (Q : List ω → ω → Prop) (H : List ω) : Prop :=
  ∀ A o C, H = A ++ o :: C → Q A o

theorem throughout_nil (Q : List ω → ω → Prop) : Throughout Q [] := by
  intro A o C hall
  exact absurd hall (by simp)

/-- A condition each observation meets whatever was before it. -/
theorem throughout_of_forall (Q : List ω → ω → Prop) (H : List ω) (h : ∀ o ∈ H, ∀ A, Q A o) :
    Throughout Q H := by
  rintro A o C rfl
  exact h o (List.mem_append_right A List.mem_cons_self) A

theorem throughout_snoc (Q : List ω → ω → Prop) (H : List ω) (o : ω) :
    Throughout Q (H ++ [o]) ↔ Throughout Q H ∧ Q H o := by
  constructor
  · intro h
    refine ⟨fun A a C hall => h A a (C ++ [o]) ?_, h H o [] rfl⟩
    rw [hall, List.append_assoc, List.cons_append]
  · rintro ⟨hbefore, hlast⟩ A a C hall
    rcases List.eq_nil_or_concat C with rfl | ⟨C, c, rfl⟩
    · rcases List.append_inj' hall rfl with ⟨rfl, ho⟩
      cases ho
      exact hlast
    · have hsplit : H ++ [o] = (A ++ a :: C) ++ [c] := by
        rw [hall, List.append_assoc, List.cons_append, List.concat_eq_append]
      exact hbefore A a C (List.append_inj' hsplit rfl).1

/-- Two conditions that come to the same while the first has held come to the
    same throughout. -/
theorem Steps.throughout_iff {step : σ → ω → σ → Prop} (Q R : List ω → ω → Prop)
    (J : List ω → σ → Prop) (s : σ) (hstart : J [] s)
    (hkeep : ∀ H t o u, Steps step s H t → J H t → step t o u →
      (Q H o ↔ R H o) ∧ (Q H o → J (H ++ [o]) u))
    (H : List ω) (u : σ) (h : Steps step s H u) : Throughout Q H ↔ Throughout R H := by
  have hboth : (Throughout Q H ↔ Throughout R H) ∧ (Throughout Q H → J H u) := by
    induction h with
    | refl => exact ⟨iff_of_true (throughout_nil Q) (throughout_nil R), fun _ => hstart⟩
    | snoc H t o u hrun hstep ih =>
        rw [throughout_snoc, throughout_snoc]
        have hlast := fun hQ => hkeep H t o u hrun (ih.2 hQ) hstep
        refine ⟨⟨fun h => ⟨ih.1.mp h.1, (hlast h.1).1.mp h.2⟩, fun h => ?_⟩,
          fun h => (hlast h.1).2 h.2⟩
        have hQ := ih.1.mpr h.1
        exact ⟨hQ, (hlast hQ).1.mpr h.2⟩
  exact hboth.1

/-- In the history `H` there is `a`, and later `b`. -/
def Before (a b : ω) (H : List ω) : Prop := ∃ A B C, H = A ++ a :: (B ++ b :: C)

theorem Before.snoc (a b : ω) (H : List ω) (o : ω) (h : Before a b H) : Before a b (H ++ [o]) := by
  rcases h with ⟨A, B, C, rfl⟩
  exact ⟨A, B, C ++ [o], by simp⟩

theorem before_last (a : ω) (H : List ω) (b : ω) (h : a ∈ H) : Before a b (H ++ [b]) := by
  rcases List.append_of_mem h with ⟨A, B, rfl⟩
  exact ⟨A, B, [], by simp⟩
