import Cuttlegate.Sdk.PlainClients
import Mathlib.Tactic.SplitIfs

/-!
# The Defaults of the Go Client

`Config.Defaults` says that the client returns the defaults instead of an error
when the server cannot be reached, takes too long or answers with a 5xx status.

The defaults are put in place of an error by `EvaluateAll` alone, and of every
error but a refused token. The methods for a single flag return the error
instead. So the methods agree exactly when there is nothing to replace: when no
defaults are configured, the token is refused or the request succeeds.

## Main definitions

* `Go.Refused`, `Go.Succeeds`, `Go.Covered`: Kinds of outcomes.
* `Go.MethodsAgree`: The methods for a single flag agree with `EvaluateAll`.
* `Go.AsDocumented`: The defaults are returned when they are said to be.

## Theorems

* `Go.evaluateAll_eq_iff`: When the defaults play no part.
* `Go.methodsAgree_iff`, `Go.asDocumented_iff`: When the two hold.
* `Go.defaults_iff`: When both do.
-/

namespace Cuttlegate.Sdk.Go

/-- The server refuses the token. -/
def Refused (o : Outcome) : Prop := ∃ body, o = .answered 401 body ∨ o = .answered 403 body

/-- The server answers with flags. -/
def Succeeds (o : Outcome) : Prop := ∃ r, o = .answered 200 (.decoded r)

/-- The outcomes for which `Config.Defaults` promises the defaults. -/
def Covered : Outcome → Prop
  | .unreachable => True
  | .timedOut => True
  | .answered status body =>
      500 ≤ status ∧ status < 600 ∨ status = 200 ∧ body = .interrupted

/-- What `EvaluateAll` has for a flag. -/
def pick (all : Except ClientErr (Cache String)) (key : String) :
    Except ClientErr (EvalResult String) := do
  match (← all) key with
  | some r => .ok r
  | none => .error (.flagNotFound key)

/-- The methods for a single flag give what `EvaluateAll` has for it. -/
structure MethodsAgree (defaults : List (String × FlagDefault)) (o : Outcome) : Prop where
  evaluate : ∀ key, evaluate o.reply key = pick (evaluateAll defaults o.reply) key
  bool : ∀ key, bool o.reply key =
    (pick (evaluateAll defaults o.reply) key).map (fun r => r.variant == "true")
  string : ∀ key, string o.reply key =
    (pick (evaluateAll defaults o.reply) key).map (fun r => r.variant)
  evaluateFlag : ∀ key, evaluateFlag o.reply key =
    (evaluateAll defaults o.reply).map (fun all => flagResult (all key))

/-- The defaults are returned when there are some and the outcome is one they
    are promised for. Otherwise the request speaks for itself. -/
structure AsDocumented (defaults : List (String × FlagDefault)) (o : Outcome) : Prop where
  covered : Covered o → defaults ≠ [] →
    evaluateAll defaults o.reply = .ok (defaultResults defaults)
  returned : ¬ (Covered o ∧ defaults ≠ []) → evaluateAll defaults o.reply = doBulkEval o.reply

/-- Only a refused token is reported as one. -/
theorem doBulkEval_auth (status : Nat) (body : Option BulkResponse) (code : Nat)
    (h : doBulkEval (.answered status body) = .error (.auth code)) :
    status = 401 ∨ status = 403 := by
  by_contra hother
  cases body with
  | none =>
      simp only [doBulkEval, if_neg hother] at h
      split_ifs at h <;> exact absurd h (by simp)
  | some r =>
      simp only [doBulkEval, if_neg hother] at h
      split_ifs at h <;> exact absurd h (by simp)

section Outcomes

variable (defaults : List (String × FlagDefault)) (o : Outcome)

/-- A request brings flags exactly when it succeeds. -/
theorem doBulkEval_ok_iff : (∃ found, doBulkEval o.reply = .ok found) ↔ Succeeds o := by
  constructor
  · rintro ⟨found, h⟩
    cases o with
    | unreachable => exact absurd h (by simp [Outcome.reply, doBulkEval])
    | timedOut => exact absurd h (by simp [Outcome.reply, doBulkEval])
    | answered status body =>
        cases body with
        | decoded r =>
            simp only [Outcome.reply, doBulkEval] at h
            split_ifs at h with h401 h404 h500 h200
            exact ⟨r, by rw [not_not.mp h200]⟩
        | undecodable =>
            simp only [Outcome.reply, doBulkEval] at h
            split_ifs at h
        | interrupted =>
            simp only [Outcome.reply, doBulkEval] at h
            split_ifs at h
  · rintro ⟨r, rfl⟩
    exact ⟨results r, rfl⟩

/-- The token is refused exactly when the request says so. -/
theorem doBulkEval_auth_iff :
    (∃ status, doBulkEval o.reply = .error (.auth status)) ↔ Refused o := by
  constructor
  · rintro ⟨code, h⟩
    cases o with
    | unreachable => exact absurd h (by simp [Outcome.reply, doBulkEval])
    | timedOut => exact absurd h (by simp [Outcome.reply, doBulkEval])
    | answered status body =>
        have hstatus : status = 401 ∨ status = 403 := by
          cases body with
          | decoded r => exact doBulkEval_auth status (some r) code h
          | undecodable | interrupted => exact doBulkEval_auth status none code h
        rcases hstatus with rfl | rfl
        · exact ⟨body, .inl rfl⟩
        · exact ⟨body, .inr rfl⟩
  · rintro ⟨body, rfl | rfl⟩
    · exact ⟨401, by cases body <;> rfl⟩
    · exact ⟨403, by cases body <;> rfl⟩

/-- What takes the place of an error that is not a refused token. -/
theorem evaluateAll_error (e : ClientErr) (h : doBulkEval o.reply = .error e)
    (hauth : ¬ Refused o) (hsome : defaults ≠ []) :
    evaluateAll defaults o.reply = .ok (defaultResults defaults) := by
  have hpos : defaults.length > 0 := List.length_pos_iff.mpr hsome
  rw [evaluateAll, h]
  cases e with
  | auth status => exact absurd ((doBulkEval_auth_iff o).mp ⟨status, h⟩) hauth
  | request | projectNotFound | server | unexpected | decode | flagNotFound => exact if_pos hpos

/-- The defaults play no part exactly when there are none, the token is refused
    or the request succeeds. -/
theorem evaluateAll_eq_iff :
    evaluateAll defaults o.reply = doBulkEval o.reply ↔
      defaults = [] ∨ Refused o ∨ Succeeds o := by
  cases hreply : doBulkEval o.reply with
  | ok found =>
      refine iff_of_true ?_ (.inr (.inr ((doBulkEval_ok_iff o).mp ⟨found, hreply⟩)))
      rw [evaluateAll, hreply]
  | error e =>
      have hfails : ¬ Succeeds o := fun hok => by
        rcases (doBulkEval_ok_iff o).mpr hok with ⟨found, hfound⟩
        exact absurd (hreply.symm.trans hfound) (by simp)
      constructor
      · intro heq
        by_contra hnone
        rw [not_or, not_or] at hnone
        rw [evaluateAll_error defaults o e hreply hnone.2.1 hnone.1] at heq
        exact absurd heq (by simp)
      · rintro (rfl | hrefused | hok)
        · rw [evaluateAll, hreply]
          cases e <;> rfl
        · rcases (doBulkEval_auth_iff o).mpr hrefused with ⟨status, hstatus⟩
          cases hreply.symm.trans hstatus
          rw [evaluateAll, hreply]
        · exact absurd hok hfails

/-- The methods for a single flag look it up in what the request brings. -/
theorem methodsAgree_of_eq (h : evaluateAll defaults o.reply = doBulkEval o.reply) :
    MethodsAgree defaults o where
  evaluate key := by rw [h]; rfl
  bool key := by
    rw [h, bool]
    change (pick (doBulkEval o.reply) key >>= _) = _
    cases pick (doBulkEval o.reply) key <;> rfl
  string key := by
    rw [h, string]
    change (pick (doBulkEval o.reply) key >>= _) = _
    cases pick (doBulkEval o.reply) key <;> rfl
  evaluateFlag key := by
    rw [h, evaluateFlag]
    cases doBulkEval o.reply <;> rfl

/-- The methods agree exactly when the defaults play no part. -/
theorem methodsAgree_iff :
    MethodsAgree defaults o ↔ evaluateAll defaults o.reply = doBulkEval o.reply := by
  refine ⟨fun hagree => ?_, methodsAgree_of_eq defaults o⟩
  -- `EvaluateFlag` fails for no key but where the request does.
  have hflag := hagree.evaluateFlag ""
  cases hreply : doBulkEval o.reply with
  | ok found => rw [evaluateAll, hreply]
  | error e =>
      rw [evaluateFlag, hreply] at hflag
      cases hall : evaluateAll defaults o.reply with
      | ok all =>
          rw [hall] at hflag
          exact absurd hflag (by simp [bind, Except.bind, Except.map])
      | error e' =>
          rw [hall] at hflag
          cases hflag
          rfl

/-- The documentation is kept exactly when, in addition, the request fails in a
    way it speaks of. -/
theorem asDocumented_iff :
    AsDocumented defaults o ↔ defaults = [] ∨ Refused o ∨ Succeeds o ∨ Covered o := by
  have huncovered : Refused o ∨ Succeeds o → ¬ Covered o := by
    rintro (⟨body, rfl | rfl⟩ | ⟨r, rfl⟩) <;> simp [Covered]
  constructor
  · intro hdoc
    by_cases hcovered : Covered o
    · exact .inr (.inr (.inr hcovered))
    · have heq := hdoc.returned (fun h => hcovered h.1)
      rcases (evaluateAll_eq_iff defaults o).mp heq with hnone | hrefused | hok
      · exact .inl hnone
      · exact .inr (.inl hrefused)
      · exact .inr (.inr (.inl hok))
  · intro hcase
    refine ⟨fun hcovered hsome => ?_, fun hnot => ?_⟩
    · have hauth : ¬ Refused o := fun h => huncovered (.inl h) hcovered
      cases hreply : doBulkEval o.reply with
      | ok found =>
          exact absurd hcovered (huncovered (.inr ((doBulkEval_ok_iff o).mp ⟨found, hreply⟩)))
      | error e => exact evaluateAll_error defaults o e hreply hauth hsome
    · rw [evaluateAll_eq_iff]
      rcases hcase with hnone | hrefused | hok | hcovered
      · exact .inl hnone
      · exact .inr (.inl hrefused)
      · exact .inr (.inr hok)
      · exact .inl (by_contra (fun hsome => hnot ⟨hcovered, hsome⟩))

end Outcomes

/-- The methods agree and the defaults are returned as documented if and only if
    no defaults are configured, the token is refused or the request succeeds. -/
theorem defaults_iff (defaults : List (String × FlagDefault)) (o : Outcome) :
    MethodsAgree defaults o ∧ AsDocumented defaults o ↔
      defaults = [] ∨ Refused o ∨ Succeeds o := by
  rw [methodsAgree_iff, evaluateAll_eq_iff, asDocumented_iff]
  constructor
  · exact fun h => h.1
  · rintro (hnone | hrefused | hok)
    · exact ⟨.inl hnone, .inl hnone⟩
    · exact ⟨.inr (.inl hrefused), .inr (.inl hrefused)⟩
    · exact ⟨.inr (.inr hok), .inr (.inr (.inl hok))⟩

/-- With a default for the flag, a server that is down makes `EvaluateAll`
    answer and `Bool` fail, and a project that is not there is answered with the
    default. -/
theorem defaults_skipped :
    (¬ ∀ defaults o, MethodsAgree defaults o) ∧ ¬ ∀ defaults o, AsDocumented defaults o := by
  constructor
  · intro hall
    have hbool := (hall [("dark-mode", ⟨true, "true"⟩)] (.answered 503 .undecodable)).bool
      "dark-mode"
    exact absurd hbool (by simp [bool, evaluate, evaluateAll, Outcome.reply, doBulkEval, pick,
      defaultResults, Feed.fill, bind, Except.bind, Except.map])
  · intro hall
    have hreturned := (hall [("dark-mode", ⟨true, "true"⟩)] (.answered 404 .undecodable)).returned
      (by simp [Covered])
    exact absurd hreturned (by simp [evaluateAll, Outcome.reply, doBulkEval])

end Cuttlegate.Sdk.Go
