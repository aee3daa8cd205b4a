import Cuttlegate.Sdk.Bootstraps
import Cuttlegate.Theory.ClientClosing
import Cuttlegate.Theory.FlagDefaults

/-!
# Refused Tokens and Stored Flags

A store is to be loaded when the flags cannot be fetched, unless the token is
refused: then the error is reported, the cache stays, no stream is left running
and the store is not asked.

The JavaScript client does so, unless it has been closed before the response
comes, when it rejects with the close instead. The Go and the Python client ask
the store whatever the error is, so a refused token is masked by what the store
has; Go also leaves the stream of an earlier bootstrap running. Where defaults
are configured they are the answer in place of an error, and the store is not
asked. And where the store raises an exception, Python reports that one.

## Main definitions

* `Honest`: What a failed request is to end in.
* `Go.NeverMasks`, `Python.NeverMasks`, `Js.NeverMasks`: The three clients.

## Theorems

* `Go.bootstrap_eq`: The bootstrap, for a map with its records' keys.
* `Go.neverMasks_iff`, `Python.neverMasks_iff`, `Js.neverMasks_iff`: When each
  client is honest.
* `Js.CachedClient.step_failure`, `Js.CachedClient.step_waits`: What a failing
  step does, and what another one does.
* `storedFlags_honest_iff`: The three together.
-/

namespace Cuttlegate.Sdk

/-- What a failed request is to end in. A refused token is reported, and nothing
    else happens but that the stream is stopped. Any other failure makes the
    flags of the store the cache and, without any, is reported. -/
structure Honest {Err Value : Type} (auth : Prop) (before : Cache Value) (err : Err)
    (load : Option (Entries Value)) (b : Bootstrapped Err Value) : Prop where
  refused : auth → b.raised = some err ∧ b.asked = false ∧ b.cache = before ∧ b.streaming = false
  restored : ¬ auth → ∀ entries, load = some entries → entries ≠ [] →
    b.raised = none ∧ b.asked = true ∧ b.cache = ofEntries entries
  reported : ¬ auth → load.getD [] = [] → b.raised = some err

section Honest

variable {Err Value : Type} {auth : Prop} {before : Cache Value} {err : Err}
  {load : Option (Entries Value)} {b : Bootstrapped Err Value}

/-- A client that has asked the store is not honest about a refused token. -/
theorem Honest.not_auth (h : Honest auth before err load b) (hasked : b.asked = true) : ¬ auth :=
  fun hauth => absurd (hasked.symm.trans (h.refused hauth).2.1) (by decide)

/-- A client that neither asks the store nor reports an error is not honest. -/
theorem not_honest (hraised : b.raised = none) (hasked : b.asked = false) :
    ¬ Honest auth before err load b := by
  intro h
  by_cases hauth : auth
  · exact absurd (hraised.symm.trans (h.refused hauth).1) (by simp)
  · by_cases hload : load.getD [] = []
    · exact absurd (hraised.symm.trans (h.reported hauth hload)) (by simp)
    · cases load with
      | none => exact absurd rfl hload
      | some entries =>
          exact absurd (hasked.symm.trans (h.restored hauth entries rfl hload).2.1) (by decide)

end Honest

/-! ## Go -/

namespace Go

/-- A failed request ends as it should. -/
def NeverMasks (defaults : List (String × FlagDefault)) (load : Option (Entries String))
    (s : CachedClient) (o : Outcome) : Prop :=
  ∀ err, doBulkEval o.reply = .error err →
    Honest (Refused o) s.cache err load (s.bootstrap defaults load o.reply)

/-- The client for a store which keeps every record under its own key. -/
theorem bootstrap_eq (defaults : List (String × FlagDefault))
    (loaded : Option (List (EvalResult String))) (s : CachedClient) (reply : Reply) :
    let b := s.bootstrap defaults (loaded.map (·.map (fun r => (r.key, r)))) reply
    bootstrap defaults loaded reply = b.raised.elim (.ok b.cache) .error := by
  have hfill : ∀ l : List (EvalResult String),
      ofEntries (l.map (fun r => (r.key, r))) = Feed.fill (·.key) (fun r => r) l := by
    intro l
    rw [ofEntries, Feed.fill, List.foldl_map]
    rfl
  simp only [bootstrap, CachedClient.bootstrap]
  cases evaluateAll defaults reply with
  | ok found => rfl
  | error e =>
      cases loaded with
      | none => rfl
      | some l =>
          simp only [Option.map_some, List.length_map, hfill]
          by_cases hempty : l.length = 0
          · rw [if_pos hempty, if_pos hempty]
            rfl
          · rw [if_neg hempty, if_neg hempty]
            rfl

section Bootstrap

variable (defaults : List (String × FlagDefault)) (load : Option (Entries String))
  (s : CachedClient)

theorem bootstrap_ok (reply : Reply) (found : Cache String)
    (h : evaluateAll defaults reply = .ok found) :
    s.bootstrap defaults load reply = ⟨none, false, found, true⟩ := by
  rw [CachedClient.bootstrap, h]

/-- Whatever the error is, the store is asked. -/
theorem bootstrap_asked (reply : Reply) (e : ClientErr)
    (h : evaluateAll defaults reply = .error e) :
    (s.bootstrap defaults load reply).asked = true := by
  rw [CachedClient.bootstrap, h]
  cases load with
  | none => rfl
  | some loaded =>
      by_cases hempty : loaded.length = 0
      · simp only [if_pos hempty]
      · simp only [if_neg hempty]

/-- An error that is not a refused token is handled as it should be. -/
theorem bootstrap_honest (auth : Prop) (hauth : ¬ auth) (reply : Reply) (e : ClientErr)
    (h : evaluateAll defaults reply = .error e) :
    Honest auth s.cache e load (s.bootstrap defaults load reply) := by
  refine ⟨fun hrefused => absurd hrefused hauth, fun _ entries hentries hsome => ?_,
    fun _ hnone => ?_⟩
  · have hpos : ¬ entries.length = 0 := fun hlen => hsome (List.eq_nil_of_length_eq_zero hlen)
    rw [CachedClient.bootstrap, h, hentries]
    simp only [if_neg hpos, and_self]
  · rw [CachedClient.bootstrap, h]
    cases load with
    | none => rfl
    | some loaded =>
        have hempty : loaded.length = 0 := List.length_eq_zero_iff.mpr hnone
        simp only [if_pos hempty]

/-- The client is honest exactly when the request succeeds, or fails otherwise
    than for its token with no defaults in its way. -/
theorem neverMasks_iff (o : Outcome) :
    NeverMasks defaults load s o ↔ Succeeds o ∨ ¬ Refused o ∧ defaults = [] := by
  cases hreply : doBulkEval o.reply with
  | ok found =>
      refine iff_of_true (fun err herr => ?_) (.inl ((doBulkEval_ok_iff o).mp ⟨found, hreply⟩))
      exact absurd (hreply.symm.trans herr) (by simp)
  | error err =>
      have hfails : ¬ Succeeds o := fun hok => by
        rcases (doBulkEval_ok_iff o).mpr hok with ⟨found, hfound⟩
        exact absurd (hreply.symm.trans hfound) (by simp)
      cases hall : evaluateAll defaults o.reply with
      | ok found =>
          -- The defaults are in the way.
          refine iff_of_false (fun hnever => ?_) (fun hcase => ?_)
          · have hhonest := hnever err hreply
            rw [bootstrap_ok defaults load s o.reply found hall] at hhonest
            exact not_honest rfl rfl hhonest
          · rcases hcase with hok | ⟨_, hnone⟩
            · exact hfails hok
            · have heq := (evaluateAll_eq_iff defaults o).mpr (.inl hnone)
              exact absurd (hall.symm.trans (heq.trans hreply)) (by simp)
      | error e =>
          constructor
          · intro hnever
            have hauth := (hnever err hreply).not_auth
              (bootstrap_asked defaults load s o.reply e hall)
            refine .inr ⟨hauth, by_contra (fun hsome => ?_)⟩
            have hcovered := evaluateAll_error defaults o err hreply hauth hsome
            exact absurd (hall.symm.trans hcovered) (by simp)
          · rintro (hok | ⟨hauth, hnone⟩) err' herr'
            · exact absurd hok hfails
            · have heq := (evaluateAll_eq_iff defaults o).mpr (.inl hnone)
              exact bootstrap_honest defaults load s _ hauth o.reply err' (heq.trans herr')

end Bootstrap

end Go

/-! ## Python -/

namespace Python

/-- The server refuses the token. -/
def Refused (answer : Answer) : Prop :=
  ∃ body, answer = .answered 401 body ∨ answer = .answered 403 body

/-- The server answers with flags. -/
def Succeeds (answer : Answer) : Prop := ∃ r, answer = .answered 200 (.parsed r)

/-- The response is JSON of a shape the client does not expect. -/
def Alien (answer : Answer) : Prop := answer = .answered 200 .alien

/-- A failed request ends as it should. -/
def NeverMasks (defaults : List (String × Go.FlagDefault)) (load : Option (Entries String))
    (answer : Answer) : Prop :=
  ∀ raised, doPost answer >>= parseBody = .error raised →
    Honest (Refused answer) (fun _ => none) (.request raised) load (bootstrap defaults load answer)

/-- What comes of a response, status by status. -/
theorem post_answered (status : Nat) (body : Body) :
    (doPost (.answered status body) >>= parseBody) =
      if status = 401 ∨ status = 403 then .error (.sdk (.auth status))
      else if status = 404 then .error (.sdk .projectNotFound)
      else if status ≥ 500 then .error (.sdk (.server status))
      else if status ≠ 200 then .error (.sdk (.unexpected status))
      else if body = .invalid then .error (.sdk .decode)
      else parseBody body := by
  simp only [doPost]
  split_ifs <;> rfl

theorem post_ok_iff (answer : Answer) :
    (∃ found, doPost answer >>= parseBody = .ok found) ↔ Succeeds answer := by
  constructor
  · rintro ⟨found, h⟩
    cases answer with
    | failed => exact absurd h (by simp [doPost, bind, Except.bind])
    | answered status body =>
        rw [post_answered] at h
        split_ifs at h with h401 h404 h500 h200 hinvalid
        rw [not_not.mp h200]
        cases body with
        | parsed r => exact ⟨r, rfl⟩
        | invalid | incomplete fieldName | alien => exact absurd h (by simp [parseBody])
  · rintro ⟨r, rfl⟩
    exact ⟨parseBulkResponse r, rfl⟩

theorem post_auth_iff (answer : Answer) :
    (∃ status, doPost answer >>= parseBody = .error (.sdk (.auth status))) ↔ Refused answer := by
  constructor
  · rintro ⟨code, h⟩
    cases answer with
    | failed => exact absurd h (by simp [doPost, bind, Except.bind])
    | answered status body =>
        rw [post_answered] at h
        split_ifs at h with h401 h404 h500 h200 hinvalid
        · rcases h401 with rfl | rfl
          · exact ⟨body, .inl rfl⟩
          · exact ⟨body, .inr rfl⟩
        all_goals exact absurd h (by cases body <;> simp [parseBody])
  · rintro ⟨body, rfl | rfl⟩
    · exact ⟨401, rfl⟩
    · exact ⟨403, rfl⟩

theorem post_other_iff (answer : Answer) :
    doPost answer >>= parseBody = .error .other ↔ Alien answer := by
  constructor
  · intro h
    cases answer with
    | failed => exact absurd h (by simp [doPost, bind, Except.bind])
    | answered status body =>
        rw [post_answered] at h
        split_ifs at h with h401 h404 h500 h200 hinvalid <;> try exact absurd h (by simp)
        rw [not_not.mp h200]
        cases body with
        | alien => rfl
        | invalid => exact absurd rfl hinvalid
        | incomplete fieldName | parsed r => exact absurd h (by simp [parseBody])
  · rintro rfl
    rfl

section Bootstrap

variable (defaults : List (String × Go.FlagDefault)) (load : Option (Entries String))
  (answer : Answer)

/-- The defaults are in the way of an error exactly when there are some and it
    is an error of the library that is not a refused token. -/
theorem evaluateAll_error_iff (raised : Raised) (h : doPost answer >>= parseBody = .error raised) :
    evaluateAll defaults answer = .error raised ↔
      Refused answer ∨ defaults = [] ∨ Alien answer := by
  have hnone : ¬ defaults.length > 0 ↔ defaults = [] := by
    rw [Nat.not_lt, Nat.le_zero, List.length_eq_zero_iff]
  rw [← post_auth_iff, ← post_other_iff, evaluateAll, h]
  cases raised with
  | other => simp
  | sdk e =>
      cases e with
      | auth status => simp
      | request | projectNotFound | server | unexpected | decode | flagNotFound =>
          by_cases hsome : defaults.length > 0
          · simp [hsome, hnone.not.mp (not_not.mpr hsome)]
          · simp [hnone.mp hsome]

/-- The defaults take the place of an error or leave it as it is. -/
theorem evaluateAll_error (raised raised' : Raised)
    (h : doPost answer >>= parseBody = .error raised)
    (hall : evaluateAll defaults answer = .error raised') : raised' = raised := by
  rw [evaluateAll, h] at hall
  cases raised with
  | other =>
      cases hall
      rfl
  | sdk e =>
      cases e with
      | auth status =>
          cases hall
          rfl
      | request | projectNotFound | server | unexpected | decode | flagNotFound =>
          simp only at hall
          split_ifs at hall
          cases hall
          rfl

theorem bootstrap_ok (found : Cache String) (h : evaluateAll defaults answer = .ok found) :
    bootstrap defaults load answer = ⟨none, false, found, true⟩ := by
  rw [bootstrap, h]

/-- Whatever is raised, the store is asked. -/
theorem bootstrap_asked (exc : Raised) (h : evaluateAll defaults answer = .error exc) :
    (bootstrap defaults load answer).asked = true := by
  rw [bootstrap, h]
  cases load with
  | none => rfl
  | some stored =>
      by_cases hsome : stored.length > 0
      · simp only [if_pos hsome]
      · simp only [if_neg hsome]

/-- An error that is not a refused token is handled as it should be, provided
    the store does not raise an exception of its own. -/
theorem bootstrap_honest_iff (hauth : ¬ Refused answer) (exc : Raised)
    (h : evaluateAll defaults answer = .error exc) :
    Honest (Refused answer) (fun _ => none) (.request exc) load
        (bootstrap defaults load answer) ↔
      load ≠ none := by
  constructor
  · rintro hhonest rfl
    have hraised := hhonest.reported hauth rfl
    rw [bootstrap, h] at hraised
    exact absurd hraised (by simp)
  · intro hloads
    refine ⟨fun hrefused => absurd hrefused hauth, fun _ entries hentries hsome => ?_,
      fun _ hnone => ?_⟩
    · have hpos : entries.length > 0 := List.length_pos_iff.mpr hsome
      rw [bootstrap, h, hentries]
      simp only [if_pos hpos, and_self]
    · rw [bootstrap, h]
      cases load with
      | none => exact absurd rfl hloads
      | some stored =>
          have hstored : stored = [] := hnone
          have hempty : ¬ stored.length > 0 := by
            rw [hstored]
            exact Nat.lt_irrefl 0
          simp only [if_neg hempty]

/-- The client is honest exactly when the request succeeds, or fails otherwise
    than for its token with no defaults in its way and a store that loads. -/
theorem neverMasks_iff :
    NeverMasks defaults load answer ↔
      Succeeds answer ∨
        ¬ Refused answer ∧ (defaults = [] ∨ Alien answer) ∧ load ≠ none := by
  cases hpost : doPost answer >>= parseBody with
  | ok found =>
      refine iff_of_true (fun raised hraised => ?_) (.inl ((post_ok_iff answer).mp ⟨found, hpost⟩))
      exact absurd (hpost.symm.trans hraised) (by simp)
  | error exc =>
      have hfails : ¬ Succeeds answer := fun hok => by
        rcases (post_ok_iff answer).mpr hok with ⟨found, hfound⟩
        exact absurd (hpost.symm.trans hfound) (by simp)
      have hclear := evaluateAll_error_iff defaults answer exc hpost
      constructor
      · intro hnever
        have hhonest := hnever exc hpost
        cases hall : evaluateAll defaults answer with
        | ok found =>
            rw [bootstrap_ok defaults load answer found hall] at hhonest
            exact absurd hhonest (not_honest rfl rfl)
        | error exc' =>
            have hauth := hhonest.not_auth (bootstrap_asked defaults load answer exc' hall)
            cases evaluateAll_error defaults answer exc exc' hpost hall
            have hload := (bootstrap_honest_iff defaults load answer hauth exc hall).mp hhonest
            rcases hclear.mp hall with hrefused | hcase
            · exact absurd hrefused hauth
            · exact .inr ⟨hauth, hcase, hload⟩
      · rintro (hok | ⟨hauth, hcase, hload⟩) raised hraised
        · exact absurd hok hfails
        · cases hpost.symm.trans hraised
          exact (bootstrap_honest_iff defaults load answer hauth exc
            (hclear.mpr (.inr hcase))).mpr hload

end Bootstrap

end Python

/-! ## JavaScript -/

namespace Js

open ConnectionLoop (isOk)

/-- Whether an effect asks the store. -/
def Effect.loads : Effect → Bool
  | .load => true
  | _ => false

/-- What the hydration waits for before it asks the store. -/
def Awaits.early : Awaits → Bool
  | .response | .body | .handler _ => true
  | _ => false

/-- The error of a failure of the hydration. -/
def failure (timeout : Nat) (s : CachedClient) : Event → Option CuttlegateError
  | .response status =>
      if isOk status then none
      else if status = 401 ∨ status = 403 then some (CachedClient.authError status)
      else some ⟨"network_error", "Hydration returned " ++ toString status⟩
  | .failed .aborted =>
      some ⟨"timeout", "Hydration timed out after " ++ toString timeout ++ "ms"⟩
  | .failed (.error message) => some ⟨"network_error", message⟩
  | .bodyFailed => some ⟨"invalid_response", "Hydration response is not valid JSON"⟩
  | .handled =>
      match s.awaits with
      | .handler message => some ⟨"network_error", message⟩
      | _ => none
  | _ => none

/-- The error of the last failure of the hydration. -/
def original (timeout : Nat) (H : List Observed) : Option CuttlegateError :=
  H.foldl (fun found o => (failure timeout o.before o.event).or found) none

/-- The error `ready` is rejected with. -/
def Effect.rejection : Effect → Option CuttlegateError
  | .rejectReady err => some err
  | _ => none

/-- What a step reports and leaves behind, after what was before. -/
def Observed.bootstrapped (P : List Observed) (o : Observed) :
    Bootstrapped CuttlegateError (Option String) where
  raised := o.effects.findSome? Effect.rejection
  asked := (P ++ [o]).any (fun o => o.effects.any Effect.loads)
  cache := o.after.cache
  streaming := o.after.streaming

/-- A store keeps every record under its own key. -/
def keyed (entries : List (EvalResult (Option String))) : Entries (Option String) :=
  entries.map (fun r => (r.key, r))

/-- A refused token ends as it should, any other failure asks the store, and
    what the store answers is dealt with as it should. -/
structure Observed.Reveals (timeout : Nat) (P : List Observed) (o : Observed) : Prop where
  refused : o.event.refused = true → ∀ load,
    ∃ err, failure timeout o.before o.event = some err ∧
      Honest True o.before.cache err load (o.bootstrapped P)
  asks : o.event.refused = false → failure timeout o.before o.event ≠ none → .load ∈ o.effects
  loaded : ∀ load, o.event = .loaded load →
    ∃ err, original timeout P = some err ∧
      Honest False o.before.cache err (load.map keyed) (o.bootstrapped P)

/-- Failed requests end as they should, along a run. -/
def NeverMasks (timeout : Nat) : List Observed → Prop :=
  Throughout (fun P o => o.Reveals timeout P)

/-- The client is open when the hydration fails, unless it fails in reading the
    body. -/
def Observed.OpenWhenFailing (timeout : Nat) (o : Observed) : Prop :=
  failure timeout o.before o.event ≠ none → o.event ≠ .bodyFailed → o.before.closed = false

theorem original_snoc (timeout : Nat) (P : List Observed) (o : Observed) :
    original timeout (P ++ [o]) = (failure timeout o.before o.event).or (original timeout P) := by
  rw [original, List.foldl_append]
  rfl

theorem ofEntries_keyed (entries : List (EvalResult (Option String))) :
    ofEntries (keyed entries) = restoreCache entries := by
  rw [ofEntries, keyed, Feed.fill, List.foldl_map]
  rfl

namespace CachedClient

variable (timeout : Nat) (s : CachedClient) (p : CachedClient × List Effect)

theorem failure_of_refused (e : Event) (h : e.refused = true) :
    ∃ status, e = .response status ∧ failure timeout s e = some (authError status) := by
  cases e with
  | response status =>
      have hauth : status = 401 ∨ status = 403 := by simpa [Event.refused] using h
      refine ⟨status, rfl, ?_⟩
      have hok : isOk status = false := by rcases hauth with rfl | rfl <;> rfl
      simp [failure, hok, hauth]
  | _ => cases h

/-- What a failing step does: it rejects with the close, rejects with a refused
    token, or asks the store. -/
def onFailure (e : Event) (err : CuttlegateError) : CachedClient × List Effect :=
  if s.closed = true ∧ e ≠ .bodyFailed then s.rejectClosed
  else if e.refused = true then s.failHydration err else s.tryStoreFallback err

theorem onFailure_closed (e : Event) (err : CuttlegateError) (hc : s.closed = true)
    (he : e ≠ .bodyFailed) : s.onFailure e err = s.rejectClosed := if_pos ⟨hc, he⟩

theorem onFailure_refused (e : Event) (err : CuttlegateError) (hc : ¬ s.closed = true)
    (he : e.refused = true) : s.onFailure e err = s.failHydration err := by
  rw [onFailure, if_neg (fun h => hc h.1), if_pos he]

theorem onFailure_other (e : Event) (err : CuttlegateError)
    (hc : ¬ s.closed = true ∨ e = .bodyFailed) (he : e.refused = false) :
    s.onFailure e err = s.tryStoreFallback err := by
  have hopen : ¬ (s.closed = true ∧ e ≠ .bodyFailed) := fun h => hc.elim (· h.1) h.2
  rw [onFailure, if_neg hopen, if_neg (by simp [he])]

theorem step_failure (e : Event) (err : CuttlegateError) (h : s.step timeout e = some p)
    (hfails : failure timeout s e = some err) :
    s.awaits.early = true ∧ p = s.onFailure e err := by
  cases e with
  | response status =>
      simp only [step] at h
      simp only [failure] at hfails
      -- Closed, refused twice over, failed with another status, and no failure at all.
      split_ifs at h with hw hc h401 h403 hok <;> cases h
      · exact ⟨by rw [hw]; rfl, (onFailure_closed s _ err hc (by simp)).symm⟩
      · rw [h401] at hfails ⊢
        cases hfails
        exact ⟨by rw [hw]; rfl, (onFailure_refused s _ _ hc rfl).symm⟩
      · rw [h403] at hfails ⊢
        cases hfails
        exact ⟨by rw [hw]; rfl, (onFailure_refused s _ _ hc rfl).symm⟩
      · rw [if_neg (by simp [hok]), if_neg (by simp [h401, h403])] at hfails
        cases hfails
        refine ⟨by rw [hw]; rfl, (onFailure_other s _ _ (.inl hc) ?_).symm⟩
        exact not_refused status h401 h403
      · rw [if_pos (by simpa using hok)] at hfails
        cases hfails
  | failed cause =>
      simp only [step] at h
      split_ifs at h with hw hc
      · cases h
        exact ⟨by rw [hw]; rfl, (onFailure_closed s _ err hc (by simp)).symm⟩
      · refine ⟨by rw [hw]; rfl, ?_⟩
        rw [onFailure_other s _ err (.inl hc) rfl]
        cases cause with
        | aborted =>
            cases h
            cases hfails
            rfl
        | error message =>
            cases h
            cases hfails
            rfl
  -- The body is read in a step of its own, and its failure is handled by the next.
  | bodyFailed =>
      simp only [step] at h
      split_ifs at h with hw
      cases h
      cases hfails
      exact ⟨by rw [hw]; rfl, (onFailure_other s _ _ (.inr rfl) rfl).symm⟩
  | handled =>
      simp only [step] at h
      split at h
      next message hw =>
        simp only [failure, hw, Option.some.injEq] at hfails
        subst hfails
        refine ⟨by rw [hw]; rfl, ?_⟩
        split_ifs at h with hc <;> cases h
        · exact (onFailure_closed s _ _ hc (by simp)).symm
        · exact (onFailure_other s _ _ (.inl hc) rfl).symm
      next => cases h
  | _ => cases hfails

theorem step_loaded (load : Option (List (EvalResult (Option String))))
    (h : s.step timeout (.loaded load) = some p) :
    ∃ err, s.awaits = .store err ∧ p = s.restore err load := by
  simp only [step] at h
  split at h
  next err hw =>
    cases h
    exact ⟨err, hw, rfl⟩
  next => cases h

/-- What becomes of the hydration in a step that does not ask the store. -/
structure Waits (p : CachedClient × List Effect) : Prop where
  early : p.1.awaits.early = true → s.awaits.early = true
  store : ∀ err, p.1.awaits = .store err → s.awaits = .store err
  loads : ∀ a ∈ p.2, a.loads = false

theorem waits_of_nothing (hn : p.1.awaits = .nothing) (hl : ∀ a ∈ p.2, a.loads = false) :
    s.Waits p where
  early hearly := absurd hearly (by rw [hn]; decide)
  store _ hstore := absurd (hn.symm.trans hstore) (by simp)
  loads := hl

theorem waits_of_same (hs : p.1.awaits = s.awaits) (hl : ∀ a ∈ p.2, a.loads = false) :
    s.Waits p where
  early hearly := hs ▸ hearly
  store _ hstore := hs ▸ hstore
  loads := hl

theorem loads_of_touches (a : Effect) (h : a.touches = true) : a.loads = false := by
  cases a with
  | write | save entries | call callback key enabled => rfl
  | _ => cases h

theorem loads_of_reports (a : Effect) (h : a.reports = true) : a.loads = false := by
  cases a with
  | request | onError err => rfl
  | _ => cases h

theorem hydrate_waits (json : Body) (hw : s.awaits = .body) : s.Waits (s.hydrate json) := by
  unfold hydrate
  cases json.thrown with
  | some message =>
      refine ⟨fun _ => by rw [hw]; rfl, fun err hstore => absurd hstore (by simp), ?_⟩
      simp [Effect.loads]
  | none =>
      refine waits_of_nothing s _ rfl (fun a ha => ?_)
      simp only [List.cons_append, List.mem_cons, List.mem_append, List.not_mem_nil,
        or_false] at ha
      rcases ha with rfl | ha | rfl | rfl
      · rfl
      · exact loads_of_touches a (drain_touches _ _ a ha)
      · rfl
      · rfl

/-- The stream, the re-hydrations and the consumer leave the hydration alone. -/
theorem Does.keepsWaiting (e : Event) (hasks : e.asks = false) (hbody : e ≠ .bodyFailed)
    (hloaded : ∀ load, e ≠ .loaded load) (h : s.Does e p) : s.Waits p := by
  cases h with
  | abandoned e he hw hr hc => exact absurd (hasks.symm.trans he) (by decide)
  | refused status he hw hc => exact absurd hasks (by simp [Event.asks])
  | fallback e err he hl hw hstore hc hcode =>
      rcases hl with he | he
      · exact absurd (hasks.symm.trans he) (by decide)
      · exact absurd he hbody
  | reading status he hw hc => exact absurd hasks (by simp [Event.asks])
  | thrown json message hw hc => exact absurd hasks (by simp [Event.asks])
  | hydrated json hw hc => exact absurd hasks (by simp [Event.asks])
  | restored entries err hw hsome => exact absurd rfl (hloaded _)
  | lost entries err hw hnone => exact absurd rfl (hloaded _)
  | buffered event hc hh => exact waits_of_same s _ rfl (by simp)
  | applied event hc hh =>
      refine waits_of_same s _ (by rw [applyCacheEvent_fst]) (fun a ha => ?_)
      exact loads_of_touches a (s.applyCacheEvent_touches event a ha)
  | rehydrated i json left hc => exact waits_of_same s _ rfl (by simp [Effect.loads])
  | aside e left effects he hc hreports =>
      exact waits_of_same s _ rfl (fun a ha => loads_of_reports a (hreports a ha))
  | subscribe key callback => exact waits_of_same s _ rfl (by simp)
  | unsubscribe key callback => exact waits_of_same s _ rfl (by simp)
  | close streaming => exact waits_of_same s _ rfl (by simp)

/-- A step that neither fails nor is the answer of the store does not ask the
    store. -/
theorem step_waits (e : Event) (h : s.step timeout e = some p)
    (hfails : failure timeout s e = none) (hloaded : ∀ load, e ≠ .loaded load) : s.Waits p := by
  have hdoes := does_of_step s timeout e p h
  cases e with
  | response status =>
      simp only [failure] at hfails
      simp only [step] at h
      -- Only an answer with a body is no failure.
      split_ifs at hfails with hok
      split_ifs at h with hw hc h401 h403 hbad
      · cases h
        exact waits_of_nothing s _ rfl (by simp [rejectClosed, Effect.loads])
      · exact absurd (h401 ▸ hok) (by decide)
      · exact absurd (h403 ▸ hok) (by decide)
      · exact absurd (hok.symm.trans hbad) (by decide)
      · cases h
        exact ⟨fun _ => by rw [hw]; rfl, fun err hstore => absurd hstore (by simp), by simp⟩
  | failed cause => cases cause <;> cases hfails
  | body json =>
      simp only [step] at h
      split_ifs at h with hw hc <;> cases h
      · exact waits_of_nothing s _ rfl (by simp [rejectClosed, Effect.loads])
      · exact s.hydrate_waits json hw
  | bodyFailed => cases hfails
  | handled =>
      simp only [step] at h
      split at h
      next message hw => simp [failure, hw] at hfails
      next => cases h
  | _ => exact Does.keepsWaiting s p _ rfl (by simp) hloaded hdoes

end CachedClient

/-- Whether the store has been asked, and why, as far as the client knows. -/
structure Asking (timeout : Nat) (P : List Observed) (s : CachedClient) : Prop where
  early : s.awaits.early = true → P.any (fun o => o.effects.any Effect.loads) = false
  store : ∀ err, s.awaits = .store err →
    original timeout P = some err ∧ P.any (fun o => o.effects.any Effect.loads) = true

theorem asking_begin (timeout : Nat) : Asking timeout [] {} where
  early _ := rfl
  store err hstore := absurd hstore (by simp)

/-- Whether the store has been asked, one step later. -/
theorem asked_snoc (P : List Observed) (o : Observed) :
    (P ++ [o]).any (fun o => o.effects.any Effect.loads) =
      (P.any (fun o => o.effects.any Effect.loads) || o.effects.any Effect.loads) := by
  simp

theorem loads_any (effects : List Effect) (h : ∀ a ∈ effects, a.loads = false) :
    effects.any Effect.loads = false := by
  rw [List.any_eq_false]
  intro a ha
  rw [h a ha]
  decide

section Step

variable {timeout : Nat} {P : List Observed} {o : Observed}

/-- A step keeps what the client knows. -/
theorem Asking.step (h : Asking timeout P o.before)
    (hstep : o.before.step timeout o.event = some (o.after, o.effects)) :
    Asking timeout (P ++ [o]) o.after := by
  have horiginal := original_snoc timeout P o
  have hasked := asked_snoc P o
  cases hfails : failure timeout o.before o.event with
  | some err =>
      rcases o.before.step_failure timeout _ _ err hstep hfails with ⟨hearly, hp⟩
      rw [hfails, Option.some_or] at horiginal
      have hafter : o.after = (o.before.onFailure o.event err).1 := congrArg Prod.fst hp
      have heffects : o.effects = (o.before.onFailure o.event err).2 := congrArg Prod.snd hp
      -- The hydration is over, or the store is asked because of this error.
      have hcase : o.after.awaits = .nothing ∨
          o.after.awaits = .store err ∧ o.effects.any Effect.loads = true := by
        rw [hafter, heffects, CachedClient.onFailure]
        split_ifs
        · exact .inl rfl
        · exact .inl rfl
        · exact .inr ⟨rfl, rfl⟩
      rcases hcase with hn | ⟨hs, hl⟩
      · exact ⟨fun he => absurd he (by simp [hn, Awaits.early]),
          fun e he => absurd (hn.symm.trans he) (by simp)⟩
      · refine ⟨fun he => absurd he (by simp [hs, Awaits.early]), fun e he => ?_⟩
        cases hs.symm.trans he
        exact ⟨horiginal, by rw [hasked, hl, Bool.or_true]⟩
  | none =>
      rw [hfails, Option.none_or] at horiginal
      -- Without a failure either the store answers, which ends the hydration, or the client
      -- goes on waiting as before.
      by_cases hloaded : ∃ load, o.event = .loaded load
      · rcases hloaded with ⟨load, he⟩
        rw [he] at hstep
        rcases o.before.step_loaded timeout _ load hstep with ⟨err, hw, hp⟩
        have hafter : o.after = (o.before.restore err load).1 := congrArg Prod.fst hp
        have hn : o.after.awaits = .nothing := by
          rw [hafter]
          unfold CachedClient.restore
          cases load with
          | none => rfl
          | some entries =>
              simp only
              split_ifs <;> rfl
        exact ⟨fun he => absurd he (by simp [hn, Awaits.early]),
          fun e he => absurd (hn.symm.trans he) (by simp)⟩
      · have hwaits := o.before.step_waits timeout _ _ hstep hfails
          (fun load he => hloaded ⟨load, he⟩)
        rw [loads_any o.effects hwaits.loads, Bool.or_false] at hasked
        refine ⟨fun he => ?_, fun e he => ?_⟩
        · rw [hasked]
          exact h.early (hwaits.early he)
        · rw [hasked, horiginal]
          exact h.store e (hwaits.store e he)

/-- A refused token ends as it should in an open client. -/
theorem Asking.honest_refused (h : Asking timeout P o.before) (err : CuttlegateError)
    (hearly : o.before.awaits.early = true) (load : Option (Entries (Option String)))
    (hp : (o.after, o.effects) = o.before.failHydration err) :
    Honest True o.before.cache err load (o.bootstrapped P) := by
  have hafter : o.after = (o.before.failHydration err).1 := congrArg Prod.fst hp
  have heffects : o.effects = [.rejectReady err] := congrArg Prod.snd hp
  refine ⟨fun _ => ⟨?_, ?_, ?_, ?_⟩, fun hn => absurd trivial hn, fun hn => absurd trivial hn⟩
  · simp [Observed.bootstrapped, heffects, Effect.rejection]
  · simp only [Observed.bootstrapped]
    rw [asked_snoc, h.early hearly, heffects]
    rfl
  · rw [Observed.bootstrapped, hafter]
    rfl
  · rw [Observed.bootstrapped, hafter]
    rfl

/-- The answer of the store ends as it should. -/
theorem Asking.honest_loaded (h : Asking timeout P o.before) (err : CuttlegateError)
    (hw : o.before.awaits = .store err) (load : Option (List (EvalResult (Option String))))
    (hp : (o.after, o.effects) = o.before.restore err load) :
    Honest False o.before.cache err (load.map keyed) (o.bootstrapped P) := by
  have hafter : o.after = (o.before.restore err load).1 := congrArg Prod.fst hp
  have heffects : o.effects = (o.before.restore err load).2 := congrArg Prod.snd hp
  refine ⟨False.elim, fun _ entries hentries hsome => ?_, fun _ hnone => ?_⟩
  · -- The store has entries: they are served, and nobody is told of the error.
    cases load with
    | none => cases hentries
    | some l =>
        cases hentries
        have hpos : l.length > 0 := by
          rw [← List.length_map (fun r : EvalResult (Option String) => (r.key, r))]
          exact List.length_pos_iff.mpr hsome
        rw [CachedClient.restore, if_pos hpos] at hafter heffects
        refine ⟨?_, ?_, ?_⟩
        · simp [Observed.bootstrapped, heffects, Effect.rejection]
        · simp only [Observed.bootstrapped]
          rw [asked_snoc, (h.store err hw).2, Bool.true_or]
        · rw [Observed.bootstrapped, hafter, ofEntries_keyed]
  · -- The store is empty or cannot be read: the original error comes through.
    have hlost : o.effects = [.rejectReady err] := by
      rw [heffects]
      cases load with
      | none => rfl
      | some l =>
          have hl : l = [] := List.map_eq_nil_iff.mp hnone
          rw [hl]
          rfl
    simp [Observed.bootstrapped, hlost, Effect.rejection]

/-- A step reveals what it should exactly when the client is open for a
    failure. -/
theorem Asking.reveals_iff (h : Asking timeout P o.before)
    (hstep : o.before.step timeout o.event = some (o.after, o.effects)) :
    o.Reveals timeout P ↔ o.OpenWhenFailing timeout := by
  cases hfails : failure timeout o.before o.event with
  | some err =>
      rcases o.before.step_failure timeout _ _ err hstep hfails with ⟨hearly, hp⟩
      have hunloaded : ∀ load, o.event ≠ .loaded load := by
        intro load he
        rw [he] at hfails
        cases hfails
      by_cases hclosed : o.before.closed = true ∧ o.event ≠ .bodyFailed
      · -- The client rejects with the close.
        rw [CachedClient.onFailure_closed _ _ err hclosed.1 hclosed.2] at hp
        have heffects : o.effects = [.rejectReady CachedClient.closedError] := congrArg Prod.snd hp
        refine iff_of_false (fun hreveals => ?_) (fun hopen => ?_)
        · cases hrefused : o.event.refused with
          | true =>
              rcases CachedClient.failure_of_refused timeout o.before _ hrefused
                with ⟨status, _, hauth⟩
              rcases hreveals.refused hrefused none with ⟨err', herr', hhonest⟩
              cases herr'.symm.trans hauth
              -- The error that comes through has the code of the close, not that of the refusal.
              have hraised := (hhonest.refused trivial).1
              simp only [Observed.bootstrapped, heffects, Effect.rejection, List.findSome?_cons,
                CachedClient.closedError, CachedClient.authError, Option.some.injEq] at hraised
              split_ifs at hraised <;> exact absurd hraised (by simp)
          | false =>
              have hload := hreveals.asks hrefused (by simp [hfails])
              rw [heffects] at hload
              exact absurd hload (by simp)
        · have hopened := hopen (by simp [hfails]) hclosed.2
          exact absurd (hclosed.1.symm.trans hopened) (by decide)
      · have hopen : ¬ o.before.closed = true ∨ o.event = .bodyFailed := by
          by_cases hb : o.event = .bodyFailed
          · exact .inr hb
          · exact .inl (fun hc => hclosed ⟨hc, hb⟩)
        refine iff_of_true ⟨fun hrefused load => ⟨err, hfails, ?_⟩, fun hrefused _ => ?_,
          fun load he => absurd he (hunloaded load)⟩ (fun _ hb => ?_)
        · -- A refusal is passed on at once, any other failure asks the store first.
          have hne : o.event ≠ .bodyFailed := fun hb => by
            rw [hb] at hrefused
            cases hrefused
          have hc : ¬ o.before.closed = true := hopen.resolve_right hne
          rw [CachedClient.onFailure_refused _ _ err hc hrefused] at hp
          exact h.honest_refused err hearly load hp
        · rw [CachedClient.onFailure_other _ _ err hopen hrefused] at hp
          have heffects : o.effects = [.load] := congrArg Prod.snd hp
          rw [heffects]
          exact List.mem_singleton.mpr rfl
        · simpa using hopen.resolve_right hb
  | none =>
      -- Nothing failed: only the answer of the store has something to reveal.
      refine iff_of_true ⟨fun hrefused => ?_, fun _ hn => absurd hfails hn, fun load he => ?_⟩
        (fun hn => absurd hfails hn)
      · rcases CachedClient.failure_of_refused timeout o.before _ hrefused with ⟨status, _, hauth⟩
        exact absurd (hfails.symm.trans hauth) (by simp)
      · rw [he] at hstep
        rcases o.before.step_loaded timeout _ load hstep with ⟨err, hw, hp⟩
        exact ⟨err, (h.store err hw).1, h.honest_loaded err hw load hp⟩

end Step

/-- Along a run, failed requests end as they should exactly when the client is
    open whenever one fails. -/
theorem neverMasks_iff (timeout : Nat) (H : List Observed) (s : CachedClient)
    (h : Steps (Observes timeout) {} H s) :
    NeverMasks timeout H ↔ ∀ o ∈ H, o.OpenWhenFailing timeout := by
  have hiff : NeverMasks timeout H ↔ Throughout (fun _ o => o.OpenWhenFailing timeout) H := by
    refine Steps.throughout_iff _ _ (Asking timeout) {} (asking_begin timeout) ?_ H s h
    rintro P s o t hrun hasking ⟨rfl, rfl, hstep⟩
    exact ⟨hasking.reveals_iff hstep, fun _ => hasking.step hstep⟩
  rw [hiff]
  constructor
  · intro hopen o ho
    rcases List.append_of_mem ho with ⟨A, C, hH⟩
    exact hopen A o C hH
  · exact fun hopen => throughout_of_forall _ H (fun o ho _ => hopen o ho)

end Js

/-! ## The three together -/

/-- When stored flags mask no refused token, and take the place of any other
    failure, in each of the three clients. -/
theorem storedFlags_honest_iff (defaults : List (String × Go.FlagDefault))
    (load : Option (Entries String)) (client : Go.CachedClient) (o : Outcome)
    (answer : Python.Answer) (timeout : Nat) (H : List Js.Observed) (s : Js.CachedClient)
    (h : Steps (Js.Observes timeout) {} H s) :
    (Go.NeverMasks defaults load client o ↔
        Go.Succeeds o ∨ ¬ Go.Refused o ∧ defaults = []) ∧
      (Python.NeverMasks defaults load answer ↔
        Python.Succeeds answer ∨
          ¬ Python.Refused answer ∧ (defaults = [] ∨ Python.Alien answer) ∧ load ≠ none) ∧
      (Js.NeverMasks timeout H ↔ ∀ o ∈ H, o.OpenWhenFailing timeout) :=
  ⟨Go.neverMasks_iff defaults load client o, Python.neverMasks_iff defaults load answer,
    Js.neverMasks_iff timeout H s h⟩

/-- What a store kept of a flag that was on. -/
def storedFlag : Entries String :=
  [("dark-mode", ⟨"dark-mode", true, "true", "true", "default", ""⟩)]

/-- A revoked token is answered with 401, and the client serves what the store
    has. -/
theorem refused_masked :
    (¬ ∀ load s o, Go.NeverMasks [] load s o) ∧
      ¬ ∀ load answer, Python.NeverMasks [] load answer := by
  constructor
  · intro hall
    have hhonest := hall (some storedFlag) {} (.answered 401 .undecodable) (.auth 401) rfl
    exact absurd (hhonest.refused ⟨_, .inl rfl⟩).2.1 (by decide)
  · intro hall
    have hhonest := hall (some storedFlag) (.answered 401 .invalid) (.sdk (.auth 401)) rfl
    exact absurd (hhonest.refused ⟨_, .inl rfl⟩).2.1 (by decide)

/-- In JavaScript the refused token is reported; the others would be honest
    about a server that is down. -/
theorem storedFlags_honest_refused :
    ∃ H s, Js.observe 5000 {} [.response 401] = some (H, s) ∧ Js.NeverMasks 5000 H ∧
      Go.NeverMasks [] (some storedFlag) {} .unreachable ∧
      Python.NeverMasks [] (some storedFlag) .failed := by
  have hrun := Js.observe_steps 5000 {} [.response 401] _ _ rfl
  rcases storedFlags_honest_iff [] (some storedFlag) {} .unreachable .failed 5000 _ _ hrun
    with ⟨hgo, hpython, hjs⟩
  refine ⟨_, _, rfl, hjs.mpr (fun o ho _ _ => ?_), hgo.mpr (.inr ⟨?_, rfl⟩),
    hpython.mpr (.inr ⟨?_, .inl rfl, by simp⟩)⟩
  · rw [List.mem_singleton.mp ho]
  · rintro ⟨body, hbody | hbody⟩ <;> cases hbody
  · rintro ⟨body, hbody | hbody⟩ <;> cases hbody

end Cuttlegate.Sdk
