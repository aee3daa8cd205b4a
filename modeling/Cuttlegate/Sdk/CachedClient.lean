import Cuttlegate.Lib.Steps
import Cuttlegate.Sdk.Caches
import Cuttlegate.Sdk.ConnectionLoop

/-!
# The Cached Client of JavaScript

The continuations of the JavaScript client that keeps the flags in a cache.

The client is suspended in many places at once. Its hydration waits for the
response to the first request, for the body of the response, for the handler
of an exception, or for the store; each re-hydration waits for a response or
for its body; and the stream calls it. Each time something happens, one
continuation runs to its end or to its next suspension, and that is one step.
A step may be followed by any other, as far as the client waits for it.

What a step does beside changing the client is a list of effects: writing to
the cache, calls of subscribers and of the store, and the outcome of `ready`.

The response of the server is taken as it is, so filling the cache from a body
that is no response throws, with part of it in the cache. The callbacks of the
consumer and the store are assumed to return, and not to call the client
before they do. How long a request may take is a parameter.

## Main definitions

* `CuttlegateError`: The errors of the library.
* `CachedClient`: The variables of the client, and what it waits for.
* `Effect`, `Event`: What the client does, and what happens to it.
* `CachedClient.step`: One event.
* `CachedClient.Does`: What a step can do.
* `Observed`, `Observes`, `observe`: What is observed of a client.

## Theorems

* `CachedClient.drain_eq`: The buffer is applied to the cache in one go.
* `CachedClient.does_of_step`: A step does nothing else.
* `observe_steps`: What is observed of a client is a run.
-/

namespace Cuttlegate.Sdk.Js

open ConnectionLoop (isOk)

/-- An error of the library. -/
structure CuttlegateError where
  code : String
  message : String
  deriving DecidableEq, Repr

/-- A function a consumer has subscribed, known by its identity. -/
abbrev Callback := Nat

/-- What the hydration waits for. -/
inductive Awaits where
  | response
  | body
  /-- The handler of an exception. -/
  | handler (message : String)
  /-- The store, asked because of an error. -/
  | store (err : CuttlegateError)
  | nothing
  deriving DecidableEq, Repr

/-- What a re-hydration waits for. -/
inductive Rehydration where
  | response
  | body
  deriving DecidableEq, Repr

/-- How a request fails. -/
inductive Failure where
  | aborted
  | error (message : String)
  deriving DecidableEq, Repr

/-- A body that is JSON. When filling the cache from it throws, the flags
    before the one that cannot be read are in the cache. -/
structure Body where
  data : BulkResponse
  thrown : Option String := none
  deriving DecidableEq

structure CachedClient where
  cache : Cache (Option String) := fun _ => none
  subscribers : String → List Callback := fun _ => []
  sseBuffer : List WireEvent := []
  hydrationComplete : Bool := false
  closed : Bool := false
  /-- Whether the stream is still open. -/
  streaming : Bool := true
  awaits : Awaits := .response
  rehydrations : List Rehydration := []

/-- What the client does as far as others notice. -/
inductive Effect where
  /-- The cache is written to. -/
  | write
  | save (entries : Cache (Option String))
  | load
  /-- A subscriber of a flag is called with its state. -/
  | call (callback : Callback) (key : String) (enabled : Bool)
  | resolveReady
  | rejectReady (err : CuttlegateError)
  | onError (err : CuttlegateError)
  /-- A re-hydration is requested. -/
  | request

/-- What happens to the client. -/
inductive Event where
  /-- The response to the first request arrives. -/
  | response (status : Nat)
  /-- The first request fails. -/
  | failed (cause : Failure)
  /-- The body of the response has arrived, and is JSON. -/
  | body (json : Body)
  /-- It cannot be read. -/
  | bodyFailed
  /-- The handler of an exception runs. -/
  | handled
  /-- The store has loaded, with nothing if it fails. -/
  | loaded (entries : Option (List (EvalResult (Option String))))
  /-- The stream delivers. -/
  | flagChange (event : WireEvent)
  | connected (reconnect : Bool)
  | streamError (err : CuttlegateError)
  | rehydrationResponse (i : Nat) (status : Nat)
  | rehydrationBody (i : Nat) (json : Body)
  | rehydrationFailed (i : Nat)
  | subscribe (key : String) (callback : Callback)
  | unsubscribe (key : String) (callback : Callback)
  | close
  deriving DecidableEq

/-- The continuations of the hydration that ask whether the client is closed. -/
def Event.asks : Event → Bool
  | .response _ | .failed _ | .body _ | .handled => true
  | _ => false

/-- The events of the stream and of the re-hydrations. -/
def Event.aside : Event → Bool
  | .flagChange _ | .connected _ | .streamError _ => true
  | .rehydrationResponse _ _ | .rehydrationBody _ _ | .rehydrationFailed _ => true
  | _ => false

/-- The requests and reports of the client. -/
def Effect.reports : Effect → Bool
  | .request | .onError _ => true
  | _ => false

/-- A response that refuses the token. -/
def Event.refused : Event → Bool
  | .response status => status == 401 || status == 403
  | _ => false

namespace CachedClient

variable (s : CachedClient)

/-- Change the record of a flag in the cache, then tell its subscribers. -/
def applyCacheEvent (event : WireEvent) : CachedClient × List Effect :=
  match s.cache event.flagKey with
  | none => (s, [])
  | some _ =>
      let cache := Js.applyCacheEvent event s.cache
      ({ s with cache := cache },
        .write :: .save cache ::
          (s.subscribers event.flagKey).map (fun cb => .call cb event.flagKey event.enabled))

/-- Apply a list of events, one after another. -/
def drain (s : CachedClient) : List WireEvent → CachedClient × List Effect
  | [] => (s, [])
  | event :: events =>
      let (t, effects) := s.applyCacheEvent event
      let (u, more) := drain t events
      (u, effects ++ more)

/-- Called when the stream delivers. -/
def onFlagChange (event : WireEvent) : CachedClient × List Effect :=
  if s.closed then (s, [])
  else if s.hydrationComplete = false then ({ s with sseBuffer := s.sseBuffer ++ [event] }, [])
  else s.applyCacheEvent event

/-- Called on errors of the stream. -/
def onSSEError (err : CuttlegateError) : List Effect := if s.closed then [] else [.onError err]

/-- Called when the stream is open. -/
def onConnected (reconnect : Bool) : CachedClient × List Effect :=
  if reconnect = false ∨ s.closed then (s, [])
  else ({ s with rehydrations := s.rehydrations ++ [.response] }, [.request])

/-- The error of a hydration whose token is refused. -/
def authError (status : Nat) : CuttlegateError :=
  if status = 401 then ⟨"unauthorized", "Hydration returned 401 Unauthorized"⟩
  else ⟨"forbidden", "Hydration returned 403 Forbidden"⟩

/-- Close the stream, mark the client closed, reject `ready`. -/
def failHydration (err : CuttlegateError) : CachedClient × List Effect :=
  ({ s with streaming := false, closed := true, awaits := .nothing }, [.rejectReady err])

/-- Ask the store before the hydration fails. -/
def tryStoreFallback (err : CuttlegateError) : CachedClient × List Effect :=
  ({ s with awaits := .store err }, [.load])

def closedError : CuttlegateError := ⟨"closed", "Client was closed before hydration completed"⟩

/-- What every continuation of the hydration but two does in a closed client. -/
def rejectClosed : CachedClient × List Effect :=
  ({ s with awaits := .nothing }, [.rejectReady closedError])

/-- The client with the flags of a response, before the events in the buffer. -/
def filled (json : Body) : CachedClient :=
  { s with cache := populateCache json.data, hydrationComplete := true }

/-- The hydration goes on with the body of the response. -/
def hydrate (json : Body) : CachedClient × List Effect :=
  match json.thrown with
  | some message =>
      ({ s with cache := populateCache json.data, awaits := .handler message }, [.write])
  | none =>
      let (t, effects) := (s.filled json).drain s.sseBuffer
      ({ t with sseBuffer := [], awaits := .nothing },
        .write :: effects ++ [.save t.cache, .resolveReady])

/-- The hydration goes on with what the store has. -/
def restore (err : CuttlegateError) :
    Option (List (EvalResult (Option String))) → CachedClient × List Effect
  | none => s.failHydration err
  | some entries =>
      if entries.length > 0 then
        ({ s with cache := restoreCache entries, hydrationComplete := true, awaits := .nothing },
          [.write, .resolveReady])
      else s.failHydration err

/-- The errors of a re-hydration that are reported. -/
def rehydrationErrors (status : Nat) : List Effect :=
  if status = 401 then [.onError ⟨"unauthorized", "Re-hydration returned 401"⟩]
  else if status = 403 then [.onError ⟨"forbidden", "Re-hydration returned 403"⟩]
  else []

/-- The registry of subscribers after one of a flag is added, unless it is there. -/
def subscribe (key : String) (callback : Callback) : CachedClient :=
  let cbs := s.subscribers key
  let added := if callback ∈ cbs then cbs else cbs ++ [callback]
  { s with subscribers := Function.update s.subscribers key added }

def unsubscribe (key : String) (callback : Callback) : CachedClient :=
  let left := (s.subscribers key).filter (fun cb => cb ≠ callback)
  { s with subscribers := Function.update s.subscribers key left }

/-- One event, provided the client waits for it. -/
def step (timeout : Nat) : Event → Option (CachedClient × List Effect)
  | .response status =>
      if s.awaits = .response then
        if s.closed then some s.rejectClosed
        else if status = 401 then
          some (s.failHydration ⟨"unauthorized", "Hydration returned 401 Unauthorized"⟩)
        else if status = 403 then
          some (s.failHydration ⟨"forbidden", "Hydration returned 403 Forbidden"⟩)
        else if isOk status = false then
          some (s.tryStoreFallback ⟨"network_error", "Hydration returned " ++ toString status⟩)
        else some ({ s with awaits := .body }, [])
      else none
  | .failed cause =>
      if s.awaits = .response then
        if s.closed then some s.rejectClosed
        else match cause with
          | .aborted => some (s.tryStoreFallback
              ⟨"timeout", "Hydration timed out after " ++ toString timeout ++ "ms"⟩)
          | .error message => some (s.tryStoreFallback ⟨"network_error", message⟩)
      else none
  | .body json =>
      if s.awaits = .body then
        if s.closed then some s.rejectClosed else some (s.hydrate json)
      else none
  -- Whether the client has been closed in the meantime is not asked here, nor when the store
  -- answers.
  | .bodyFailed =>
      if s.awaits = .body then
        some (s.tryStoreFallback ⟨"invalid_response", "Hydration response is not valid JSON"⟩)
      else none
  | .handled =>
      match s.awaits with
      | .handler message =>
          if s.closed then some s.rejectClosed
          else some (s.tryStoreFallback ⟨"network_error", message⟩)
      | _ => none
  | .loaded entries =>
      match s.awaits with
      | .store err => some (s.restore err entries)
      | _ => none
  | .flagChange event => some (s.onFlagChange event)
  | .connected reconnect => some (s.onConnected reconnect)
  | .streamError err => some (s, s.onSSEError err)
  | .rehydrationResponse i status =>
      if s.rehydrations[i]? = some .response then
        if s.closed then some ({ s with rehydrations := s.rehydrations.eraseIdx i }, [])
        else if isOk status = false then
          some ({ s with rehydrations := s.rehydrations.eraseIdx i }, rehydrationErrors status)
        else some ({ s with rehydrations := s.rehydrations.set i .body }, [])
      else none
  -- An exception thrown here is dropped, with what the cache has got.
  | .rehydrationBody i json =>
      if s.rehydrations[i]? = some .body then
        if s.closed then some ({ s with rehydrations := s.rehydrations.eraseIdx i }, [])
        else some ({ s with
          rehydrations := s.rehydrations.eraseIdx i
          cache := populateCache json.data }, [.write])
      else none
  | .rehydrationFailed i =>
      if i < s.rehydrations.length then
        some ({ s with rehydrations := s.rehydrations.eraseIdx i }, [])
      else none
  | .subscribe key callback => some (s.subscribe key callback, [])
  | .unsubscribe key callback => some (s.unsubscribe key callback, [])
  | .close => some (if s.closed then s else { s with closed := true, streaming := false }, [])

/-! ## The cache and its subscribers -/

/-- The cache, once an event has been applied. -/
@[simp]
theorem applyCacheEvent_fst (event : WireEvent) :
    (s.applyCacheEvent event).1 = { s with cache := Js.applyCacheEvent event s.cache } := by
  unfold applyCacheEvent
  cases hfound : s.cache event.flagKey with
  | some r => rfl
  | none =>
      have hsame : Js.applyCacheEvent event s.cache = s.cache := by
        funext k
        unfold Js.applyCacheEvent Feed.modify
        by_cases hk : k = event.flagKey
        · rw [if_pos hk, hk, hfound]
          rfl
        · rw [if_neg hk]
      rw [hsame]

/-- The buffer is applied to the cache, and to nothing else. -/
theorem drain_eq (events : List WireEvent) :
    (s.drain events).1 = { s with cache := Js.applyAll events s.cache } := by
  induction events generalizing s with
  | nil => rfl
  | cons event events ih =>
      rw [drain]
      simp only [applyCacheEvent_fst, ih]
      rfl

theorem mem_subscribe (key : String) (callback : Callback) (k : String) (cb : Callback) :
    cb ∈ (s.subscribe key callback).subscribers k ↔
      cb ∈ s.subscribers k ∨ k = key ∧ cb = callback := by
  simp only [subscribe, Function.update_apply]
  by_cases hk : k = key
  · subst hk
    by_cases hin : callback ∈ s.subscribers k
    · simp only [if_true, hin, true_and]
      exact ⟨.inl, fun h => h.elim id (fun heq => heq ▸ hin)⟩
    · simp [hin]
  · simp [hk]

theorem mem_unsubscribe (key : String) (callback : Callback) (k : String) (cb : Callback)
    (h : cb ∈ (s.unsubscribe key callback).subscribers k) : cb ∈ s.subscribers k := by
  simp only [unsubscribe, Function.update_apply] at h
  by_cases hk : k = key
  · subst hk
    rw [if_pos rfl] at h
    exact (List.mem_filter.mp h).1
  · rw [if_neg hk] at h
    exact h

/-! ## What a step does -/

/-- Everything a step can do. -/
inductive Does : Event → CachedClient × List Effect → Prop
  | abandoned (e : Event) (he : e.asks = true) (hw : s.awaits ≠ .nothing)
      (hr : e.refused = true → s.awaits = .response) (hc : s.closed = true) :
      Does e s.rejectClosed
  | refused (status : Nat) (he : (Event.response status).refused = true)
      (hw : s.awaits = .response) (hc : s.closed = false) :
      Does (.response status) (s.failHydration (authError status))
  | fallback (e : Event) (err : CuttlegateError) (he : e.refused = false)
      (hl : e.asks = true ∨ e = .bodyFailed) (hw : s.awaits ≠ .nothing)
      (hstore : ∀ err', s.awaits ≠ .store err') (hc : s.closed = false ∨ e = .bodyFailed)
      (hcode : err.code ≠ "closed") :
      Does e (s.tryStoreFallback err)
  | reading (status : Nat) (he : (Event.response status).refused = false)
      (hw : s.awaits = .response) (hc : s.closed = false) :
      Does (.response status) ({ s with awaits := .body }, [])
  | thrown (json : Body) (message : String) (hw : s.awaits = .body) (hc : s.closed = false) :
      Does (.body json)
        ({ s with cache := populateCache json.data, awaits := .handler message }, [.write])
  | hydrated (json : Body) (hw : s.awaits = .body) (hc : s.closed = false) :
      Does (.body json)
        ({ s with
            cache := Js.applyAll s.sseBuffer (populateCache json.data)
            hydrationComplete := true
            sseBuffer := []
            awaits := .nothing },
          .write :: ((s.filled json).drain s.sseBuffer).2 ++
            [.save (Js.applyAll s.sseBuffer (populateCache json.data)), .resolveReady])
  | restored (entries : List (EvalResult (Option String))) (err : CuttlegateError)
      (hw : s.awaits = .store err) (hsome : entries ≠ []) :
      Does (.loaded (some entries))
        ({ s with cache := restoreCache entries, hydrationComplete := true, awaits := .nothing },
          [.write, .resolveReady])
  | lost (entries : Option (List (EvalResult (Option String)))) (err : CuttlegateError)
      (hw : s.awaits = .store err) (hnone : entries.getD [] = []) :
      Does (.loaded entries) (s.failHydration err)
  | buffered (event : WireEvent) (hc : s.closed = false) (hh : s.hydrationComplete = false) :
      Does (.flagChange event) ({ s with sseBuffer := s.sseBuffer ++ [event] }, [])
  | applied (event : WireEvent) (hc : s.closed = false) (hh : s.hydrationComplete = true) :
      Does (.flagChange event) (s.applyCacheEvent event)
  | rehydrated (i : Nat) (json : Body) (left : List Rehydration) (hc : s.closed = false) :
      Does (.rehydrationBody i json)
        ({ s with rehydrations := left, cache := populateCache json.data }, [.write])
  | aside (e : Event) (left : List Rehydration) (effects : List Effect) (he : e.aside = true)
      (hc : ∀ i json, e = .rehydrationBody i json → s.closed = true)
      (hreports : ∀ a ∈ effects, a.reports = true) :
      Does e ({ s with rehydrations := left }, effects)
  | subscribe (key : String) (callback : Callback) :
      Does (.subscribe key callback) (s.subscribe key callback, [])
  | unsubscribe (key : String) (callback : Callback) :
      Does (.unsubscribe key callback) (s.unsubscribe key callback, [])
  | close (streaming : Bool) : Does .close ({ s with closed := true, streaming := streaming }, [])

-- The cases below all open `step`; its equations are made here, for all of them.
attribute [local simp] step

theorem not_refused (status : Nat) (h401 : status ≠ 401) (h403 : status ≠ 403) :
    (Event.response status).refused = false := by
  simp [Event.refused, h401, h403]

theorem rehydrationErrors_reports (status : Nat) :
    ∀ a ∈ rehydrationErrors status, a.reports = true := by
  intro a ha
  unfold rehydrationErrors at ha
  split_ifs at ha
  · rw [List.mem_singleton.mp ha]
    rfl
  · rw [List.mem_singleton.mp ha]
    rfl
  · exact absurd ha List.not_mem_nil

/-- The continuations of the hydration. -/
theorem does_of_response (timeout status : Nat) (p : CachedClient × List Effect)
    (h : s.step timeout (.response status) = some p) : s.Does (.response status) p := by
  simp only [step] at h
  split_ifs at h with hw hc h401 h403 hok <;> cases h
  · exact .abandoned _ rfl (by simp [hw]) (fun _ => hw) hc
  · have hdoes := Does.refused status (by simp [Event.refused, h401]) hw (by simpa using hc)
    rwa [authError, if_pos h401] at hdoes
  · have hdoes := Does.refused status (by simp [Event.refused, h403]) hw (by simpa using hc)
    rwa [authError, if_neg h401] at hdoes
  · exact .fallback _ _ (not_refused status h401 h403) (.inl rfl) (by simp [hw]) (by simp [hw])
      (.inl (by simpa using hc)) (by simp)
  · exact .reading _ (not_refused status h401 h403) hw (by simpa using hc)

theorem does_of_failed (timeout : Nat) (cause : Failure) (p : CachedClient × List Effect)
    (h : s.step timeout (.failed cause) = some p) : s.Does (.failed cause) p := by
  simp only [step] at h
  split_ifs at h with hw hc
  · cases h
    exact .abandoned _ rfl (by simp [hw]) (by simp [Event.refused]) hc
  · have hopen : s.closed = false := by simpa using hc
    cases cause with
    | aborted =>
        cases h
        exact .fallback _ _ rfl (.inl rfl) (by simp [hw]) (by simp [hw]) (.inl hopen) (by simp)
    | error message =>
        cases h
        exact .fallback _ _ rfl (.inl rfl) (by simp [hw]) (by simp [hw]) (.inl hopen) (by simp)

theorem does_of_body (timeout : Nat) (json : Body) (p : CachedClient × List Effect)
    (h : s.step timeout (.body json) = some p) : s.Does (.body json) p := by
  simp only [step] at h
  split_ifs at h with hw hc <;> cases h
  · exact .abandoned _ rfl (by simp [hw]) (by simp [Event.refused]) hc
  · unfold hydrate
    cases json.thrown with
    | some message => exact .thrown json message hw (by simpa using hc)
    | none =>
        simp only [drain_eq]
        exact .hydrated json hw (by simpa using hc)

theorem does_of_bodyFailed (timeout : Nat) (p : CachedClient × List Effect)
    (h : s.step timeout .bodyFailed = some p) : s.Does .bodyFailed p := by
  simp only [step] at h
  split_ifs at h with hw
  cases h
  exact .fallback _ _ rfl (.inr rfl) (by simp [hw]) (by simp [hw]) (.inr rfl) (by simp)

theorem does_of_handled (timeout : Nat) (p : CachedClient × List Effect)
    (h : s.step timeout .handled = some p) : s.Does .handled p := by
  simp only [step] at h
  split at h
  next message hw =>
    split_ifs at h with hc <;> cases h
    · exact .abandoned _ rfl (by simp [hw]) (by simp [Event.refused]) hc
    · exact .fallback _ _ rfl (.inl rfl) (by simp [hw]) (by simp [hw]) (.inl (by simpa using hc))
        (by simp)
  next => exact (nomatch h)

theorem does_of_restore (err : CuttlegateError)
    (entries : Option (List (EvalResult (Option String)))) (hw : s.awaits = .store err) :
    s.Does (.loaded entries) (s.restore err entries) := by
  cases entries with
  | none => exact .lost none err hw rfl
  | some entries =>
      rw [restore]
      by_cases hsome : entries.length > 0
      · rw [if_pos hsome]
        exact .restored entries err hw (List.ne_nil_of_length_pos hsome)
      · rw [if_neg hsome]
        have hnil := List.eq_nil_of_length_eq_zero (Nat.eq_zero_of_not_pos hsome)
        exact .lost (some entries) err hw hnil

/-- The events of the stream and of the re-hydrations. -/
theorem does_of_flagChange (timeout : Nat) (event : WireEvent) (p : CachedClient × List Effect)
    (h : s.step timeout (.flagChange event) = some p) : s.Does (.flagChange event) p := by
  simp only [step, onFlagChange] at h
  split_ifs at h with hc hh <;> cases h
  · exact .aside _ s.rehydrations [] rfl (by simp) (by simp)
  · exact .buffered event (by simpa using hc) hh
  · exact .applied event (by simpa using hc) (by simpa using hh)

theorem does_of_connected (timeout : Nat) (reconnect : Bool) (p : CachedClient × List Effect)
    (h : s.step timeout (.connected reconnect) = some p) : s.Does (.connected reconnect) p := by
  simp only [step, onConnected] at h
  split_ifs at h <;> cases h
  · exact .aside _ s.rehydrations [] rfl (by simp) (by simp)
  · exact .aside _ _ _ rfl (by simp) (by simp [Effect.reports])

theorem does_of_streamError (timeout : Nat) (err : CuttlegateError)
    (p : CachedClient × List Effect) (h : s.step timeout (.streamError err) = some p) :
    s.Does (.streamError err) p := by
  simp only [step, onSSEError] at h
  split_ifs at h <;> cases h
  · exact .aside _ s.rehydrations [] rfl (by simp) (by simp)
  · exact .aside _ s.rehydrations _ rfl (by simp) (by simp [Effect.reports])

theorem does_of_rehydrationResponse (timeout i status : Nat) (p : CachedClient × List Effect)
    (h : s.step timeout (.rehydrationResponse i status) = some p) :
    s.Does (.rehydrationResponse i status) p := by
  simp only [step] at h
  split_ifs at h <;> cases h
  · exact .aside _ _ [] rfl (by simp) (by simp)
  · exact .aside _ _ _ rfl (by simp) (rehydrationErrors_reports status)
  · exact .aside _ _ [] rfl (by simp) (by simp)

theorem does_of_rehydrationBody (timeout i : Nat) (json : Body) (p : CachedClient × List Effect)
    (h : s.step timeout (.rehydrationBody i json) = some p) :
    s.Does (.rehydrationBody i json) p := by
  simp only [step] at h
  split_ifs at h with hw hc <;> cases h
  · exact .aside _ _ [] rfl (fun _ _ _ => hc) (by simp)
  · exact .rehydrated i json _ (by simpa using hc)

theorem does_of_step (timeout : Nat) (e : Event) (p : CachedClient × List Effect)
    (h : s.step timeout e = some p) : s.Does e p := by
  cases e with
  | response status => exact s.does_of_response timeout status p h
  | failed cause => exact s.does_of_failed timeout cause p h
  | body json => exact s.does_of_body timeout json p h
  | bodyFailed => exact s.does_of_bodyFailed timeout p h
  | handled => exact s.does_of_handled timeout p h
  | loaded entries =>
      simp only [step] at h
      split at h
      next err hw =>
        cases h
        exact s.does_of_restore err entries hw
      next => exact (nomatch h)
  | flagChange event => exact s.does_of_flagChange timeout event p h
  | connected reconnect => exact s.does_of_connected timeout reconnect p h
  | streamError err => exact s.does_of_streamError timeout err p h
  | rehydrationResponse i status => exact s.does_of_rehydrationResponse timeout i status p h
  | rehydrationBody i json => exact s.does_of_rehydrationBody timeout i json p h
  | rehydrationFailed i =>
      simp only [step] at h
      split_ifs at h
      cases h
      exact .aside _ _ [] rfl (by simp) (by simp)
  | subscribe key callback =>
      cases h
      exact .subscribe key callback
  | unsubscribe key callback =>
      cases h
      exact .unsubscribe key callback
  | close =>
      simp only [step, Option.some.injEq] at h
      subst h
      by_cases hc : s.closed = true
      · rw [if_pos hc]
        have hsame : s = { s with closed := true, streaming := s.streaming } := by rw [← hc]
        rw [hsame]
        exact .close s.streaming
      · rw [if_neg hc]
        exact .close false

end CachedClient

/-! ## Runs -/

/-- A step of a client, as it is observed. -/
structure Observed where
  before : CachedClient
  event : Event
  effects : List Effect
  after : CachedClient

/-- The steps of a client. -/
def Observes (timeout : Nat) (s : CachedClient) (o : Observed) (t : CachedClient) : Prop :=
  o.before = s ∧ o.after = t ∧ s.step timeout o.event = some (t, o.effects)

def events (H : List Observed) : List Event := H.map (·.event)

theorem events_snoc (H : List Observed) (o : Observed) :
    events (H ++ [o]) = events H ++ [o.event] := by
  simp [events]

/-- What is observed of a client while the given things happen to it. -/
def observe (timeout : Nat) : CachedClient → List Event → Option (List Observed × CachedClient)
  | s, [] => some ([], s)
  | s, e :: es => do
      let (t, effects) ← s.step timeout e
      let (H, u) ← observe timeout t es
      some (⟨s, e, effects, t⟩ :: H, u)

theorem observe_steps (timeout : Nat) (s : CachedClient) (es : List Event) (H : List Observed)
    (u : CachedClient) (h : observe timeout s es = some (H, u)) :
    Steps (Observes timeout) s H u := by
  induction es generalizing s H with
  | nil =>
      cases h
      exact .refl _
  | cons e es ih =>
      rcases Option.bind_eq_some_iff.mp h with ⟨⟨t, effects⟩, hstep, h⟩
      rcases Option.bind_eq_some_iff.mp h with ⟨⟨H', u'⟩, hrest, h⟩
      cases h
      exact Steps.cons s _ t H' u ⟨rfl, rfl, hstep⟩ (ih t H' hrest)

end Cuttlegate.Sdk.Js
