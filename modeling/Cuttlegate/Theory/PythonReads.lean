import Cuttlegate.Sdk.Bootstraps

/-!
# The Reads of the Python Clients

The cached and the plain client of Python, right after the cached one has been
constructed, with a server that gives the same answer to every request.

What the cached client holds is what the plain client fetches, so `evaluate`
and `string` read the same record of both, and a key that is not there sends
the cached client to the plain one. `bool` reads the state of the cached record
and the variant of the fetched one, and is the same exactly where each flag is
on when its variant is `"true"` and off when it is not.

## Main definitions

* `ReadsAlike`: The two clients give the same answers.

## Theorems

* `read_eq`: The reads of a record that both clients have.
* `readsAlike_iff`: For whatever the plain client fetches.
* `responseReads_iff`: For a response, in terms of its flags.
-/

namespace Cuttlegate.Sdk.Python

variable (defaults : List (String × Go.FlagDefault))

/-- The cached client, with the given cache, answers as the plain one does. -/
structure ReadsAlike (answer : Answer) (cache : Cache String) : Prop where
  bool : ∀ key, CachedClient.bool defaults answer cache key = bool defaults answer key
  string : ∀ key, CachedClient.string defaults answer cache key = string defaults answer key
  evaluate : ∀ key, CachedClient.evaluate defaults answer cache key = evaluate defaults answer key

/-- The cache of the comparison of the three libraries is read the same way. -/
theorem cachedBool_read (inner : String → Except ClientErr Bool) (cache : Cache String)
    (key : String) :
    (cachedBool inner cache key).mapError .sdk =
      read (·.enabled) (fun k => (inner k).mapError .sdk) cache key := by
  unfold cachedBool read
  cases cache key <;> rfl

/-- A read of the plain client, once it has its results. -/
theorem evaluate_eq (answer : Answer) (results : Cache String)
    (hall : evaluateAll defaults answer = .ok results) (key : String) :
    evaluate defaults answer key = pick results key := by
  rw [evaluate, hall]
  rfl

/-- A read of the cache is the read of the plain client exactly when they agree
    on the record, if there is one. -/
theorem read_eq {α : Type} (answer : Answer) (results : Cache String)
    (hall : evaluateAll defaults answer = .ok results) (field plain : EvalResult String → α)
    (inner : String → Except Raised α)
    (hinner : ∀ key, inner key = (evaluate defaults answer key).map plain) (key : String) :
    read field inner results key = inner key ↔
      ∀ r, results key = some r → field r = plain r := by
  unfold read
  cases hfound : results key with
  | none => exact iff_of_true rfl (fun r hr => absurd hr (by simp))
  | some r =>
      have hplain : inner key = .ok (plain r) := by
        rw [hinner, evaluate_eq defaults answer results hall, pick, hfound]
        rfl
      rw [hplain]
      constructor
      · intro h r' hr'
        cases hr'
        exact Except.ok.inj h
      · intro h
        exact congrArg Except.ok (h r rfl)

/-- The clients read alike exactly when every record is on for the variant
    `"true"` and for no other. -/
theorem readsAlike_iff (answer : Answer) (results : Cache String)
    (hall : evaluateAll defaults answer = .ok results) :
    ReadsAlike defaults answer results ↔
      ∀ key r, results key = some r → r.enabled = (r.variant == "true") := by
  have hbool : ∀ key, bool defaults answer key =
      (evaluate defaults answer key).map (fun r => r.variant == "true") := by
    intro key
    rw [bool]
    cases evaluate defaults answer key <;> rfl
  have hstring : ∀ key, string defaults answer key =
      (evaluate defaults answer key).map (fun r => r.variant) := by
    intro key
    rw [string]
    cases evaluate defaults answer key <;> rfl
  have hevaluate : ∀ key, evaluate defaults answer key =
      (evaluate defaults answer key).map (fun r => r) := by
    intro key
    cases evaluate defaults answer key <;> rfl
  constructor
  · intro halike key
    exact (read_eq defaults answer results hall _ _ _ hbool key).mp (halike.bool key)
  · intro hsame
    refine ⟨fun key => ?_, fun key => ?_, fun key => ?_⟩
    · exact (read_eq defaults answer results hall _ _ _ hbool key).mpr (hsame key)
    · exact (read_eq defaults answer results hall _ _ _ hstring key).mpr (fun _ _ => rfl)
    · exact (read_eq defaults answer results hall _ _ _ hevaluate key).mpr (fun _ _ => rfl)

/-- With a response of the server, the client is constructed, and reads like the
    plain one if and only if every flag, the last one of its key, is on exactly
    when its `value_key` is `"true"`. -/
theorem responseReads_iff (load : Option (Entries String)) (r : BulkResponse) :
    (∃ cache, bootstrap defaults load (.answered 200 (.parsed r)) = ⟨none, false, cache, true⟩ ∧
        ReadsAlike defaults (.answered 200 (.parsed r)) cache) ↔
      ∀ f ∈ r.flags, Feed.latest (·.key) f.key r.flags = some f →
        (f.enabled = true ↔ f.valueKey = "true") := by
  have hall : evaluateAll defaults (.answered 200 (.parsed r)) = .ok (parseBulkResponse r) := rfl
  have hboot : bootstrap defaults load (.answered 200 (.parsed r)) =
      ⟨none, false, parseBulkResponse r, true⟩ := rfl
  have hcache : ∀ key, parseBulkResponse r key =
      (Feed.latest (·.key) key r.flags).map (fun f =>
        { key := f.key, enabled := f.enabled, value := f.valueText, variant := f.valueKey
          reason := f.reason, evaluatedAt := r.evaluatedAt }) := Feed.fill_eq _ _ r.flags
  have hflag : ∀ f : BulkFlag,
      (f.enabled = (f.valueKey == "true")) ↔ (f.enabled = true ↔ f.valueKey = "true") := by
    intro f
    rw [← beq_iff_eq (a := f.valueKey), Bool.eq_iff_iff]
  constructor
  · rintro ⟨cache, hcached, halike⟩ f _ hlatest
    rw [hboot] at hcached
    cases hcached
    have hrecord := (readsAlike_iff defaults _ _ hall).mp halike f.key _
      (by rw [hcache, hlatest]; rfl)
    exact (hflag f).mp hrecord
  · intro hflags
    refine ⟨_, hboot, (readsAlike_iff defaults _ _ hall).mpr (fun key record hrecord => ?_)⟩
    rw [hcache] at hrecord
    rcases Option.map_eq_some_iff.mp hrecord with ⟨f, hlatest, rfl⟩
    rcases Feed.latest_some _ key r.flags f hlatest with ⟨hmem, rfl⟩
    exact (hflag f).mpr (hflags f hmem hlatest)

/-- A string flag that is on: the cached client says that it is on, the plain
    one that its variant is not `"true"`. -/
theorem reads_differ : ¬ ∀ defaults load r, ∃ cache,
    bootstrap defaults load (.answered 200 (.parsed r)) = ⟨none, false, cache, true⟩ ∧
      ReadsAlike defaults (.answered 200 (.parsed r)) cache := by
  intro hall
  rcases hall [] none ⟨[⟨"theme", true, some "blue", "blue", "default", "string"⟩], ""⟩
    with ⟨cache, hcached, halike⟩
  cases hcached
  exact absurd (halike.bool "theme") (by decide)

end Cuttlegate.Sdk.Python
