import Cuttlegate.Lib.Steps
import Cuttlegate.Sdk.CachedClients

/-!
# Convergence of the Cached Clients

Once the stream is open, all announcements and responses have arrived and the
server is quiet, a cached client should hold the server's bit for every flag
it holds.

What it will hold once everything has arrived is settled by the announcements
still on their way, so the property to carry along a run is that the cache,
overwritten by them, is what the server has (`Agrees`). A toggle keeps it when
a stream is subscribed, and so does a delivery. It is not kept where
announcements are lost, and it has to be established afresh where the cache is
filled and where a stream is opened.

The Go and the Python client fill the cache before they open the stream and
never fill it again. What a client was told last of a flag is in the run: the
snapshot or a stored record says it first, and then each announcement that is
delivered. Toggles before the stream is subscribed, while it is down, and those
that are lost when it drops are told to nobody. The client converges along a run
exactly when each of these has been undone when the stream is next opened.

The JavaScript client fills its cache from the first response, on top of which
it applies what it has buffered; from the store; and from each re-hydration,
on top of which it applies nothing. It converges along a run exactly when the
step after which nothing is outstanding any more fills the cache with bits
that are the server's, but for those that an announcement still on its way (or
in the buffer) will put right; and likewise, when a re-hydration fails or when
the first connection is made to a client that is hydrated already, what the run
has told the client last is what the server has.

## Main definitions

* `Agrees`: A cache, overwritten by the announcements on their way, is what
  the server has.
* `Account`, `Account.Current`: What a run has told the client, and that the
  flags are as it was told.
* `Follower.Quiet`, `Hydrated.Quiet`: Everything has arrived.
* `Settles`: What was told, overwritten by the announcements on their way, is
  what the server has.
* `Hydrated.told`: What a run has told the client.
* `Hydrated.Fresh`: What a step has to bring.

## Theorems

* `agrees_toggle`, `agrees_deliver`, `agrees_drain`: Toggles and deliveries.
* `Follower.step_agrees`, `Hydrated.step_agrees_iff`: What a step does.
* `Follower.run_follows`, `Hydrated.told_eq`: A client holds what the run has
  told it.
* `Hydrated.hydrate_agrees_iff`, `Hydrated.rehydrate_agrees_iff`,
  `Hydrated.load_agrees_iff`: What a response has to bring.
* `Hydrated.drain`: A stream can deliver what it has.
* `follower_converges_iff`, `hydrated_converges_iff`: Convergence.
-/

namespace Cuttlegate.Sdk

/-! ## Announcements on their way -/

/-- The cache, overwritten by the announcements on their way, holds the bits of
    the server. -/
def Agrees {V : Type} (cache : Cache V) (queue : List WireEvent) (bits : String → Bool) : Prop :=
  ∀ k entry, cache k = some entry →
    Feed.settled WireEvent.flagKey WireEvent.enabled queue k entry.enabled = bits k

/-- A toggle is announced. -/
theorem agrees_toggle {V : Type} (cache : Cache V) (queue : List WireEvent) (bits : String → Bool)
    (flagKey : String) (enabled : Bool) (occurredAt : String) (h : Agrees cache queue bits) :
    Agrees cache (queue ++ [stateChanged flagKey enabled occurredAt])
      (Function.update bits flagKey enabled) := by
  intro k entry hentry
  exact Feed.settled_sent WireEvent.flagKey WireEvent.enabled queue
    (stateChanged flagKey enabled occurredAt) bits k entry.enabled (h k entry hentry)

/-- An announcement arrives, and the record of its flag takes the state over. -/
theorem agrees_deliver {V : Type} (update : WireEvent → EvalResult V → EvalResult V)
    (hupdate : ∀ e r, (update e r).enabled = e.enabled) (cache : Cache V) (e : WireEvent)
    (queue : List WireEvent) (bits : String → Bool) :
    Agrees (Feed.modify e.flagKey (update e) cache) queue bits ↔
      Agrees cache (e :: queue) bits := by
  -- Both sides are about the keys of the cache, which a change does not add to.
  refine forall_congr' (fun k => ?_)
  unfold Feed.modify
  simp only [Feed.settled_cons]
  by_cases hk : k = e.flagKey
  · subst hk
    cases cache e.flagKey with
    | none => simp
    | some old =>
        simp only [if_true, Option.map_some, Option.some.injEq, forall_eq', hupdate]
  · simp only [if_neg hk, if_neg (Ne.symm hk)]

/-- Announcements that have arrived, and some that have not. -/
theorem agrees_drain {V : Type} (update : WireEvent → EvalResult V → EvalResult V)
    (hupdate : ∀ e r, (update e r).enabled = e.enabled) (arrived queue : List WireEvent)
    (bits : String → Bool) (cache : Cache V) :
    Agrees (arrived.foldl (fun c e => Feed.modify e.flagKey (update e) c) cache) queue bits ↔
      Agrees cache (arrived ++ queue) bits := by
  induction arrived generalizing cache with
  | nil => exact Iff.rfl
  | cons e arrived ih =>
      rw [List.foldl_cons, ih, List.cons_append]
      exact agrees_deliver update hupdate cache e (arrived ++ queue) bits

/-- The state of a flag is all an announcement says of it. -/
theorem modify_enabled {V : Type} (update : WireEvent → EvalResult V → EvalResult V)
    (hupdate : ∀ e r, (update e r).enabled = e.enabled) (e : WireEvent) (cache : Cache V)
    (k : String) :
    Feed.modify e.flagKey (fun _ => e.enabled) (fun j => (cache j).map (·.enabled)) k =
      (Feed.modify e.flagKey (update e) cache k).map (·.enabled) := by
  unfold Feed.modify
  split
  · rw [Option.map_map, Option.map_map]
    exact Option.map_congr (fun r _ => (hupdate e r).symm)
  · rfl

/-- What was told, overwritten by the announcements on their way, is what the
    server has. -/
def Settles (told : String → Option Bool) (queue : List WireEvent) (bits : String → Bool) : Prop :=
  ∀ k enabled, told k = some enabled →
    Feed.settled WireEvent.flagKey WireEvent.enabled queue k enabled = bits k

theorem agrees_iff_settles {V : Type} (cache : Cache V) (queue : List WireEvent)
    (bits : String → Bool) :
    Agrees cache queue bits ↔ Settles (fun k => (cache k).map (·.enabled)) queue bits := by
  unfold Agrees Settles
  simp only [Option.map_eq_some_iff]
  constructor
  · rintro hall k _ ⟨entry, hentry, rfl⟩
    exact hall k entry hentry
  · intro hall k entry hentry
    exact hall k entry.enabled ⟨entry, hentry, rfl⟩

/-! ## Go and Python -/

/-- What a run says of the flags: the bits of the server, what a snapshot on its
    way says, what the client was told last of the flags it asked for, and the
    toggles announced on the open stream that have not arrived. What the client
    makes of it is left out. -/
structure Account where
  bits : String → Bool
  taken : String → Option Bool := fun _ => none
  told : String → Option Bool := fun _ => none
  streaming : Bool := false
  announced : List (String × Bool) := []

namespace Account

/-- A client is told the bits of a snapshot or of stored records first, and
    then what each announcement says that arrives. -/
def step (a : Account) : FollowerAct → Account
  | .toggle flagKey enabled _ =>
      { a with
        bits := Function.update a.bits flagKey enabled
        announced := if a.streaming = true then a.announced ++ [(flagKey, enabled)]
          else a.announced }
  | .snapshot r =>
      { a with taken := fun k => if r.flags.any (·.key == k) then some (a.bits k) else none }
  | .bootstrapped => { a with told := a.taken }
  | .restored entries =>
      { a with told := fun k => (Feed.latest (·.key) k entries).map (·.enabled) }
  | .connect => { a with streaming := true, announced := [] }
  | .refused => a
  | .terminal => { a with streaming := false }
  | .deliver =>
      match a.announced with
      | [] => a
      | (k, enabled) :: rest =>
          { a with told := Feed.modify k (fun _ => enabled) a.told, announced := rest }
  -- What was announced and had not arrived is never told.
  | .drop => { a with streaming := false, announced := [] }

/-- The account of a run. -/
def ofRun (bits : String → Bool) (acts : List FollowerAct) : Account :=
  acts.foldl step { bits := bits }

/-- Whatever was toggled without the client hearing of it was toggled back:
    what the client was told last of each flag is how the flag is. -/
def Current (a : Account) : Prop := ∀ k enabled, a.told k = some enabled → enabled = a.bits k

end Account

namespace Follower

variable (lib : Library)

theorem update_enabled (e : WireEvent) (r : EvalResult String) :
    (lib.update e r).enabled = e.enabled := by
  cases lib <;> rfl

/-- The stream is open and has delivered everything. -/
def Quiet (s : Follower) : Prop := s.link = .on ∧ s.queue = []

/-- The cache holds the bits of the server. -/
def Converged (s : Follower) : Prop :=
  ∀ k entry, s.cache k = some entry → entry.enabled = s.bits k

/-- The runs of a client. -/
abbrev Runs (s : Follower) (acts : List FollowerAct) (t : Follower) : Prop :=
  Steps (fun s a t => step lib s a = some t) s acts t

/-- While the stream is open, the cache agrees with the server, provided it
    does when the stream is opened. -/
theorem step_agrees (s t : Follower) (a : FollowerAct) (hstep : step lib s a = some t)
    (hopen : a = .connect → s.Converged)
    (hagrees : s.link = .on → s.bootstrap = .finished ∧ Agrees s.cache s.queue s.bits) :
    t.link = .on → t.bootstrap = .finished ∧ Agrees t.cache t.queue t.bits := by
  intro hon
  -- With the stream open the bootstrap is over, so no snapshot and no record of
  -- the store can still get into the cache.
  cases a with
  | toggle flagKey enabled occurredAt =>
      cases hstep
      have hopened : s.link = .on := hon
      rcases hagrees hopened with ⟨hover, hsame⟩
      refine ⟨hover, ?_⟩
      simp only [hopened, if_true]
      exact agrees_toggle _ _ _ _ _ _ hsame
  | snapshot r =>
      simp only [step, Option.ite_none_right_eq_some, Option.some.injEq] at hstep
      rcases hstep with ⟨⟨hrequested, _⟩, rfl⟩
      exact absurd ((hagrees hon).1.symm.trans hrequested) (by decide)
  | bootstrapped =>
      cases hboot : s.bootstrap with
      | requested => simp [step, hboot] at hstep
      | finished => simp [step, hboot] at hstep
      | taken r =>
          simp only [step, hboot, Option.some.injEq] at hstep
          cases hstep
          exact absurd ((hagrees hon).1.symm.trans hboot) (by simp)
  | restored entries =>
      simp only [step, Option.ite_none_right_eq_some, Option.some.injEq] at hstep
      rcases hstep with ⟨⟨hnot, _⟩, rfl⟩
      exact absurd (hagrees hon).1 hnot
  | connect =>
      simp only [step, Option.ite_none_right_eq_some, Option.some.injEq] at hstep
      rcases hstep with ⟨⟨hover, _⟩, rfl⟩
      exact ⟨hover, hopen rfl⟩
  | refused =>
      simp only [step, Option.ite_none_right_eq_some, Option.some.injEq] at hstep
      rcases hstep with ⟨_, rfl⟩
      exact hagrees hon
  | terminal =>
      simp only [step, Option.ite_none_right_eq_some, Option.some.injEq] at hstep
      rcases hstep with ⟨_, rfl⟩
      exact (nomatch hon)
  | deliver =>
      simp only [step, Option.ite_none_right_eq_some] at hstep
      rcases hstep with ⟨hopened, hstep⟩
      cases hqueue : s.queue with
      | nil => simp [hqueue] at hstep
      | cons e rest =>
          simp only [hqueue, Option.some.injEq] at hstep
          cases hstep
          rcases hagrees hopened with ⟨hover, hsame⟩
          refine ⟨hover, ?_⟩
          rw [hqueue] at hsame
          have hone := (agrees_deliver (lib.update) (update_enabled lib) s.cache e rest s.bits).mpr
            hsame
          cases lib <;> exact hone
  | drop =>
      simp only [step, Option.ite_none_right_eq_some, Option.some.injEq] at hstep
      rcases hstep with ⟨_, rfl⟩
      exact (nomatch hon)

/-! ### The account of a run -/

/-- The client holds what it was told, and what is queued for it is what was
    announced. -/
structure Follows (s : Follower) (a : Account) : Prop where
  bits : a.bits = s.bits
  taken : ∀ r, s.bootstrap = .taken r → ∀ k, a.taken k = (lib.seed r k).map (·.enabled)
  told : ∀ k, a.told k = (s.cache k).map (·.enabled)
  streaming : a.streaming = true ↔ s.link = .on
  announced : a.announced = s.queue.map (fun e => (e.flagKey, e.enabled))

/-- A response says of the flags in it what the server said when it took the
    snapshot. -/
theorem seed_enabled (r : BulkResponse) (bits : String → Bool) (hr : r.Reports bits) (k : String) :
    (lib.seed r k).map (·.enabled) =
      if r.flags.any (·.key == k) then some (bits k) else none := by
  have hseed : (lib.seed r k).map (·.enabled) =
      (Feed.latest (·.key) k r.flags).map (·.enabled) := by
    cases lib with
    | go =>
        rw [Library.seed, Go.results, Feed.fill_eq, Option.map_map]
        rfl
    | python =>
        rw [Library.seed, Python.parseBulkResponse, Feed.fill_eq, Option.map_map]
        rfl
  rw [hseed]
  cases hlast : Feed.latest (·.key) k r.flags with
  | none =>
      have hnone := (Feed.latest_none _ _ _).mp hlast
      rw [if_neg (by simpa using hnone)]
      rfl
  | some f =>
      rcases Feed.latest_some _ _ _ _ hlast with ⟨hf, hk⟩
      rw [if_pos (List.any_eq_true.mpr ⟨f, hf, by simpa using hk⟩), Option.map_some, hr f hf, hk]

/-- The state of a flag is all an announcement says of it. -/
theorem apply_enabled (e : WireEvent) (cache : Cache String) (told : String → Option Bool)
    (htold : ∀ k, told k = (cache k).map (·.enabled)) (k : String) :
    Feed.modify e.flagKey (fun _ => e.enabled) told k = (lib.apply e cache k).map (·.enabled) := by
  have happly : lib.apply e cache = Feed.modify e.flagKey (lib.update e) cache := by
    cases lib <;> rfl
  rw [happly, funext htold]
  exact modify_enabled lib.update (update_enabled lib) e cache k

theorem step_follows (s t : Follower) (act : FollowerAct) (a : Account)
    (hstep : step lib s act = some t) (hs : s.Follows lib a) : t.Follows lib (a.step act) := by
  cases act with
  | toggle flagKey enabled occurredAt =>
      cases hstep
      have hbits : (a.step (.toggle flagKey enabled occurredAt)).bits =
          Function.update s.bits flagKey enabled := by
        rw [← hs.bits]
        rfl
      refine ⟨hbits, hs.taken, hs.told, hs.streaming, ?_⟩
      -- The hub queues the announcement only for a client that listens.
      by_cases hon : s.link = .on
      · simp only [Account.step, if_pos hon, if_pos (hs.streaming.mpr hon), hs.announced]
        simp [stateChanged]
      · have hoff : ¬ a.streaming = true := fun h => hon (hs.streaming.mp h)
        simp only [Account.step, if_neg hon, if_neg hoff, hs.announced]
  | snapshot r =>
      simp only [step, Option.ite_none_right_eq_some, Option.some.injEq] at hstep
      rcases hstep with ⟨⟨_, hr⟩, rfl⟩
      -- The answer is read off the server's bits of this moment.
      refine ⟨hs.bits, fun r' hr' k => ?_, hs.told, hs.streaming, hs.announced⟩
      cases hr'
      rw [seed_enabled lib r s.bits hr k, ← hs.bits]
      rfl
  | bootstrapped =>
      cases hboot : s.bootstrap with
      | requested => simp [step, hboot] at hstep
      | finished => simp [step, hboot] at hstep
      | taken r =>
          simp only [step, hboot, Option.some.injEq] at hstep
          cases hstep
          exact ⟨hs.bits, fun _ h => absurd h (by simp), hs.taken r hboot, hs.streaming,
            hs.announced⟩
  | restored entries =>
      simp only [step, Option.ite_none_right_eq_some, Option.some.injEq] at hstep
      rcases hstep with ⟨_, rfl⟩
      refine ⟨hs.bits, fun _ h => absurd h (by simp), fun k => ?_, hs.streaming, hs.announced⟩
      simp only [Account.step, Feed.fill_eq, Option.map_map]
      rfl
  | connect =>
      simp only [step, Option.ite_none_right_eq_some, Option.some.injEq] at hstep
      rcases hstep with ⟨_, rfl⟩
      exact ⟨hs.bits, hs.taken, hs.told, iff_of_true rfl rfl, rfl⟩
  | refused =>
      simp only [step, Option.ite_none_right_eq_some, Option.some.injEq] at hstep
      rcases hstep with ⟨_, rfl⟩
      exact hs
  | terminal =>
      simp only [step, Option.ite_none_right_eq_some, Option.some.injEq] at hstep
      rcases hstep with ⟨_, rfl⟩
      exact ⟨hs.bits, hs.taken, hs.told, by simp [Account.step], hs.announced⟩
  | deliver =>
      simp only [step, Option.ite_none_right_eq_some] at hstep
      rcases hstep with ⟨_, hstep⟩
      have hannounced := hs.announced
      cases hqueue : s.queue with
      | nil => simp [hqueue] at hstep
      | cons e rest =>
          simp only [hqueue, Option.some.injEq] at hstep
          cases hstep
          -- The account has announced what the queue holds, in the same order.
          rw [hqueue] at hannounced
          simp only [Account.step, hannounced, List.map_cons]
          exact ⟨hs.bits, hs.taken, apply_enabled lib e s.cache a.told hs.told, hs.streaming, rfl⟩
  | drop =>
      simp only [step, Option.ite_none_right_eq_some, Option.some.injEq] at hstep
      rcases hstep with ⟨_, rfl⟩
      exact ⟨hs.bits, hs.taken, hs.told, by simp [Account.step], rfl⟩

/-- A client holds what the run has told it. -/
theorem run_follows (bits : String → Bool) (acts : List FollowerAct) (t : Follower)
    (hrun : Runs lib { bits := bits } acts t) : t.Follows lib (Account.ofRun bits acts) := by
  refine Steps.invariant (fun H u => u.Follows lib (Account.ofRun bits H)) _ ?_ ?_ acts t hrun
  · exact ⟨rfl, fun _ h => absurd h (by simp), fun _ => rfl, by simp [Account.ofRun], rfl⟩
  · intro H u act v _ hu hstep
    rw [Account.ofRun, List.foldl_append]
    exact step_follows lib u v act _ hstep hu

/-- It agrees with the server exactly when it has been told of everything that
    is not as it was told before. -/
theorem run_converged_iff (bits : String → Bool) (acts : List FollowerAct) (t : Follower)
    (hrun : Runs lib { bits := bits } acts t) :
    t.Converged ↔ (Account.ofRun bits acts).Current := by
  have hfollows := run_follows lib bits acts t hrun
  unfold Converged Account.Current
  simp only [hfollows.told, hfollows.bits, Option.map_eq_some_iff]
  constructor
  · rintro hall k _ ⟨entry, hentry, rfl⟩
    exact hall k entry hentry
  · intro hall k entry hentry
    exact hall k entry.enabled ⟨entry, hentry, rfl⟩

end Follower

/-- A client that asks for the flags once converges along a run, at every
    moment at which the stream is open and has delivered everything, exactly
    when at every opening of the stream each flag is as the client was last
    told: at the snapshot, by a stored record, or by the last announcement of
    the flag that was delivered. -/
theorem follower_converges_iff (lib : Library) (bits : String → Bool) (acts : List FollowerAct) :
    (∀ past rest t, acts = past ++ rest → Follower.Runs lib { bits := bits } past t → t.Quiet →
        t.Converged) ↔
      ∀ past rest t, acts = past ++ .connect :: rest → Follower.Runs lib { bits := bits } past t →
        (∃ u, Follower.step lib t .connect = some u) → (Account.ofRun bits past).Current := by
  have hcurrent := fun past t hpast => Follower.run_converged_iff lib bits past t hpast
  constructor
  · rintro hall past rest t rfl hpast ⟨u, hstep⟩
    have hopen : u.Quiet ∧ u.cache = t.cache ∧ u.bits = t.bits := by
      simp only [Follower.step, Option.ite_none_right_eq_some, Option.some.injEq] at hstep
      rcases hstep with ⟨_, rfl⟩
      exact ⟨⟨rfl, rfl⟩, rfl, rfl⟩
    have hconverged := hall (past ++ [.connect]) rest u (by simp)
      (Steps.snoc _ _ _ _ _ hpast hstep) hopen.1
    unfold Follower.Converged at hconverged
    rw [hopen.2.1, hopen.2.2] at hconverged
    exact (hcurrent past t hpast).mp hconverged
  · intro hopens past rest t hacts hpast hquiet
    -- Every connection of the run is made in agreement, so the steps keep it.
    have hagrees : t.link = .on → t.bootstrap = .finished ∧ Agrees t.cache t.queue t.bits := by
      refine Steps.invariant_along (fun t : Follower => t.link = .on →
        t.bootstrap = .finished ∧ Agrees t.cache t.queue t.bits) _ (fun hon => absurd hon (by simp))
        acts (fun H o after u v hafter hH hstep hu => ?_) past rest t hacts hpast
      refine Follower.step_agrees lib u v o hstep (fun ho => ?_) hu
      rw [ho] at hafter hstep
      exact (hcurrent H u hH).mpr (hopens H after u hafter hH ⟨v, hstep⟩)
    have hnow := (hagrees hquiet.1).2
    rw [hquiet.2] at hnow
    exact hnow

/-- A snapshot in which a flag is off. -/
def offSnapshot : BulkResponse := ⟨[⟨"dark-mode", false, none, "false", "disabled", "bool"⟩], ""⟩

/-- The flag is turned on after the snapshot and before the stream is opened:
    neither client ever hears of it. -/
theorem follower_misses_toggle :
    (¬ ∀ bits acts s, Follower.Runs .go { bits := bits } acts s → s.Quiet → s.Converged) ∧
      ¬ ∀ bits acts s, Follower.Runs .python { bits := bits } acts s → s.Quiet → s.Converged := by
  constructor
  · intro hall
    have hconverged := hall (fun _ => false) [.snapshot offSnapshot, .bootstrapped,
      .toggle "dark-mode" true "2026-03-21T12:00:00Z", .connect] _
      (Steps.of_foldlM _ _ _ _ rfl) ⟨rfl, rfl⟩
    exact absurd (hconverged "dark-mode" _ rfl) (by decide)
  · intro hall
    have hconverged := hall (fun _ => false) [.snapshot offSnapshot, .bootstrapped,
      .toggle "dark-mode" true "2026-03-21T12:00:00Z", .connect] _
      (Steps.of_foldlM _ _ _ _ rfl) ⟨rfl, rfl⟩
    exact absurd (hconverged "dark-mode" _ rfl) (by decide)

/-! ## JavaScript -/

namespace Hydrated

/-- The client is hydrated and open, its stream is connected, and no response
    is outstanding. -/
def Ready (s : Hydrated) : Prop :=
  s.hydrationComplete = true ∧ s.closed = false ∧ s.stream = .connected ∧ s.rehydrations = []

/-- The client is ready, and the stream has delivered everything. -/
def Quiet (s : Hydrated) : Prop := s.Ready ∧ s.queue = []

/-- The cache holds the bits of the server. -/
def Converged (s : Hydrated) : Prop :=
  ∀ k entry, s.cache k = some entry → entry.enabled = s.bits k

/-- The runs of the client. -/
abbrev Runs (s : Hydrated) (acts : List HydratedAct) (t : Hydrated) : Prop :=
  Steps (fun s a t => step s a = some t) s acts t

/-- What was told, after an announcement. A client that was not told of the flag
    makes nothing of it. -/
def retold (told : String → Option Bool) (e : WireEvent) : String → Option Bool :=
  Feed.modify e.flagKey (fun _ => e.enabled) told

/-- The bits of a response. -/
def reportedBits (r : BulkResponse) (k : String) : Option Bool :=
  (Feed.latest (·.key) k r.flags).map (·.enabled)

/-- What a step tells the client of the flags: a response or stored records say
    it anew, and an announcement that is delivered once the client is hydrated
    says it of its flag. -/
def hears (s : Hydrated) : HydratedAct → (String → Option Bool) → String → Option Bool
  | .deliver, told =>
      if s.closed = true ∨ s.hydrationComplete = false then told
      else s.queue.head?.elim told (retold told)
  | .hydrate, told =>
      match s.hydration with
      | .taken r =>
          if s.closed = true then told else s.sseBuffer.foldl retold (reportedBits r)
      | _ => told
  | .load entries, told =>
      if entries.length > 0 then fun k => (Feed.latest (·.key) k entries).map (·.enabled)
      else told
  | .rehydrate i, told =>
      match s.rehydrations[i]? with
      | some (some r) => if s.closed = true then told else reportedBits r
      | _ => told
  | _, told => told

/-- What a run has told the client. -/
def told (bits : String → Bool) (acts : List HydratedAct) : String → Option Bool :=
  (Steps.gathered step hears { bits := bits } (fun _ => none) acts).2

/-- What a step that leaves nothing outstanding has to bring: bits that are the
    server's, but for those an announcement on its way, or in the buffer, will
    put right. The client has been told of some before. -/
def Fresh (s : Hydrated) (told : String → Option Bool) : HydratedAct → Prop
  -- The first connection is not followed by a request.
  | .connect => s.hasConnectedBefore = false → s.closed = false → s.hydrationComplete = true →
      s.rehydrations = [] → Settles told s.queue s.bits
  | .hydrate => s.closed = false → s.stream = .connected → s.rehydrations = [] →
      ∀ r, s.hydration = .taken r → Agrees (Js.populateCache r) (s.sseBuffer ++ s.queue) s.bits
  | .load entries => s.closed = false → s.stream = .connected → s.rehydrations = [] →
      Agrees (Js.restoreCache entries) s.queue s.bits
  | .rehydrate i => s.hydrationComplete = true → s.closed = false → s.stream = .connected →
      ∀ r, s.rehydrations = [some r] → i = 0 → Agrees (Js.populateCache r) s.queue s.bits
  | .rehydrationFails i => s.hydrationComplete = true → s.closed = false → s.stream = .connected →
      s.rehydrations.length = 1 → i = 0 → Settles told s.queue s.bits
  | _ => True

theorem update_enabled (e : WireEvent) (r : EvalResult (Option String)) :
    (Js.update e r).enabled = e.enabled := rfl

/-- The states of the flags of the cache. -/
def cachedBits (s : Hydrated) (k : String) : Option Bool := (s.cache k).map (·.enabled)

/-- Nothing is left of a list without its entry at an index exactly when that
    was its only entry. -/
theorem eraseIdx_nil_iff {α : Type} (l : List α) (i : Nat) (a : α) (h : l[i]? = some a) :
    l.eraseIdx i = [] ↔ l = [a] ∧ i = 0 := by
  rcases List.getElem?_eq_some_iff.mp h with ⟨hlt, ha⟩
  constructor
  · intro hnil
    have hlen := List.length_eraseIdx_of_lt hlt
    rw [hnil, List.length_nil] at hlen
    have hone : l.length = 1 := by omega
    have hi : i = 0 := by omega
    subst hi
    rcases List.length_eq_one_iff.mp hone with ⟨b, rfl⟩
    exact ⟨by rw [← ha]; rfl, rfl⟩
  · rintro ⟨rfl, rfl⟩
    rfl

/-- A closed client is never ready. -/
theorem closed_unready (s : Hydrated) (hclosed : s.closed = true) : ¬ s.Ready :=
  fun hready => absurd (hready.2.1.symm.trans hclosed) (by decide)

section Steps

variable (s t : Hydrated)

-- Every lemma of this section opens `step`; its equations are made here, for all of them.
attribute [local simp] step

/-- A first connection is not followed by a request, so the cache has to be
    right already. A reconnection sends one, which the client then waits for. -/
theorem connect_agrees_iff (hstep : step s .connect = some t) :
    (t.Ready → Agrees t.cache t.queue t.bits) ↔ s.Fresh s.cachedBits .connect := by
  simp only [step, Option.ite_none_right_eq_some, Option.some.injEq] at hstep
  rcases hstep with ⟨_, rfl⟩
  unfold onConnected
  by_cases hfirst : s.hasConnectedBefore = false ∨ s.closed = true
  · rw [if_pos hfirst]
    constructor
    · exact fun h _ hopen hhydrated hnone =>
        (agrees_iff_settles _ _ _).mp (h ⟨hhydrated, hopen, rfl, hnone⟩)
    · rintro hfresh ⟨hhydrated, hopen, -, hnone⟩
      rcases hfirst with hfirst | hclosed
      · exact (agrees_iff_settles _ _ _).mpr (hfresh hfirst hopen hhydrated hnone)
      · exact absurd (hopen.symm.trans hclosed) (by decide)
  · rw [if_neg hfirst]
    -- A re-hydration is on its way, so the client is not ready.
    refine iff_of_true (fun hready => ?_) (fun hnever => absurd (.inl hnever) hfirst)
    exact absurd hready.2.2.2 (by simp)

/-- A delivered announcement moves from the stream into the cache. Before the
    hydration it goes into the buffer, but then the client is not ready. -/
theorem deliver_agrees (hstep : step s .deliver = some t)
    (hagrees : s.Ready → Agrees s.cache s.queue s.bits) (hready : t.Ready) :
    Agrees t.cache t.queue t.bits := by
  simp only [step, Option.ite_none_right_eq_some] at hstep
  rcases hstep with ⟨hconnected, hstep⟩
  cases hqueue : s.queue with
  | nil => simp [hqueue] at hstep
  | cons e rest =>
      simp only [hqueue, Option.some.injEq, onFlagChange] at hstep
      -- A closed client drops the event, one still hydrating keeps it for later, and only a
      -- ready one applies it.
      by_cases hclosed : s.closed = true
      · rw [if_pos hclosed] at hstep
        cases hstep
        exact absurd hready (closed_unready _ hclosed)
      by_cases hbuffer : s.hydrationComplete = false
      · rw [if_neg hclosed, if_pos hbuffer] at hstep
        cases hstep
        exact absurd (hready.1.symm.trans hbuffer) (by decide)
      · rw [if_neg hclosed, if_neg hbuffer] at hstep
        cases hstep
        have hbefore := hagrees hready
        rw [hqueue] at hbefore
        exact (agrees_deliver Js.update update_enabled s.cache e rest s.bits).mpr hbefore

/-- The response to the first request fills the cache, and the buffer is put on
    top of it. -/
theorem hydrate_agrees_iff (hstep : step s .hydrate = some t) :
    (t.Ready → Agrees t.cache t.queue t.bits) ↔ s.Fresh s.cachedBits .hydrate := by
  cases hhydration : s.hydration with
  | requested => simp [step, hhydration] at hstep
  | loading => simp [step, hhydration] at hstep
  | finished => simp [step, hhydration] at hstep
  | taken r =>
      simp only [step, hhydration] at hstep
      by_cases hclosed : s.closed = true
      · rw [if_pos hclosed] at hstep
        cases hstep
        refine iff_of_true (fun hready => ?_) (fun hopen => ?_)
        · exact absurd hready (closed_unready _ hclosed)
        · exact absurd (hopen.symm.trans hclosed) (by decide)
      · rw [if_neg hclosed] at hstep
        cases hstep
        -- A buffer that is drained and a stream that has yet to deliver count
        -- as one list of announcements.
        have hdrain := agrees_drain Js.update update_enabled s.sseBuffer s.queue s.bits
          (Js.populateCache r)
        constructor
        · intro h hopen hconnected hnone r' hr'
          cases hr'.symm.trans hhydration
          exact hdrain.mp (h ⟨rfl, hopen, hconnected, hnone⟩)
        · intro hfresh hready
          exact hdrain.mpr (hfresh hready.2.1 hready.2.2.1 hready.2.2.2 r hhydration)

/-- A first request refused for its token closes the client. -/
theorem hydrationRefused_unready (hstep : step s .hydrationRefused = some t) : ¬ t.Ready := by
  cases hhydration : s.hydration with
  | loading => simp [step, hhydration] at hstep
  | finished => simp [step, hhydration] at hstep
  | requested | taken r =>
      simp only [step, hhydration] at hstep
      by_cases hclosed : s.closed = true
      · rw [if_pos hclosed] at hstep
        cases hstep
        exact closed_unready _ hclosed
      · rw [if_neg hclosed] at hstep
        cases hstep
        exact closed_unready _ rfl

/-- A first request that fails in another way leaves everything to the
    store. -/
theorem hydrationFails_agrees (hstep : step s .hydrationFails = some t)
    (hagrees : s.Ready → Agrees s.cache s.queue s.bits) (hready : t.Ready) :
    Agrees t.cache t.queue t.bits := by
  cases hhydration : s.hydration with
  | loading => simp [step, hhydration] at hstep
  | finished => simp [step, hhydration] at hstep
  | requested | taken r =>
      simp only [step, hhydration] at hstep
      by_cases hclosed : s.closed = true
      · rw [if_pos hclosed] at hstep
        cases hstep
        exact absurd hready (closed_unready _ hclosed)
      · rw [if_neg hclosed] at hstep
        cases hstep
        exact hagrees hready

/-- What the store holds fills the cache, and the buffer is left alone. -/
theorem load_agrees_iff (entries : List (EvalResult (Option String)))
    (hstep : step s (.load entries) = some t) :
    (t.Ready → Agrees t.cache t.queue t.bits) ↔ s.Fresh s.cachedBits (.load entries) := by
  simp only [step, Option.ite_none_right_eq_some] at hstep
  rcases hstep with ⟨_, hstep⟩
  by_cases hsome : entries.length > 0
  · rw [if_pos hsome] at hstep
    cases hstep
    constructor
    · exact fun h hopen hconnected hnone => h ⟨rfl, hopen, hconnected, hnone⟩
    · exact fun hfresh hready => hfresh hready.2.1 hready.2.2.1 hready.2.2.2
  · rw [if_neg hsome] at hstep
    cases hstep
    -- An empty store closes the client, and agrees with anything.
    refine iff_of_true (fun hready => absurd hready (closed_unready _ rfl))
      (fun _ _ _ k entry hentry => ?_)
    rw [List.length_eq_zero_iff.mp (Nat.eq_zero_of_not_pos hsome)] at hentry
    exact (nomatch hentry)

/-- While a re-hydration waits for its snapshot the client is not ready. -/
theorem snapshotAgain_unready (i : Nat) (r : BulkResponse)
    (hstep : step s (.snapshotAgain i r) = some t) : ¬ t.Ready := by
  simp only [step, Option.ite_none_right_eq_some, Option.some.injEq] at hstep
  rcases hstep with ⟨⟨hwaiting, _⟩, rfl⟩
  intro hready
  have hnone : s.rehydrations = [] := by
    have hlen := congrArg List.length hready.2.2.2
    rw [List.length_set] at hlen
    exact List.length_eq_zero_iff.mp hlen
  rw [hnone] at hwaiting
  exact (nomatch hwaiting)

/-- The last response that is outstanding has to be right. -/
theorem rehydrate_agrees_iff (i : Nat) (hstep : step s (.rehydrate i) = some t) :
    (t.Ready → Agrees t.cache t.queue t.bits) ↔ s.Fresh s.cachedBits (.rehydrate i) := by
  simp only [step] at hstep
  split at hstep
  next r hi =>
    by_cases hclosed : s.closed = true
    · rw [if_pos hclosed] at hstep
      cases hstep
      refine iff_of_true (fun hready => ?_) (fun _ hopen => ?_)
      · exact absurd hready (closed_unready _ hclosed)
      · exact absurd (hopen.symm.trans hclosed) (by decide)
    · rw [if_neg hclosed] at hstep
      cases hstep
      -- The client is ready again only when the last response is in.
      have hlast := eraseIdx_nil_iff s.rehydrations i (some r) hi
      constructor
      · intro h hhydrated hopen hconnected r' hr' hi0
        rw [hr', hi0] at hi
        cases hi
        exact h ⟨hhydrated, hopen, hconnected, hlast.mpr ⟨hr', hi0⟩⟩
      · rintro hfresh ⟨hhydrated, hopen, hconnected, hnone⟩
        rcases hlast.mp hnone with ⟨hr, hi0⟩
        exact hfresh hhydrated hopen hconnected r hr hi0
  next => cases hstep

/-- When the last request that is outstanding fails, the cache has to be right
    already. -/
theorem rehydrationFails_agrees_iff (i : Nat) (hstep : step s (.rehydrationFails i) = some t) :
    (t.Ready → Agrees t.cache t.queue t.bits) ↔ s.Fresh s.cachedBits (.rehydrationFails i) := by
  simp only [step, Option.ite_none_right_eq_some, Option.some.injEq] at hstep
  rcases hstep with ⟨hlt, rfl⟩
  have hlast := eraseIdx_nil_iff s.rehydrations i _ (List.getElem?_eq_getElem hlt)
  constructor
  · intro h hhydrated hopen hconnected hone hi0
    refine (agrees_iff_settles _ _ _).mp (h ⟨hhydrated, hopen, hconnected, hlast.mpr ⟨?_, hi0⟩⟩)
    rcases List.length_eq_one_iff.mp hone with ⟨b, hb⟩
    simp only [hb, hi0, List.getElem_cons_zero]
  · rintro hfresh ⟨hhydrated, hopen, hconnected, hnone⟩
    rcases hlast.mp hnone with ⟨hr, hi0⟩
    exact (agrees_iff_settles _ _ _).mpr
      (hfresh hhydrated hopen hconnected (by rw [hr]; rfl) hi0)

end Steps

/-- Given that a ready client agrees with the server before a step, it does
    after the step exactly when the step brought what it had to. -/
theorem step_agrees_iff (s t : Hydrated) (a : HydratedAct) (hstep : step s a = some t)
    (hagrees : s.Ready → Agrees s.cache s.queue s.bits) :
    (t.Ready → Agrees t.cache t.queue t.bits) ↔ s.Fresh s.cachedBits a := by
  cases a with
  | toggle flagKey enabled occurredAt =>
      cases hstep
      refine iff_of_true (fun hready => ?_) trivial
      have hconnected : s.stream = .connected := hready.2.2.1
      simp only [hconnected, or_true, if_true]
      exact agrees_toggle _ _ _ _ _ _ (hagrees hready)
  | connect => exact connect_agrees_iff s t hstep
  | deliver => exact iff_of_true (deliver_agrees s t hstep hagrees) trivial
  | hydrate => exact hydrate_agrees_iff s t hstep
  | hydrationRefused =>
      exact iff_of_true (fun hready => absurd hready (hydrationRefused_unready s t hstep)) trivial
  | hydrationFails => exact iff_of_true (hydrationFails_agrees s t hstep hagrees) trivial
  | load entries => exact load_agrees_iff s t entries hstep
  | snapshotAgain i r =>
      exact iff_of_true (fun hready => absurd hready (snapshotAgain_unready s t i r hstep)) trivial
  | rehydrate i => exact rehydrate_agrees_iff s t i hstep
  | rehydrationFails i => exact rehydrationFails_agrees_iff s t i hstep
  -- After the remaining steps the stream is not open, or nothing that matters
  -- has changed.
  | subscribe =>
      simp only [step, Option.ite_none_right_eq_some, Option.some.injEq] at hstep
      rcases hstep with ⟨_, rfl⟩
      exact iff_of_true (fun hready => (nomatch hready.2.2.1)) trivial
  | refused =>
      simp only [step, Option.ite_none_right_eq_some, Option.some.injEq] at hstep
      rcases hstep with ⟨hoff, rfl⟩
      exact iff_of_true (fun hready => absurd (hoff.symm.trans hready.2.2.1) (by decide)) trivial
  | terminal =>
      simp only [step, Option.ite_none_right_eq_some, Option.some.injEq] at hstep
      rcases hstep with ⟨_, rfl⟩
      exact iff_of_true (fun hready => (nomatch hready.2.2.1)) trivial
  | drop =>
      simp only [step, Option.ite_none_right_eq_some, Option.some.injEq] at hstep
      rcases hstep with ⟨_, rfl⟩
      exact iff_of_true (fun hready => (nomatch hready.2.2.1)) trivial
  | snapshot r =>
      simp only [step, Option.ite_none_right_eq_some, Option.some.injEq] at hstep
      rcases hstep with ⟨_, rfl⟩
      exact iff_of_true hagrees trivial
  | close =>
      cases hstep
      exact iff_of_true (fun hready => (nomatch hready.2.1)) trivial

/-- The announcements of a list, as the cache takes them over. -/
theorem applyAll_enabled (events : List WireEvent) (cache : Cache (Option String))
    (told : String → Option Bool) (htold : told = fun k => (cache k).map (·.enabled)) :
    events.foldl retold told = fun k => (Js.applyAll events cache k).map (·.enabled) := by
  induction events generalizing cache told with
  | nil => exact htold
  | cons e events ih =>
      refine ih (Js.applyCacheEvent e cache) (retold told e) (funext (fun k => ?_))
      rw [htold]
      exact modify_enabled Js.update update_enabled e cache k

theorem populateCache_enabled (r : BulkResponse) :
    reportedBits r = fun k => (Js.populateCache r k).map (·.enabled) := by
  funext k
  rw [Js.populateCache, Feed.fill_eq, Option.map_map]
  rfl

/-- What a step tells the client is what it holds afterwards. -/
theorem step_hears (s t : Hydrated) (a : HydratedAct) (hstep : step s a = some t) :
    s.hears a s.cachedBits = t.cachedBits := by
  cases a with
  | toggle | close =>
      cases hstep
      rfl
  | subscribe | refused | terminal | drop | snapshot | snapshotAgain | rehydrationFails =>
      simp only [step, Option.ite_none_right_eq_some, Option.some.injEq] at hstep
      rcases hstep with ⟨_, rfl⟩
      rfl
  | connect =>
      simp only [step, Option.ite_none_right_eq_some, Option.some.injEq, onConnected] at hstep
      rcases hstep with ⟨_, rfl⟩
      split_ifs <;> rfl
  | deliver =>
      simp only [step, Option.ite_none_right_eq_some] at hstep
      rcases hstep with ⟨_, hstep⟩
      cases hqueue : s.queue with
      | nil => simp [hqueue] at hstep
      | cons e rest =>
          simp only [hqueue, Option.some.injEq, onFlagChange] at hstep
          simp only [hears, hqueue, List.head?_cons, Option.elim_some]
          -- A closed client hears nothing, and one that is still loading keeps the
          -- event for later: neither touches the cache.
          by_cases hclosed : s.closed = true
          · rw [if_pos hclosed] at hstep
            cases hstep
            exact if_pos (.inl hclosed)
          by_cases hbuffer : s.hydrationComplete = false
          · rw [if_neg hclosed, if_pos hbuffer] at hstep
            cases hstep
            exact if_pos (.inr hbuffer)
          · rw [if_neg hclosed, if_neg hbuffer] at hstep
            cases hstep
            rw [if_neg (not_or.mpr ⟨hclosed, hbuffer⟩)]
            exact funext (modify_enabled Js.update update_enabled e s.cache)
  | hydrate =>
      cases hhydration : s.hydration with
      | requested => simp [step, hhydration] at hstep
      | loading => simp [step, hhydration] at hstep
      | finished => simp [step, hhydration] at hstep
      | taken r =>
          simp only [step, hhydration] at hstep
          simp only [hears, hhydration]
          by_cases hclosed : s.closed = true
          · rw [if_pos hclosed] at hstep ⊢
            cases hstep
            rfl
          · rw [if_neg hclosed] at hstep ⊢
            cases hstep
            -- The answer fills the cache before the kept events are applied.
            exact applyAll_enabled s.sseBuffer _ _ (populateCache_enabled r)
  | hydrationRefused =>
      cases hhydration : s.hydration with
      | loading => simp [step, hhydration] at hstep
      | finished => simp [step, hhydration] at hstep
      | requested | taken r =>
          simp only [step, hhydration] at hstep
          split_ifs at hstep <;> cases hstep <;> rfl
  | hydrationFails =>
      cases hhydration : s.hydration with
      | loading => simp [step, hhydration] at hstep
      | finished => simp [step, hhydration] at hstep
      | requested | taken r =>
          simp only [step, hhydration] at hstep
          split_ifs at hstep <;> cases hstep <;> rfl
  | load entries =>
      simp only [step, Option.ite_none_right_eq_some] at hstep
      rcases hstep with ⟨_, hstep⟩
      simp only [hears]
      by_cases hsome : entries.length > 0
      · rw [if_pos hsome] at hstep ⊢
        cases hstep
        funext k
        simp only [cachedBits, Js.restoreCache, Feed.fill_eq, Option.map_map]
        rfl
      · rw [if_neg hsome] at hstep ⊢
        cases hstep
        rfl
  | rehydrate i =>
      simp only [step] at hstep
      split at hstep
      next r hi =>
        simp only [hears, hi]
        by_cases hclosed : s.closed = true
        · rw [if_pos hclosed] at hstep ⊢
          cases hstep
          rfl
        · rw [if_neg hclosed] at hstep ⊢
          cases hstep
          exact populateCache_enabled r
      next => cases hstep

/-- A client holds what the run has told it. -/
theorem told_eq (bits : String → Bool) (acts : List HydratedAct) (t : Hydrated)
    (hrun : Runs { bits := bits } acts t) : told bits acts = t.cachedBits := by
  refine (Steps.gathered_invariant step hears _ (fun t told => told = t.cachedBits) _
    (fun _ _ _ hstep => hstep) rfl (fun t a u told hstep htold => ?_) acts t hrun).2
  rw [htold]
  exact step_hears t u a hstep

/-- The stream of a ready client can deliver what it has, and the client then
    holds the bits of the server exactly when it agreed with it. -/
theorem drain (queue : List WireEvent) (s : Hydrated) (hready : s.Ready)
    (hqueue : s.queue = queue) :
    ∃ u, Runs s (List.replicate queue.length .deliver) u ∧ u.Quiet ∧
      (u.Converged ↔ Agrees s.cache queue s.bits) := by
  induction queue generalizing s with
  | nil => exact ⟨s, Steps.refl s, ⟨hready, hqueue⟩, Iff.rfl⟩
  | cons e rest ih =>
      have hstep : step s .deliver =
          some { s with queue := rest, cache := Js.applyCacheEvent e s.cache } := by
        have hopen : ¬ s.closed = true := by rw [hready.2.1]; decide
        have hhydrated : ¬ s.hydrationComplete = false := by rw [hready.1]; decide
        simp only [step, hready.2.2.1, if_true, hqueue, onFlagChange]
        rw [if_neg hopen, if_neg hhydrated]
      rcases ih { s with queue := rest, cache := Js.applyCacheEvent e s.cache } hready rfl
        with ⟨u, hrun, hquiet, hiff⟩
      refine ⟨u, Steps.cons _ _ _ _ _ hstep hrun, hquiet, hiff.trans ?_⟩
      exact agrees_deliver Js.update update_enabled s.cache e rest s.bits

/-- Deliveries keep a ready client in agreement with the server. -/
theorem deliveries_agree (t u : Hydrated) (n : Nat) (hrun : Runs t (List.replicate n .deliver) u)
    (hagrees : t.Ready → Agrees t.cache t.queue t.bits) :
    u.Ready → Agrees u.cache u.queue u.bits :=
  Steps.invariant_replicate (fun v => v.Ready → Agrees v.cache v.queue v.bits)
    HydratedAct.deliver (fun v x hstep hv => deliver_agrees v x hstep hv) n t u hrun hagrees

/-- A client converges with every delivery of its stream exactly when it agrees
    with the server as soon as it is ready. -/
theorem agrees_iff (t : Hydrated) :
    (t.Ready → Agrees t.cache t.queue t.bits) ↔
      ∀ n u, Runs t (List.replicate n .deliver) u → u.Quiet → u.Converged := by
  constructor
  · rintro hagrees n u hrun ⟨hready, hqueue⟩
    have hnow := deliveries_agree t u n hrun hagrees hready
    rw [hqueue] at hnow
    exact hnow
  · intro hall hready
    rcases drain t.queue t hready rfl with ⟨u, hrun, hquiet, hiff⟩
    exact hiff.mp (hall _ u hrun hquiet)

end Hydrated

/-- The client that asks for the flags again converges along a run, at every
    moment at which it is hydrated, the stream is open and everything has
    arrived (what the stream still has to deliver then included), exactly when
    every step of the run brought what it had to, given what the run had told
    the client before it. -/
theorem hydrated_converges_iff (bits : String → Bool) (acts : List HydratedAct) :
    (∀ past rest t n u, acts = past ++ rest → Hydrated.Runs { bits := bits } past t →
        Hydrated.Runs t (List.replicate n .deliver) u → u.Quiet → u.Converged) ↔
      ∀ past a rest t u, acts = past ++ a :: rest → Hydrated.Runs { bits := bits } past t →
        Hydrated.step t a = some u → t.Fresh (Hydrated.told bits past) a := by
  have hstep : ∀ past t a u, Hydrated.Runs { bits := bits } past t → Hydrated.step t a = some u →
      (t.Ready → Agrees t.cache t.queue t.bits) →
        ((u.Ready → Agrees u.cache u.queue u.bits) ↔ t.Fresh (Hydrated.told bits past) a) := by
    intro past t a u hpast hstep
    rw [Hydrated.told_eq bits past t hpast]
    exact Hydrated.step_agrees_iff t u a hstep
  rw [← Steps.kept_iff (fun t : Hydrated => t.Ready → Agrees t.cache t.queue t.bits)
    (fun past t a => t.Fresh (Hydrated.told bits past) a) _
    (fun hready => absurd hready.1 (by simp)) hstep acts]
  constructor
  · intro hall past rest t hacts hpast
    exact (Hydrated.agrees_iff t).mpr (fun n u => hall past rest t n u hacts hpast)
  · intro hagrees past rest t n u hacts hpast
    exact (Hydrated.agrees_iff t).mp (hagrees past rest t hacts hpast) n u

/-- The flag is turned on after the snapshot of the first request was taken and
    before the server subscribed the stream. The first connection is not
    followed by another request, and the client never hears of it. -/
theorem hydrated_misses_toggle : ¬ ∀ bits acts s,
    Hydrated.Runs { bits := bits } acts s → s.Quiet → s.Converged := by
  intro hall
  have hconverged := hall (fun _ => false) [.snapshot offSnapshot,
    .toggle "dark-mode" true "2026-03-21T12:00:00Z", .subscribe, .hydrate, .connect] _
    (Steps.of_foldlM _ _ _ _ rfl) ⟨⟨rfl, rfl, rfl, rfl⟩, rfl⟩
  exact absurd (hconverged "dark-mode" _ rfl) (by decide)

end Cuttlegate.Sdk
