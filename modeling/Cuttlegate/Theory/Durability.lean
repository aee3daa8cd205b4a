import Cuttlegate.Adapters.Http
import Cuttlegate.App.FlagService

/-!
# What a Status Says about the Writes

Whether a client that was sent a success can rely on the writes behind it, and
one that was sent an error on their absence.

A handler behind the tenant middleware is any program of repository calls that
ends with an answer; one that writes no status answers with 200. Beside the
state of the server runs a ledger of the writes that succeeded: each was made
in the transaction or on the pool, and is pending, committed or rolled back.
The ledger is not an invention, since the committed database is always what
its committed entries make of the database at the start.

Two things go wrong. The status is sent before the transaction is committed,
and a commit that fails is only logged. And what was written on the pool is
there to stay, whatever the status.

## Main definitions

* `Place`, `Fate`, `Entry`: A write, where it was made and what became of it.
* `Booked`, `bookedExec`: The server with a ledger.
* `applied`: What entries make of a database.
* `Acknowledged`: The status and the ledger agree.

## Theorems

* `Booked.handler_sound`: The ledger of a handler.
* `tenantRLS_closed`: The ledger of a request.
* `acknowledged_iff`: When the status and the ledger agree.
* `acknowledged_force_delete`: A request where they do not.
-/

namespace Cuttlegate

/-- Where a write was made. -/
inductive Place where
  | transaction
  | pool
  deriving DecidableEq, Repr

/-- What became of a write. -/
inductive Fate where
  | pending
  | committed
  | rolledBack
  deriving DecidableEq, Repr

/-- A write that succeeded, with the world it was made in. -/
structure Entry where
  world : World
  call : Call
  place : Place
  fate : Fate

/-- The server with a ledger of the writes. -/
structure Booked where
  state : HttpState
  ledger : List Entry

/-- Whether an operation writes to the database; events are published
    elsewhere. -/
def Op.stores (op : Op) : Bool := op.writes.any (fun t => t ≠ .published ∧ t ≠ .evaluations)

/-- Where the server performs a call. -/
def HttpState.place (s : HttpState) (c : Call) : Place :=
  if s.tx.isSome && c.inTx then .transaction else .pool

/-- What is pending gets its fate. -/
def Entry.settle (fate : Fate) (e : Entry) : Entry :=
  if e.fate = .pending then { e with fate := fate } else e

/-- The ledger after an operation. -/
def Booked.book (h : HttpHost) (op : HttpOp) (b : Booked) : List Entry :=
  match op with
  | .db c =>
      if c.op.stores && (httpExec h (.db c) b.state).1.isOk then
        b.ledger ++ [⟨b.state.world, c, b.state.place c,
          if b.state.place c = .pool then .committed else .pending⟩]
      else b.ledger
  | .commit => b.ledger.map (Entry.settle (if h.commits then .committed else .rolledBack))
  | .rollback => b.ledger.map (Entry.settle .rolledBack)
  | _ => b.ledger

/-- The effect of an operation, and its entry. -/
def bookedExec (h : HttpHost) (op : HttpOp) (b : Booked) : Except Err op.Ret × Booked :=
  ((httpExec h op b.state).1, ⟨(httpExec h op b.state).2, b.book h op⟩)

/-- A write made once more, on another database. -/
def Entry.apply (h : Host) (st : Store) (e : Entry) : Store :=
  (exec h e.call { e.world with store := st }).2.store

/-- What entries make of a database. -/
def applied (h : Host) (entries : List Entry) (st : Store) : Store :=
  entries.foldl (Entry.apply h) st

/-- A success was sent only if all writes are committed, and an error only if
    none is. -/
def Acknowledged (r : Except Err Response) (ledger : List Entry) : Prop :=
  ∀ resp, r = .ok resp →
    (resp.status < 400 → ∀ e ∈ ledger, e.fate = .committed) ∧
    (400 ≤ resp.status → ∀ e ∈ ledger, e.fate ≠ .committed)

/-- A handler behind the tenant middleware: any program of repository calls,
    given the tenant of its request. -/
def serveTenant (slug : String) (handler : Option String → Prog Response) : HttpProg Response :=
  tenantRLS slug (fun tenant => onDB (handler tenant))

/-- The server as the request finds it. -/
def HttpState.start (s : HttpState) : Booked := ⟨{ s with tx := none }, []⟩

/-- The answer to a request, and the server it leaves. -/
def served (h : HttpHost) (slug : String) (handler : Option String → Prog Response)
    (s : HttpState) : Except Err Response × Booked :=
  Proc.run (bookedExec h) (serveTenant slug handler) s.start

@[simp] theorem applied_append (h : Host) (es es' : List Entry) (st : Store) :
    applied h (es ++ es') st = applied h es' (applied h es st) :=
  List.foldl_append

@[simp] theorem applied_single (h : Host) (e : Entry) (st : Store) :
    applied h [e] st = e.apply h st := rfl

section Ledger

variable (h : HttpHost)

/-- What does not write to the database leaves it as it was. -/
theorem exec_stores (c : Call) (hc : c.op.stores = false) (w : World) :
    (exec h.host c w).2.store = w.store := by
  rcases exec_cases h.host c w with ⟨e, he⟩ | ⟨a, w', hp, he⟩
  · rw [he]
    rfl
  · rw [he]
    rcases c with ⟨tenant, op⟩
    change op.perform h.host ⟨tenant, h.host.rls⟩ w = .ok (a, w') at hp
    change w'.store = w.store
    by_cases hread : op.writes = []
    · rw [op.perform_read h.host _ w w' a hread hp]
    · -- What is left publishes an event, or writes to the database after all.
      cases op with
      | publish e => rw [← (Prod.mk.inj (Except.ok.inj hp)).2]
      | publishEvaluation flagID e => rw [← (Prod.mk.inj (Except.ok.inj hp)).2]
      | _ => first
        | exact absurd rfl hread
        | exact absurd (show true = false from hc) (by decide)

/-- A call that failed leaves the database as it was. -/
theorem exec_failed (c : Call) (w : World) (hfail : (exec h.host c w).1.isOk = false) :
    (exec h.host c w).2.store = w.store := by
  rcases exec_cases h.host c w with ⟨e, he⟩ | ⟨a, w', hp, he⟩
  · rw [he]
    rfl
  · rw [he] at hfail
    exact absurd hfail (by simp [Except.isOk, Except.toBool])

/-- The ledger while a handler runs: the committed database is what the
    entries of the pool make of the one at the start, and the database as the
    transaction sees it is what all entries make of it. -/
structure Booked.Sound (st : Store) (b : Booked) : Prop where
  store : b.state.world.store = applied h.host (b.ledger.filter (fun e => e.place = .pool)) st
  view : ∀ v, b.state.tx = some v → v.getD b.state.world.store = applied h.host b.ledger st
  opened : ∀ e ∈ b.ledger, e.place = .transaction → ∃ v, b.state.tx = some (some v)
  fate : ∀ e ∈ b.ledger, e.fate = if e.place = .pool then .committed else .pending

/-- While nothing was written in the transaction, all entries are of the
    pool. -/
theorem Booked.Sound.all_pool (st : Store) (b : Booked) (hb : b.Sound h st)
    (hnone : ∀ v, b.state.tx ≠ some (some v)) :
    b.ledger.filter (fun e => e.place = .pool) = b.ledger := by
  rw [List.filter_eq_self]
  intro e he
  cases hplace : e.place with
  | pool => rfl
  | transaction =>
      rcases hb.opened e he hplace with ⟨v, hv⟩
      exact absurd hv (hnone v)

/-- Without an entry the database a call was performed on is as it was. -/
theorem exec_unbooked (c : Call) (w : World)
    (hno : (c.op.stores && (exec h.host c w).1.isOk) = false) :
    (exec h.host c w).2.store = w.store := by
  rcases Bool.and_eq_false_iff.mp hno with hno | hno
  · exact exec_stores h c hno w
  · exact exec_failed h c w hno

/-- A call in the transaction keeps the ledger sound. -/
theorem Booked.step_tx (st : Store) (b : Booked) (c : Call) (hb : b.Sound h st)
    (v : Option Store) (htx : b.state.tx = some v) (hin : c.inTx = true) :
    Booked.Sound h st (bookedExec h (.db c) b).2 := by
  rcases b with ⟨s, ledger⟩
  rcases hb with ⟨hstore, hview, hopened, hfate⟩
  simp only at hstore hview hopened hfate htx
  have hv : v.getD s.world.store = applied h.host ledger st := hview v htx
  have hexec : httpExec h (.db c) s =
      ((exec h.host c { s.world with store := v.getD s.world.store }).1, { s with
        world := { (exec h.host c { s.world with store := v.getD s.world.store }).2 with
          store := s.world.store }
        tx := some (if c.op.writes = [] then v else
          some (exec h.host c { s.world with store := v.getD s.world.store }).2.store) }) := by
    simp only [httpExec, htx, hin, if_true]
  have hput : s.place c = .transaction := by simp [HttpState.place, htx, hin]
  simp only [bookedExec, Booked.book, hexec, hput]
  rw [if_neg (show ¬ (Place.transaction = .pool) by decide)]
  -- A write that succeeds is booked and moves the transaction's view; anything else moves
  -- neither.
  by_cases hbook : (c.op.stores &&
      (exec h.host c { s.world with store := v.getD s.world.store }).1.isOk) = true
  · rw [if_pos hbook]
    have hwrites : c.op.writes ≠ [] := by
      intro hread
      simp [Op.stores, hread] at hbook
    rw [if_neg hwrites]
    refine ⟨?_, fun v' hv' => ?_, fun e _ _ => ⟨_, rfl⟩, fun e he => ?_⟩
    · rw [List.filter_append, List.filter_cons_of_neg (by simp), List.filter_nil, List.append_nil]
      exact hstore
    · rw [← Option.some.inj hv', applied_append, applied_single, ← hv]
      rfl
    · rcases List.mem_append.mp he with he | he
      · exact hfate e he
      · rw [List.mem_singleton.mp he]
        rfl
  · rw [if_neg hbook]
    have hkeep := exec_unbooked h c { s.world with store := v.getD s.world.store }
      (Bool.eq_false_of_not_eq_true hbook)
    refine ⟨hstore, fun v' hv' => ?_, fun e he hpl => ?_, hfate⟩
    · rw [← Option.some.inj hv']
      by_cases hread : c.op.writes = []
      · rw [if_pos hread]
        exact hv
      · rw [if_neg hread, Option.getD_some, hkeep]
        exact hv
    · by_cases hread : c.op.writes = []
      · rw [if_pos hread, ← htx]
        exact hopened e he hpl
      · rw [if_neg hread]
        exact ⟨_, rfl⟩

/-- What the server does with a call on the pool: a transaction that is open
    sees what has been written there. -/
theorem httpExec_pool (c : Call) (s : HttpState) (hplace : (s.tx.isSome && c.inTx) = false) :
    (httpExec h (.db c) s).1 = (exec h.host c s.world).1 ∧
      (httpExec h (.db c) s).2.world = (exec h.host c s.world).2 ∧
      (httpExec h (.db c) s).2.tx = s.tx.map (fun view =>
        if (exec h.host c s.world).1.isOk then
          view.map (fun v => (exec h.host c { s.world with store := v }).2.store)
        else view) := by
  cases htx : s.tx with
  | none => simp [httpExec, htx]
  | some v =>
      have hin : c.inTx = false := by simpa [htx] using hplace
      simp [httpExec, htx, hin]

/-- A write on the pool is committed at once, and a transaction that is open
    sees it as well. -/
theorem Booked.pool_booked (st : Store) (s : HttpState) (ledger : List Entry) (c : Call)
    (hb : Booked.Sound h st ⟨s, ledger⟩) (hplace : (s.tx.isSome && c.inTx) = false)
    (hbook : (c.op.stores && (exec h.host c s.world).1.isOk) = true) :
    Booked.Sound h st
      ⟨(httpExec h (.db c) s).2, ledger ++ [⟨s.world, c, .pool, .committed⟩]⟩ := by
  have hall := hb.all_pool h st
  rcases hb with ⟨hstore, hview, hopened, hfate⟩
  simp only at hstore hview hopened hfate hall
  rcases httpExec_pool h c s hplace with ⟨_, hw, htx'⟩
  have hok : (exec h.host c s.world).1.isOk = true := (Bool.and_eq_true_iff.mp hbook).2
  generalize hentry : (⟨s.world, c, .pool, .committed⟩ : Entry) = entry
  have hpool : entry.place = .pool := by rw [← hentry]
  have happly : ∀ st', entry.apply h.host st' =
      (exec h.host c { s.world with store := st' }).2.store := by
    intro st'
    rw [← hentry]
    rfl
  have hnew : applied h.host ((ledger ++ [entry]).filter (fun e => e.place = .pool)) st =
      (exec h.host c s.world).2.store := by
    rw [List.filter_append, List.filter_cons_of_pos (by simp [hpool]), List.filter_nil,
      applied_append, ← hstore, applied_single, happly]
  refine ⟨?_, fun v' hv' => ?_, fun e he hpl => ?_, fun e he => ?_⟩
  · rw [hw, hnew]
  · simp only [htx', hok, if_true, Option.map_eq_some_iff] at hv'
    rcases hv' with ⟨v, htx, rfl⟩
    cases v with
    | some v =>
        rw [Option.map_some, Option.getD_some, applied_append, applied_single, happly,
          ← hview (some v) htx, Option.getD_some]
    | none =>
        -- Nothing was written in the transaction, so both databases are one.
        have hone := hall (fun v hv => by simp [htx] at hv)
        rw [Option.map_none, Option.getD_none, hw, ← hnew, List.filter_append, hone,
          List.filter_cons_of_pos (by simp [hpool]), List.filter_nil]
  · rcases List.mem_append.mp he with he | he
    · rcases hopened e he hpl with ⟨v, hv⟩
      simp only [htx', hv, hok, if_true, Option.map_some]
      exact ⟨_, rfl⟩
    · rw [List.mem_singleton.mp he, hpool] at hpl
      exact (nomatch hpl)
  · rcases List.mem_append.mp he with he | he
    · exact hfate e he
    · rw [List.mem_singleton.mp he, ← hentry]
      rfl

/-- A call on the pool that writes nothing changes no database. -/
theorem Booked.pool_unbooked (st : Store) (s : HttpState) (ledger : List Entry) (c : Call)
    (hb : Booked.Sound h st ⟨s, ledger⟩) (hplace : (s.tx.isSome && c.inTx) = false)
    (hno : (c.op.stores && (exec h.host c s.world).1.isOk) = false) :
    Booked.Sound h st ⟨(httpExec h (.db c) s).2, ledger⟩ := by
  rcases hb with ⟨hstore, hview, hopened, hfate⟩
  simp only at hstore hview hopened hfate
  rcases httpExec_pool h c s hplace with ⟨_, hw, htx'⟩
  -- The call failed or only read, so store and view are as they were.
  have hkeep := exec_unbooked h c s.world hno
  refine ⟨?_, fun v' hv' => ?_, fun e he hpl => ?_, hfate⟩
  · rw [hw, hkeep]
    exact hstore
  · simp only [htx', Option.map_eq_some_iff] at hv'
    rcases hv' with ⟨v, htx, rfl⟩
    rw [hw, hkeep, ← hview v htx]
    by_cases hok : (exec h.host c s.world).1.isOk = true
    · rw [if_pos hok]
      have hreads : c.op.stores = false := by simpa [hok] using hno
      cases v with
      | none => rfl
      | some v => exact exec_stores h c hreads { s.world with store := v }
    · rw [if_neg hok]
  · rcases hopened e he hpl with ⟨v, hv⟩
    simp only [htx', hv, Option.map_some]
    by_cases hok : (exec h.host c s.world).1.isOk = true
    · rw [if_pos hok]
      exact ⟨_, rfl⟩
    · rw [if_neg hok]
      exact ⟨v, rfl⟩

/-- A call on the pool keeps the ledger sound. -/
theorem Booked.step_pool (st : Store) (b : Booked) (c : Call) (hb : b.Sound h st)
    (hplace : (b.state.tx.isSome && c.inTx) = false) :
    Booked.Sound h st (bookedExec h (.db c) b).2 := by
  rcases b with ⟨s, ledger⟩
  have hput : s.place c = .pool := by
    simp only [HttpState.place]
    rw [if_neg (by rw [hplace]; exact Bool.false_ne_true)]
  simp only [bookedExec, Booked.book, hput, (httpExec_pool h c s hplace).1, if_true]
  by_cases hbook : (c.op.stores && (exec h.host c s.world).1.isOk) = true
  · rw [if_pos hbook]
    exact Booked.pool_booked h st s ledger c hb hplace hbook
  · rw [if_neg hbook]
    exact Booked.pool_unbooked h st s ledger c hb hplace (Bool.eq_false_of_not_eq_true hbook)

/-- The ledger of a handler is sound, and its transaction stays open. -/
theorem Booked.handler_sound {α : Type} (st : Store) (p : Prog α) (b : Booked)
    (hb : b.Sound h st) :
    Booked.Sound h st (Proc.run (bookedExec h) (onDB p) b).2 ∧
      (Proc.run (bookedExec h) (onDB p) b).2.state.tx.isSome = b.state.tx.isSome := by
  -- On the handler's program, one call at a time.
  induction p generalizing b with
  | ret a => exact ⟨hb, rfl⟩
  | fail e => exact ⟨hb, rfl⟩
  | act c k ih =>
      -- No call of a handler opens or closes the transaction.
      have hopen : (httpExec h (.db c) b.state).2.tx.isSome = b.state.tx.isSome := by
        by_cases hplace : (b.state.tx.isSome && c.inTx) = true
        · rw [Bool.and_eq_true, Option.isSome_iff_exists] at hplace
          rcases hplace with ⟨⟨v, htx⟩, hin⟩
          simp [httpExec, htx, hin]
        · rw [(httpExec_pool h c b.state (Bool.eq_false_of_not_eq_true hplace)).2.2,
            Option.isSome_map]
      have hstep : Booked.Sound h st (bookedExec h (.db c) b).2 := by
        by_cases hplace : (b.state.tx.isSome && c.inTx) = true
        · rw [Bool.and_eq_true, Option.isSome_iff_exists] at hplace
          rcases hplace with ⟨⟨v, htx⟩, hin⟩
          exact Booked.step_tx h st b c hb v htx hin
        · exact Booked.step_pool h st b c hb (Bool.eq_false_of_not_eq_true hplace)
      rcases ih (bookedExec h (.db c) b).1 (bookedExec h (.db c) b).2 hstep with ⟨hsound, hsome⟩
      exact ⟨hsound, hsome.trans hopen⟩

/-- The entries that are committed once the transaction is closed: those of
    the pool, and those of the transaction if that is their fate. -/
theorem applied_settle (fate : Fate) (ledger : List Entry) (st : Store)
    (hfate : ∀ e ∈ ledger, e.fate = if e.place = .pool then .committed else .pending) :
    applied h.host ((ledger.map (Entry.settle fate)).filter (fun e => e.fate = .committed)) st =
      applied h.host (ledger.filter (fun e => e.place = .pool ∨ fate = .committed)) st := by
  -- On the ledger: a pool entry is committed already, an entry of the transaction takes the
  -- fate given.
  induction ledger generalizing st with
  | nil => rfl
  | cons e rest ih =>
      have hrest := fun e' he' => hfate e' (List.mem_cons_of_mem e he')
      have hself := hfate e List.mem_cons_self
      rw [List.map_cons]
      cases hplace : e.place with
      | pool =>
          have hkept : Entry.settle fate e = e := by simp [Entry.settle, hself, hplace]
          rw [hkept, List.filter_cons_of_pos (by simp [hself, hplace]),
            List.filter_cons_of_pos (by simp [hplace])]
          exact ih (e.apply h.host st) hrest
      | transaction =>
          have hset : Entry.settle fate e = { e with fate := fate } := by
            simp [Entry.settle, hself, hplace]
          rw [hset]
          by_cases hcommit : fate = .committed
          · rw [List.filter_cons_of_pos (by simp [hcommit]),
              List.filter_cons_of_pos (by simp [hcommit])]
            exact ih (e.apply h.host st) hrest
          · rw [List.filter_cons_of_neg (by simp [hcommit]),
              List.filter_cons_of_neg (by simp [hplace, hcommit])]
            exact ih st hrest

/-- The ledger once the request has been answered: the committed database is
    what the committed entries make of the one at the start, the entries of
    the pool are committed, and those of the transaction are exactly if the
    status is a success and the transaction could be committed. -/
structure Closed (st : Store) (r : Except Err Response) (b : Booked) : Prop where
  store : b.state.world.store = applied h.host (b.ledger.filter (fun e => e.fate = .committed)) st
  pool : ∀ e ∈ b.ledger, e.place = .pool → e.fate = .committed
  transaction : ∀ resp, r = .ok resp → ∀ e ∈ b.ledger, e.place = .transaction →
    (e.fate = .committed ↔ resp.status < 400 ∧ h.commits = true)

/-- Closing the transaction with one fate for what is pending. -/
theorem Booked.Sound.closed (st : Store) (b b' : Booked) (hb : b.Sound h st) (fate : Fate)
    (resp : Response) (hledger : b'.ledger = b.ledger.map (Entry.settle fate))
    (hstore : b'.state.world.store =
      applied h.host (b.ledger.filter (fun e => e.place = .pool ∨ fate = .committed)) st)
    (hfate : fate = .committed ↔ resp.status < 400 ∧ h.commits = true) :
    Closed h st (.ok resp) b' := by
  refine ⟨?_, fun e he hpl => ?_, fun resp' hresp e he hpl => ?_⟩
  · rw [hledger, applied_settle h fate b.ledger st hb.fate]
    exact hstore
  · rw [hledger] at he
    rcases List.mem_map.mp he with ⟨e', he', rfl⟩
    have hself := hb.fate e' he'
    cases hplace : e'.place with
    | pool => simp [Entry.settle, hself, hplace]
    | transaction =>
        rw [hplace] at hself
        simp [Entry.settle, hself, hplace] at hpl
  -- Only entries of the transaction are settled, and they are committed exactly on a good
  -- status and a commit that works.
  · cases hresp
    rw [hledger] at he
    rcases List.mem_map.mp he with ⟨e', he', rfl⟩
    have hself := hb.fate e' he'
    cases hplace : e'.place with
    | pool =>
        rw [hplace] at hself
        simp [Entry.settle, hself, hplace] at hpl
    | transaction =>
        rw [hplace] at hself
        simp only [Entry.settle, hself]
        exact hfate

/-- Nothing was written yet. -/
structure Booked.Untouched (st : Store) (b : Booked) : Prop where
  ledger : b.ledger = []
  store : b.state.world.store = st
  tx : ∀ v, b.state.tx ≠ some (some v)

theorem Booked.Untouched.sound (st : Store) (b : Booked) (hb : b.Untouched st) : b.Sound h st := by
  refine ⟨?_, fun v hv => ?_, ?_, ?_⟩
  · rw [hb.ledger]
    exact hb.store
  · rw [hb.ledger]
    cases v with
    | none => exact hb.store
    | some v => exact absurd hv (hb.tx v)
  · rw [hb.ledger]
    exact fun e he => absurd he List.not_mem_nil
  · rw [hb.ledger]
    exact fun e he => absurd he List.not_mem_nil

theorem Booked.Untouched.closed (st : Store) (b : Booked) (hb : b.Untouched st)
    (r : Except Err Response) : Closed h st r b := by
  refine ⟨?_, ?_, fun resp _ => ?_⟩
  · rw [hb.ledger]
    exact hb.store
  · rw [hb.ledger]
    exact fun e he => absurd he List.not_mem_nil
  · rw [hb.ledger]
    exact fun e he => absurd he List.not_mem_nil

/-- Looking the project up. -/
theorem Booked.Untouched.lookup (st : Store) (b : Booked) (hb : b.Untouched st) (slug : String)
    (htx : b.state.tx = none) :
    Booked.Untouched st (bookedExec h (.db ⟨none, .projectBySlug slug⟩) b).2 ∧
      (bookedExec h (.db ⟨none, .projectBySlug slug⟩) b).2.state.tx = none := by
  have hread := httpExec_read h ⟨none, .projectBySlug slug⟩ rfl b.state (.inl htx)
  have hbook : b.book h (.db ⟨none, .projectBySlug slug⟩) = b.ledger := by
    have hstores : (Op.projectBySlug slug).stores = false := rfl
    simp [Booked.book, hstores]
  unfold bookedExec
  rw [hread, hbook]
  exact ⟨⟨hb.ledger, hb.store, hb.tx⟩, htx⟩

/-- Opening the transaction. -/
theorem Booked.Untouched.begin (st : Store) (b : Booked) (hb : b.Untouched st)
    (r : Except Err Unit) (b' : Booked) (hrun : bookedExec h .beginTx b = (r, b')) :
    b'.Untouched st ∧ (r = .ok () → b'.state.tx = some none) := by
  unfold bookedExec Booked.book httpExec HttpState.manage at hrun
  by_cases hfails : h.host.fails b.state.world.calls = true
  · simp only [hfails, if_true, Prod.mk.injEq] at hrun
    rcases hrun with ⟨rfl, rfl⟩
    exact ⟨⟨hb.ledger, hb.store, hb.tx⟩, fun hr => (nomatch hr)⟩
  · simp only [hfails, Bool.false_eq_true, if_false, Prod.mk.injEq] at hrun
    rcases hrun with ⟨rfl, rfl⟩
    exact ⟨⟨hb.ledger, hb.store, fun v hv => (nomatch hv)⟩, fun _ => rfl⟩

/-- Setting it up. -/
theorem Booked.Untouched.setTenantContext (st : Store) (b : Booked) (hb : b.Untouched st)
    (id : String) (r : Except Err Unit) (b' : Booked)
    (hrun : bookedExec h (.setTenantContext id) b = (r, b')) :
    b'.Untouched st ∧ b'.state.tx = b.state.tx := by
  unfold bookedExec Booked.book httpExec HttpState.manage at hrun
  by_cases hfails : h.host.fails b.state.world.calls = true
  · simp only [hfails, if_true, Prod.mk.injEq] at hrun
    rcases hrun with ⟨rfl, rfl⟩
    exact ⟨⟨hb.ledger, hb.store, hb.tx⟩, rfl⟩
  · simp only [hfails, Bool.false_eq_true, if_false, Prod.mk.injEq] at hrun
    rcases hrun with ⟨rfl, rfl⟩
    exact ⟨⟨hb.ledger, hb.store, hb.tx⟩, rfl⟩

/-- Rolling back. -/
theorem Booked.Sound.rollback (st : Store) (b : Booked) (hb : b.Sound h st) (resp : Response)
    (hbad : 400 ≤ resp.status) : Closed h st (.ok resp) (bookedExec h .rollback b).2 := by
  refine hb.closed h st b _ .rolledBack resp rfl ?_ ?_
  · simpa [bookedExec, httpExec] using hb.store
  · exact ⟨fun hf => (by cases hf), fun hgood => by omega⟩

/-- Committing, which may fail. -/
theorem Booked.Sound.commit (st : Store) (b : Booked) (hb : b.Sound h st) (resp : Response)
    (hgood : resp.status < 400) (htx : b.state.tx.isSome = true) :
    Closed h st (.ok resp) (bookedExec h .commit b).2 := by
  rcases Option.isSome_iff_exists.mp htx with ⟨v, hv⟩
  by_cases hcommits : h.commits = true
  · refine hb.closed h st b _ .committed resp ?_ ?_ ?_
    · simp [bookedExec, Booked.book, hcommits]
    · have hview := hb.view v hv
      simp only [bookedExec, httpExec, hcommits, if_true, hv, Option.getD_some]
      simpa using hview
    · exact ⟨fun _ => ⟨hgood, hcommits⟩, fun _ => rfl⟩
  · refine hb.closed h st b _ .rolledBack resp ?_ ?_ ?_
    · simp [bookedExec, Booked.book, hcommits]
    · simpa [bookedExec, httpExec, hcommits] using hb.store
    · exact ⟨fun hf => (by cases hf), fun hdone => absurd hdone.2 hcommits⟩

/-- A ledger without a transaction, or with one that was abandoned. -/
theorem Booked.Sound.unclosed (st : Store) (b : Booked) (hb : b.Sound h st)
    (r : Except Err Response) (hr : (∃ resp, r = .ok resp) → b.state.tx = none) :
    Closed h st r b := by
  refine ⟨?_, fun e he hpl => ?_, fun resp hresp e he hpl => ?_⟩
  · have hfilter : b.ledger.filter (fun e => e.fate = .committed) =
        b.ledger.filter (fun e => e.place = .pool) := by
      refine List.filter_congr (fun e he => ?_)
      rw [hb.fate e he]
      cases e.place with
      | pool => rfl
      | transaction => rfl
    rw [hfilter]
    exact hb.store
  · rw [hb.fate e he, if_pos hpl]
  · rcases hb.opened e he hpl with ⟨v, hv⟩
    rw [hr ⟨resp, hresp⟩] at hv
    exact (nomatch hv)

/-- The ledger of a request behind the tenant middleware. -/
theorem tenantRLS_closed (slug : String) (handler : Option String → Prog Response)
    (s : HttpState) :
    Proc.Ends (bookedExec h) (Closed h s.world.store) (serveTenant slug handler) s.start := by
  have hstart : s.start.Untouched s.world.store := ⟨rfl, rfl, fun v hv => (nomatch hv)⟩
  unfold serveTenant tenantRLS
  by_cases hslug : slug = ""
  · -- Without a project there is no transaction.
    rw [if_pos hslug]
    rcases Booked.handler_sound h s.world.store (handler none) s.start (hstart.sound h _ _) with
      ⟨hsound, hsome⟩
    refine hsound.unclosed h _ _ _ (fun _ => ?_)
    rw [← Option.not_isSome_iff_eq_none, hsome]
    exact Bool.false_ne_true
  rw [if_neg hslug]
  -- The lookup of the project, the begin and the setting write nothing.
  refine Proc.ends_attempt _ _ s.start (fun r b₁ hrun => ?_)
  rw [Proc.run_call] at hrun
  have h₁ := (hstart.lookup h _ _ slug rfl).1
  rw [hrun] at h₁
  cases r with
  | error e => cases e <;> exact h₁.closed h _ _ _
  | ok proj =>
      refine Proc.ends_attempt _ _ b₁ (fun r b₂ hrun => ?_)
      rw [Proc.run_call] at hrun
      rcases h₁.begin h _ _ r b₂ hrun with ⟨h₂, hbegun⟩
      cases r with
      | error e => exact h₂.closed h _ _ _
      | ok _ =>
          refine Proc.ends_attempt _ _ b₂ (fun r b₃ hrun => ?_)
          rw [Proc.run_call] at hrun
          rcases h₂.setTenantContext h _ _ proj.id r b₃ hrun with ⟨h₃, hset⟩
          cases r with
          | error e => exact (h₃.sound h _ _).rollback h _ _ _ (by decide)
          | ok _ =>
              have hopen : b₃.state.tx.isSome = true := by
                rw [hset, hbegun rfl]
                rfl
              rcases Booked.handler_sound h s.world.store (handler (some proj.id)) b₃
                (h₃.sound h _ _) with ⟨hsound, hsome⟩
              refine Proc.ends_bind _ _ b₃ (fun e b₄ hrun => ?_) (fun resp b₄ hrun => ?_)
              · -- The handler panicked, and the transaction is abandoned.
                rw [hrun] at hsound
                exact hsound.unclosed h _ _ _ (fun ⟨_, hr⟩ => (nomatch hr))
              · rw [hrun] at hsound hsome
                by_cases hbad : resp.status ≥ 400
                · simp only [if_pos hbad]
                  exact hsound.rollback h _ _ resp hbad
                · simp only [if_neg hbad]
                  refine Proc.ends_attempt _ _ b₄ (fun r b₅ hrun => ?_)
                  rw [Proc.run_call] at hrun
                  have hclosed := hsound.commit h _ _ resp (Nat.lt_of_not_le hbad)
                    (hsome.trans hopen)
                  rw [hrun] at hclosed
                  exact hclosed

end Ledger

/-- The committed database is what the committed entries of the ledger make of
    the one at the start; and the status says the truth about the writes
    exactly if a success comes with a transaction that could be committed or
    had written nothing, and an error without a write on the pool. -/
theorem acknowledged_iff (h : HttpHost) (slug : String) (handler : Option String → Prog Response)
    (s : HttpState) :
    (served h slug handler s).2.state.world.store =
        applied h.host ((served h slug handler s).2.ledger.filter (fun e => e.fate = .committed))
          s.world.store ∧
      (Acknowledged (served h slug handler s).1 (served h slug handler s).2.ledger ↔
        ∀ resp, (served h slug handler s).1 = .ok resp →
          (resp.status < 400 → h.commits = true ∨
            ∀ e ∈ (served h slug handler s).2.ledger, e.place = .pool) ∧
          (400 ≤ resp.status →
            ∀ e ∈ (served h slug handler s).2.ledger, e.place = .transaction)) := by
  have hclosed : Closed h s.world.store (served h slug handler s).1 (served h slug handler s).2 :=
    tenantRLS_closed h slug handler s
  refine ⟨hclosed.store, ?_⟩
  -- Pool entries are committed whatever the answer; those of the transaction follow the
  -- status and the commit.
  unfold Acknowledged
  refine forall_congr' (fun resp => forall_congr' (fun hresp => and_congr ?_ ?_))
  · refine forall_congr' (fun hgood => ⟨fun hall => ?_, fun hcond e he => ?_⟩)
    · by_cases hcommits : h.commits = true
      · exact .inl hcommits
      · refine .inr (fun e he => ?_)
        cases hplace : e.place with
        | pool => rfl
        | transaction =>
            have hdone := (hclosed.transaction resp hresp e he hplace).mp (hall e he)
            exact absurd hdone.2 hcommits
    · cases hplace : e.place with
      | pool => exact hclosed.pool e he hplace
      | transaction =>
          rw [hclosed.transaction resp hresp e he hplace]
          refine ⟨hgood, hcond.resolve_right (fun hpool => ?_)⟩
          rw [hpool e he] at hplace
          exact (nomatch hplace)
  · refine forall_congr' (fun hbad => forall_congr' (fun e => forall_congr' (fun he => ?_)))
    cases hplace : e.place with
    | pool =>
        have hdone := hclosed.pool e he hplace
        exact ⟨fun hno => absurd hdone hno, fun hno => (nomatch hno)⟩
    | transaction =>
        have hdone := hclosed.transaction resp hresp e he hplace
        exact ⟨fun _ => rfl, fun _ hcommitted => absurd (hdone.mp hcommitted).1 (by omega)⟩

/-- The handler that deletes a variant by force. What is in the body of a
    success makes no difference. -/
def forceDelete (projSlug flagKey variantKey : String) (tenant : Option String) :
    Prog Response := do
  let ctx : Ctx := ⟨some ⟨"u1", .editor⟩, tenant⟩
  match ← (do
      let proj ← ctx.call (.projectBySlug projSlug)
      FlagService.deleteVariant ctx proj.id flagKey variantKey true).attempt with
  | .ok _ => return ⟨200, .empty⟩
  | .error e => return writeError e

/-- A flag with three themes, one of which a rule serves. -/
def themeShop : HttpState where
  world := { store := {
    projects := [⟨"p1", "Shop", "shop", 0⟩]
    environments := [⟨"e1", "p1", "Production", "prod", 0⟩]
    flags := [⟨"f1", "p1", "theme", "Theme", .string, [⟨"red", "Red"⟩, ⟨"blue", "Blue"⟩,
      ⟨"green", "Green"⟩], "red", 0⟩]
    rules := [{ darkModePaying with id := sampleUUID 1, variantKey := "blue" }] } }
  tx := none
  windows := fun _ => none

/-- A server on which one statement fails. -/
def failingAt (n : Nat) : HttpHost where
  host := { Host.steady with fails := fun k => k == n }
  verify := fun _ => .error .invalid
  commits := true
  evalRateLimiter := ⟨600, 60 * second⟩

/-- The flag cannot be updated any more, and the client is told so; the rule
    has been rewritten all the same. -/
theorem acknowledged_force_delete :
    (served (failingAt 7) "shop" (forceDelete "shop" "theme" "blue") themeShop).1 =
        .ok ⟨500, .error "internal_error" "an unexpected error occurred"⟩ ∧
      (served (failingAt 7) "shop" (forceDelete "shop" "theme" "blue")
        themeShop).2.state.world.store.rules.map (fun r => r.variantKey) = ["red"] ∧
      ¬ Acknowledged (served (failingAt 7) "shop" (forceDelete "shop" "theme" "blue") themeShop).1
        (served (failingAt 7) "shop" (forceDelete "shop" "theme" "blue") themeShop).2.ledger := by
  have hresp : (served (failingAt 7) "shop" (forceDelete "shop" "theme" "blue") themeShop).1 =
      .ok ⟨500, .error "internal_error" "an unexpected error occurred"⟩ := by
    decide +kernel
  have hfates : (served (failingAt 7) "shop" (forceDelete "shop" "theme" "blue")
      themeShop).2.ledger.map (fun e => e.fate) = [.committed] := by
    decide +kernel
  refine ⟨hresp, by decide +kernel, fun hclaim => ?_⟩
  have hmem : Fate.committed ∈ (served (failingAt 7) "shop" (forceDelete "shop" "theme" "blue")
      themeShop).2.ledger.map (fun e => e.fate) := by
    rw [hfates]
    exact List.mem_singleton.mpr rfl
  rcases List.mem_map.mp hmem with ⟨e, he, hfate⟩
  exact (hclaim _ hresp).2 (by decide) e he hfate

end Cuttlegate
