import Cuttlegate.Adapters.Handlers
import Cuttlegate.Adapters.Mcp
import Cuttlegate.Lib.Discipline
import Cuttlegate.Theory.Durability

/-!
# Requests beside Each Other

The server with any number of requests at work at once, each behind the tenant
middleware in a transaction of its own, and with tool calls that have none.

The programs are those of the handlers; only what an operation does is told
anew. A transaction is the list of what it has written. It sees the committed
database with its own writes made on top, statement by statement, which is the
isolation level the database gives when none is asked for. Committing makes
its writes on the committed database, and what is written on the pool is
committed at once.

The log records what becomes visible to others in the order in which it does:
every committed write, and every published event.

To reason about a pool of requests, each carries a note: its transaction, what
it has written there, and something of its own that differs from one argument
to the next. `Tracked` says that the notes and the open transactions agree, and
is kept by every operation.

## Main definitions

* `TxHost`, `Server`, `TxOp`, `txExec`: The operations and their effect.
* `Server.view`: The database as a transaction sees it.
* `Logged`: What becomes visible to others.
* `atServer`, `atPool`: The programs of the HTTP and the MCP server.
* `TxNote`, `TxRules`, `Tracked`: Notes about transactions.
* `ServedBy`: A request obeys rules.

## Theorems

* `Tracked.step`: The notes stay true.
* `served_bind`, `served_tx`, `served_pool`, `served_tenantRLS`: Requests,
  followed step by step.
* `applied_same`: What the writes of a transaction leave alone.
-/

namespace Cuttlegate

/-! ## The server -/

/-- What the surroundings of the server decide. -/
structure TxHost where
  host : Host
  /-- The identity provider's verdict on a token. -/
  verify : String → Except VerifyError (User × Role)
  /-- Which commits succeed, by the number of operations before. -/
  commits : Nat → Bool
  evalRateLimiter : RateLimiter

/-- The surroundings as the text of one request depends on them, which has
    nothing to do with whether its commit succeeds. -/
def TxHost.http (h : TxHost) : HttpHost := ⟨h.host, h.verify, true, h.evalRateLimiter⟩

/-- What becomes visible to others. -/
inductive Logged where
  | written (op : Op)
  | published (e : FlagStateChangedEvent)
  deriving DecidableEq

structure Server where
  /-- The database as it is committed, and everything outside it. -/
  world : World
  /-- The open transactions, and what each has written. -/
  opened : Nat → Option (List Entry) := fun _ => none
  /-- The number of transactions begun, which are known by their numbers. -/
  begun : Nat := 0
  log : List Logged := []
  windows : Windows := fun _ => none

inductive TxOp where
  | pool (c : Call)
  | begin
  | setTenantContext (t : Nat) (projectID : String)
  | within (t : Nat) (c : Call)
  | commit (t : Nat)
  | rollback (t : Nat)
  | allow (key : String)

/-- The type of the answer to an operation. -/
abbrev TxOp.Ret : TxOp → Type
  | .pool c => c.Ret
  | .begin => Nat
  | .within _ c => c.Ret
  | .allow _ => Bool
  | _ => Unit

abbrev TxProg (α : Type) := Proc Err TxOp TxOp.Ret α

/-- What a transaction has written. -/
def Server.entries (s : Server) (t : Nat) : List Entry := (s.opened t).getD []

/-- The database as a transaction sees it. -/
def Server.view (h : Host) (s : Server) (t : Nat) : Store :=
  applied h (s.entries t) s.world.store

/-- The world as a transaction sees it. -/
def Server.seen (h : Host) (s : Server) (t : Nat) : World := { s.world with store := s.view h t }

/-- What an operation on the pool makes visible, if it succeeds. -/
def Op.logged (op : Op) : List Logged :=
  match op with
  | .publish e => [.published e]
  | op => if op.stores then [.written op] else []

/-- The effect of an operation. -/
def txExec (h : TxHost) (op : TxOp) (s : Server) : Except Err op.Ret × Server :=
  match op with
  | .pool c =>
      let out := exec h.host c s.world
      (out.1, { s with
        world := out.2
        log := if out.1.isOk then s.log ++ c.op.logged else s.log })
  | .begin =>
      if h.host.fails s.world.calls then (.error .internal, { s with world := s.world.tick })
      else (.ok s.begun, { s with
        world := s.world.tick
        opened := Function.update s.opened s.begun (some [])
        begun := s.begun + 1 })
  | .setTenantContext _ _ =>
      if h.host.fails s.world.calls then (.error .internal, { s with world := s.world.tick })
      else (.ok (), { s with world := s.world.tick })
  -- Within a transaction a write is kept aside and reaches the store at the commit.
  | .within t c =>
      let out := exec h.host c (s.seen h.host t)
      (out.1, { s with
        world := { out.2 with store := s.world.store }
        opened := if c.op.stores && out.1.isOk then
          Function.update s.opened t
            (some (s.entries t ++ [⟨s.world, c, .transaction, .pending⟩]))
          else s.opened })
  -- A failed commit drops the entries as a rollback does.
  | .commit t =>
      if h.commits s.world.calls then (.ok (), { s with
        world := { s.world with store := s.view h.host t, calls := s.world.calls + 1 }
        opened := Function.update s.opened t none
        log := s.log ++ (s.entries t).flatMap (fun e => e.call.op.logged) })
      else (.error .internal, { s with
        world := s.world.tick
        opened := Function.update s.opened t none })
  | .rollback t => (.ok (), { s with
      world := s.world.tick
      opened := Function.update s.opened t none })
  | .allow key =>
      let decision := h.evalRateLimiter.allow (h.host.now s.world.calls) key s.windows
      (.ok decision.1, { s with world := s.world.tick, windows := decision.2 })

/-- A request of the HTTP server, given the transaction it has open; its
    outcome comes with the transaction it has open then. -/
def atServer {α : Type} : HttpProg α → Option Nat → TxProg (Except Err α × Option Nat)
  | .ret a, t => .ret (.ok a, t)
  | .fail e, t => .ret (.error e, t)
  | .act (.db c) k, some t =>
      if c.inTx then .act (.within t c) (fun r => atServer (k r) (some t))
      else .act (.pool c) (fun r => atServer (k r) (some t))
  | .act (.db c) k, none => .act (.pool c) (fun r => atServer (k r) none)
  | .act .beginTx k, t => .act .begin (fun r => match r with
      | .ok n => atServer (k (.ok ())) (some n)
      | .error e => atServer (k (.error e)) t)
  | .act (.setTenantContext id) k, some t =>
      .act (.setTenantContext t id) (fun r => atServer (k r) (some t))
  | .act (.setTenantContext _) k, none => atServer (k (.error .internal)) none
  | .act .commit k, some t => .act (.commit t) (fun r => atServer (k r) none)
  | .act .commit k, none => atServer (k (.error .internal)) none
  | .act .rollback k, some t => .act (.rollback t) (fun r => atServer (k r) none)
  | .act .rollback k, none => atServer (k (.error .internal)) none
  | .act (.allow key) k, t => .act (.allow key) (fun r => atServer (k r) t)

/-- A tool call of the MCP server, which has no transaction. What a tool call
    asks of the server itself is left out. -/
def atPool {α : Type} : McpProg α → TxProg α
  | .ret a => .ret a
  | .fail e => .fail e
  | .act (.db c) k => .act (.pool c) (fun r => atPool (k r))
  | .act _ _ => .fail .internal

/-! ## Notes about transactions -/

/-- What a request knows: its transaction, what it has written there, and
    something of its own. -/
structure TxNote (γ : Type) where
  tx : Option Nat
  writes : List Call
  own : γ

/-- The operation is on the transaction of the request, if it is on one. -/
def TxOp.Owned (tx : Option Nat) : TxOp → Prop
  | .begin => tx = none
  | .setTenantContext t _ | .within t _ | .commit t | .rollback t => tx = some t
  | _ => True

/-- What is permitted beyond that, and what becomes of the rest of a note. -/
structure TxRules (γ : Type) where
  permits : TxOp → TxNote γ → Prop
  after : (op : TxOp) → Except Err op.Ret → TxNote γ → γ

def TxRules.tx {γ : Type} (op : TxOp) (r : Except Err op.Ret) (n : TxNote γ) : Option Nat :=
  match op, r with
  | .begin, .ok t => some t
  | .commit _, _ | .rollback _, _ => none
  | _, _ => n.tx

def TxRules.writes {γ : Type} (op : TxOp) (r : Except Err op.Ret) (n : TxNote γ) : List Call :=
  match op, r with
  | .within _ c, .ok _ => if c.op.stores then n.writes ++ [c] else n.writes
  | .commit _, _ | .rollback _, _ => []
  | _, _ => n.writes

/-- Notes that keep track of the transaction, under the given rules. -/
def TxRules.discipline {γ : Type} (R : TxRules γ) :
    Discipline Err TxOp TxOp.Ret (TxNote γ) where
  permits := fun op n => op.Owned n.tx ∧ R.permits op n
  after := fun op r n => ⟨TxRules.tx op r n, TxRules.writes op r n, R.after op r n⟩

/-- The notes and the open transactions agree. -/
structure Tracked {γ : Type} (h : TxHost) (s : Server) (note : Nat → TxNote γ) : Prop where
  begun : ∀ i t, (note i).tx = some t → t < s.begun
  alone : ∀ i j t, (note i).tx = some t → (note j).tx = some t → i = j
  writes : ∀ i t, (note i).tx = some t → (s.entries t).map (fun e => e.call) = (note i).writes
  idle : ∀ i, (note i).tx = none → (note i).writes = []
  closed : ∀ t, (∀ i, (note i).tx ≠ some t) → s.entries t = []
  made : ∀ t, ∀ e ∈ s.entries t, h.host.fails e.world.calls = false ∧ e.call.op.stores = true

section Tracking

variable {γ : Type} (h : TxHost)

theorem entries_update (s : Server) (t t' : Nat) (l : Option (List Entry)) :
    Server.entries { s with opened := Function.update s.opened t l } t' =
      if t' = t then l.getD [] else s.entries t' := by
  unfold Server.entries
  by_cases ht : t' = t
  · rw [if_pos ht, ht]
    simp only [Function.update_self]
  · rw [if_neg ht]
    simp only [Function.update_of_ne ht]

/-- An operation that succeeded was not made to fail. -/
theorem exec_isOk (c : Call) (w : World) (hc : c.op.stores = true)
    (hok : (exec h.host c w).1.isOk = true) : h.host.fails w.calls = false := by
  have hfallible : c.op.fallible = true := by
    rcases c with ⟨tenant, op⟩
    cases op <;> first
      | rfl
      | exact absurd (show false = true from hc) (by decide)
  by_contra hfails
  rw [Bool.not_eq_false] at hfails
  simp [exec, hfails, hfallible, Except.isOk, Except.toBool] at hok

/-- A write that succeeded is entered. -/
theorem entries_within (t' : Nat) (c : Call) (s : Server) (t : Nat) :
    (txExec h (.within t' c) s).2.entries t =
      if t = t' ∧ (c.op.stores && (exec h.host c (s.seen h.host t')).1.isOk) = true then
        s.entries t ++ [⟨s.world, c, .transaction, .pending⟩]
      else s.entries t := by
  simp only [txExec]
  by_cases hput : (c.op.stores && (exec h.host c (s.seen h.host t')).1.isOk) = true
  · rw [if_pos hput]
    refine (entries_update { s with world := _ } t' t _).trans ?_
    by_cases ht : t = t'
    · rw [if_pos ht, if_pos ⟨ht, hput⟩, ht]
      rfl
    · rw [if_neg ht, if_neg (fun hall => ht hall.1)]
      rfl
  · rw [if_neg hput, if_neg (fun hall => hput hall.2)]
    rfl

/-- A transaction has written nothing at first. -/
theorem entries_begin (s : Server) (t : Nat) :
    (txExec h .begin s).2.entries t =
      if t = s.begun ∧ h.host.fails s.world.calls = false then [] else s.entries t := by
  simp only [txExec]
  by_cases hfails : h.host.fails s.world.calls = true
  · rw [if_pos hfails, if_neg (fun hall => by rw [hfails] at hall; exact (nomatch hall.2))]
    rfl
  · rw [if_neg hfails]
    refine (entries_update { s with world := _, begun := _ } s.begun t _).trans ?_
    by_cases ht : t = s.begun
    · rw [if_pos ht, if_pos ⟨ht, Bool.eq_false_of_not_eq_true hfails⟩]
      rfl
    · rw [if_neg ht, if_neg (fun hall => ht hall.1)]
      rfl

/-- Nothing is left of a transaction that was committed. -/
theorem entries_commit (t' : Nat) (s : Server) (t : Nat) :
    (txExec h (.commit t') s).2.entries t = if t = t' then [] else s.entries t := by
  simp only [txExec]
  by_cases hcommits : h.commits s.world.calls = true
  · rw [if_pos hcommits]
    exact entries_update { s with world := _, log := _ } t' t none
  · rw [if_neg hcommits]
    exact entries_update { s with world := _ } t' t none

/-- Nor of one that was rolled back. -/
theorem entries_rollback (t' : Nat) (s : Server) (t : Nat) :
    (txExec h (.rollback t') s).2.entries t = if t = t' then [] else s.entries t :=
  entries_update { s with world := _ } t' t none

/-- One request changes its note and its transaction, and leaves the others
    alone. -/
theorem Tracked.update (s s' : Server) (note : Nat → TxNote γ) (hT : Tracked h s note) (i : Nat)
    (n : TxNote γ) (hbegun : s.begun ≤ s'.begun)
    (hothers : ∀ t, (note i).tx ≠ some t → n.tx ≠ some t → s'.entries t = s.entries t)
    (hold : ∀ t, (note i).tx = some t → n.tx ≠ some t → s'.entries t = [])
    (hnew : ∀ t, n.tx = some t → t < s'.begun ∧ ((note i).tx = some t ∨ s.begun ≤ t) ∧
      (s'.entries t).map (fun e => e.call) = n.writes ∧
      ∀ e ∈ s'.entries t, h.host.fails e.world.calls = false ∧ e.call.op.stores = true)
    (hidle : n.tx = none → n.writes = []) : Tracked h s' (Function.update note i n) := by
  -- The transaction of another request is neither the old nor the new one.
  have hforeign : ∀ j t, j ≠ i → (note j).tx = some t →
      (note i).tx ≠ some t ∧ n.tx ≠ some t := by
    intro j t hji hj
    refine ⟨fun hi => hji (hT.alone j i t hj hi), fun hn => ?_⟩
    rcases (hnew t hn).2.1 with hi | hfresh
    · exact hji (hT.alone j i t hj hi)
    · have hlt := hT.begun j t hj
      omega
  have hkeep : ∀ j t, j ≠ i → (note j).tx = some t → s'.entries t = s.entries t :=
    fun j t hji hj => hothers t (hforeign j t hji hj).1 (hforeign j t hji hj).2
  -- In each clause the request itself and the others are told apart.
  refine ⟨fun j t hj => ?_, fun j k t hj hk => ?_, fun j t hj => ?_, fun j hj => ?_,
    fun t ht => ?_, fun t e he => ?_⟩
  · by_cases hji : j = i
    · rw [hji, Function.update_self] at hj
      exact (hnew t hj).1
    · rw [Function.update_of_ne hji] at hj
      exact Nat.lt_of_lt_of_le (hT.begun j t hj) hbegun
  · by_cases hji : j = i
    · by_cases hki : k = i
      · rw [hji, hki]
      · rw [hji, Function.update_self] at hj
        rw [Function.update_of_ne hki] at hk
        exact absurd hj (hforeign k t hki hk).2
    · rw [Function.update_of_ne hji] at hj
      by_cases hki : k = i
      · rw [hki, Function.update_self] at hk
        exact absurd hk (hforeign j t hji hj).2
      · rw [Function.update_of_ne hki] at hk
        exact hT.alone j k t hj hk
  · by_cases hji : j = i
    · rw [hji, Function.update_self] at hj ⊢
      exact (hnew t hj).2.2.1
    · rw [Function.update_of_ne hji] at hj ⊢
      rw [hkeep j t hji hj]
      exact hT.writes j t hj
  · by_cases hji : j = i
    · rw [hji, Function.update_self] at hj ⊢
      exact hidle hj
    · rw [Function.update_of_ne hji] at hj ⊢
      exact hT.idle j hj
  -- A transaction nobody owns was given up now or was nobody's before.
  · have hn : n.tx ≠ some t := by
      have hi := ht i
      rw [Function.update_self] at hi
      exact hi
    by_cases hi : (note i).tx = some t
    · exact hold t hi hn
    · rw [hothers t hi hn]
      refine hT.closed t (fun j hj => ?_)
      by_cases hji : j = i
      · exact hi (hji ▸ hj)
      · have hj' := ht j
        rw [Function.update_of_ne hji] at hj'
        exact hj' hj
  · by_cases hn : n.tx = some t
    · exact (hnew t hn).2.2.2 e he
    · by_cases hi : (note i).tx = some t
      · rw [hold t hi hn] at he
        exact absurd he List.not_mem_nil
      · rw [hothers t hi hn] at he
        exact hT.made t e he

/-- The note of a request whose transaction stays as it was. -/
theorem Tracked.keep (s s' : Server) (note : Nat → TxNote γ) (hT : Tracked h s note) (i : Nat)
    (n : TxNote γ) (hbegun : s'.begun = s.begun) (hentries : ∀ t, s'.entries t = s.entries t)
    (htx : n.tx = (note i).tx) (hwrites : n.writes = (note i).writes) :
    Tracked h s' (Function.update note i n) := by
  refine hT.update h s s' note i n (le_of_eq hbegun.symm) (fun t _ _ => hentries t)
    (fun t hi hn => absurd (htx.trans hi) hn) (fun t hn => ?_) (fun hn => ?_)
  · rw [htx] at hn
    rw [hbegun, hentries t, hwrites]
    exact ⟨hT.begun i t hn, .inl hn, hT.writes i t hn, hT.made t⟩
  · rw [hwrites]
    exact hT.idle i (htx.symm.trans hn)

/-- The transaction of a request ends. -/
theorem Tracked.finish (s s' : Server) (note : Nat → TxNote γ) (hT : Tracked h s note) (i t : Nat)
    (n : TxNote γ) (hi : (note i).tx = some t) (hbegun : s'.begun = s.begun)
    (hentries : ∀ t', s'.entries t' = if t' = t then [] else s.entries t')
    (htx : n.tx = none) (hwrites : n.writes = []) : Tracked h s' (Function.update note i n) := by
  refine hT.update h s s' note i n (le_of_eq hbegun.symm) (fun t' hi' _ => ?_)
    (fun t' hi' _ => ?_) (fun t' hn => ?_) (fun _ => hwrites)
  · have hne : t' ≠ t := by
      rintro rfl
      exact hi' hi
    rw [hentries, if_neg hne]
  · rw [hi, Option.some.injEq] at hi'
    rw [hentries, if_pos hi'.symm]
  · rw [htx] at hn
    exact (nomatch hn)

/-- A new transaction has a number of its own, and has written nothing. -/
theorem Tracked.step_begin (R : TxRules γ) (s : Server) (note : Nat → TxNote γ)
    (hT : Tracked h s note) (i : Nat) (hown : TxOp.begin.Owned (note i).tx) :
    Tracked h (txExec h .begin s).2
      (Function.update note i (R.discipline.after .begin (txExec h .begin s).1 (note i))) := by
  have hnone : (note i).tx = none := hown
  have hentries := entries_begin h s
  by_cases hfails : h.host.fails s.world.calls = true
  · simp only [txExec, if_pos hfails]
    exact hT.keep h s _ note i _ rfl (fun _ => rfl) rfl rfl
  · simp only [txExec, if_neg hfails] at hentries ⊢
    refine hT.update h s _ note i _ (Nat.le_succ _) (fun t _ hn => ?_)
      (fun t hi _ => ?_) (fun t hn => ?_) (fun hn => (nomatch hn))
    · rw [hentries, if_neg (fun hall => hn (congrArg some hall.1.symm))]
    · rw [hnone] at hi
      exact (nomatch hi)
    · have ht : s.begun = t := Option.some.inj hn
      -- The number is fresh, and the transaction starts with nothing written.
      have hempty : Server.entries { s with
          world := s.world.tick
          opened := Function.update s.opened s.begun (some [])
          begun := s.begun + 1 } t = [] := by
        rw [hentries, if_pos ⟨ht.symm, Bool.eq_false_of_not_eq_true hfails⟩]
      refine ⟨ht ▸ Nat.lt_succ_self _, .inr (le_of_eq ht), ?_, fun e he => ?_⟩
      · rw [hempty]
        exact (hT.idle i hnone).symm
      · rw [hempty] at he
        exact absurd he List.not_mem_nil

/-- A write that succeeds is entered in the transaction and in the note. -/
theorem Tracked.step_within (R : TxRules γ) (s : Server) (note : Nat → TxNote γ)
    (hT : Tracked h s note) (i t : Nat) (c : Call) (hown : (TxOp.within t c).Owned (note i).tx) :
    Tracked h (txExec h (.within t c) s).2 (Function.update note i
      (R.discipline.after (.within t c) (txExec h (.within t c) s).1 (note i))) := by
  have hi : (note i).tx = some t := hown
  have hentries := entries_within h t c s
  -- The call is kept aside exactly when it writes a table and succeeds.
  by_cases hput : (c.op.stores && (exec h.host c (s.seen h.host t)).1.isOk) = true
  · have hstores := (Bool.and_eq_true_iff.mp hput)
    have hwrites : TxRules.writes (.within t c) (txExec h (.within t c) s).1 (note i) =
        (note i).writes ++ [c] := by
      change TxRules.writes (.within t c) (exec h.host c (s.seen h.host t)).1 (note i) = _
      cases hr : (exec h.host c (s.seen h.host t)).1 with
      | error e =>
          rw [hr] at hstores
          exact (nomatch hstores.2)
      | ok a => exact if_pos hstores.1
    refine hT.update h s _ note i _ (le_of_eq rfl) (fun t' hi' _ => ?_)
      (fun t' hi' hn => absurd hi' hn) (fun t' hn => ?_) (fun hn => ?_)
    · have hne : t' ≠ t := by
        rintro rfl
        exact hi' hi
      rw [hentries, if_neg (fun hall => hne hall.1)]
    · have ht : t' = t := by
        have hsame : (note i).tx = some t' := hn
        rw [hi, Option.some.injEq] at hsame
        exact hsame.symm
      rw [hentries, if_pos ⟨ht, hput⟩, ht]
      refine ⟨hT.begun i t hi, .inl hi, ?_, fun e he => ?_⟩
      · rw [List.map_append, hT.writes i t hi]
        exact hwrites.symm
      · rcases List.mem_append.mp he with he | he
        · exact hT.made t e he
        · rw [List.mem_singleton.mp he]
          exact ⟨exec_isOk h c (s.seen h.host t) hstores.1 hstores.2, hstores.1⟩
    · have hsame : (note i).tx = none := hn
      rw [hi] at hsame
      exact (nomatch hsame)
  · have hwrites : TxRules.writes (.within t c) (txExec h (.within t c) s).1 (note i) =
        (note i).writes := by
      change TxRules.writes (.within t c) (exec h.host c (s.seen h.host t)).1 (note i) = _
      cases hr : (exec h.host c (s.seen h.host t)).1 with
      | error e => rfl
      | ok a =>
          rw [hr, Bool.and_eq_true] at hput
          exact if_neg (fun hstores => hput ⟨hstores, rfl⟩)
    refine hT.keep h s _ note i _ rfl (fun t' => ?_) rfl hwrites
    rw [hentries, if_neg (fun hall => hput hall.2)]

/-- The notes stay true. -/
theorem Tracked.step (R : TxRules γ) (s : Server) (note : Nat → TxNote γ) (hT : Tracked h s note)
    (i : Nat) (op : TxOp) (hop : R.discipline.permits op (note i)) :
    Tracked h (txExec h op s).2
      (Function.update note i (R.discipline.after op (txExec h op s).1 (note i))) := by
  rcases hop with ⟨hown, _⟩
  cases op with
  | pool c => exact hT.keep h s _ note i _ rfl (fun _ => rfl) rfl rfl
  | allow key => exact hT.keep h s _ note i _ rfl (fun _ => rfl) rfl rfl
  | setTenantContext t id =>
      by_cases hfails : h.host.fails s.world.calls = true
      · simp only [txExec, if_pos hfails]
        exact hT.keep h s _ note i _ rfl (fun _ => rfl) rfl rfl
      · simp only [txExec, if_neg hfails]
        exact hT.keep h s _ note i _ rfl (fun _ => rfl) rfl rfl
  | begin => exact hT.step_begin h R s note i hown
  | commit t =>
      have hi : (note i).tx = some t := hown
      refine hT.finish h s _ note i t _ hi ?_ (entries_commit h t s) rfl rfl
      simp only [txExec]
      split <;> rfl
  | rollback t =>
      have hi : (note i).tx = some t := hown
      exact hT.finish h s _ note i t _ hi rfl (entries_rollback h t s) rfl rfl
  | within t c => exact hT.step_within h R s note i t c hown

end Tracking

/-! ## Following a request -/

/-- A request obeys the rules, and its outcome and last note satisfy `Q`. -/
def ServedBy {γ α : Type} (R : TxRules γ) (Q : Except Err α → TxNote γ → Prop) (p : HttpProg α)
    (n : TxNote γ) : Prop :=
  Proc.Obeys R.discipline (fun r m => ∃ x, r = .ok (x, m.tx) ∧ Q x m) (atServer p n.tx) n

theorem atServer_begin {α : Type} (k : Except Err Unit → HttpProg α) (t : Option Nat) :
    atServer (.act .beginTx k) t = .act .begin (fun r => match r with
      | .ok n => atServer (k (.ok ())) (some n)
      | .error e => atServer (k (.error e)) t) := by
  rw [atServer]

/-- The rest of a request goes on with the transaction its first part left. -/
theorem atServer_then {α β : Type} (x : HttpProg α) (K : Except Err α → HttpProg β)
    (t : Option Nat) :
    atServer (x.attempt >>= K) t = atServer x t >>= fun out => atServer (K out.1) out.2 := by
  -- On the handler's program: at each call the place it runs in is decided by the
  -- transaction held.
  induction x generalizing t with
  | ret a => rfl
  | fail e => rfl
  | act op k ih =>
      cases op with
      | db c =>
          cases t with
          | none => exact congrArg (Proc.act _) (funext (fun r => ih r none))
          | some t =>
              change (if c.inTx then Proc.act (TxOp.within t c) _ else Proc.act (TxOp.pool c) _) =
                (if c.inTx then Proc.act (TxOp.within t c) _ else Proc.act (TxOp.pool c) _) >>= _
              by_cases hin : c.inTx = true
              · rw [if_pos hin, if_pos hin]
                exact congrArg (Proc.act _) (funext (fun r => ih r (some t)))
              · rw [if_neg hin, if_neg hin]
                exact congrArg (Proc.act _) (funext (fun r => ih r (some t)))
      | beginTx =>
          rw [atServer_begin, Proc.act_bind]
          refine (atServer_begin (fun r => (k r).attempt >>= K) t).trans
            (congrArg (Proc.act TxOp.begin) (funext (fun r => ?_)))
          cases r with
          | ok n => exact ih (.ok ()) (some n)
          | error e => exact ih (.error e) t
      | setTenantContext id =>
          cases t with
          | none => exact ih _ none
          | some t => exact congrArg (Proc.act _) (funext (fun r => ih r (some t)))
      | commit =>
          cases t with
          | none => exact ih _ none
          | some t => exact congrArg (Proc.act _) (funext (fun r => ih r none))
      | rollback =>
          cases t with
          | none => exact ih _ none
          | some t => exact congrArg (Proc.act _) (funext (fun r => ih r none))
      | allow key =>
          cases t with
          | none => exact congrArg (Proc.act _) (funext (fun r => ih r none))
          | some t => exact congrArg (Proc.act _) (funext (fun r => ih r (some t)))

section Following

variable {γ α β : Type} {R : TxRules γ} {n : TxNote γ}

theorem served_ret {Q : Except Err α → TxNote γ → Prop} (a : α) (hQ : Q (.ok a) n) :
    ServedBy R Q (.ret a) n :=
  ⟨.ok a, rfl, hQ⟩

theorem served_fail {Q : Except Err α → TxNote γ → Prop} (e : Err) (hQ : Q (.error e) n) :
    ServedBy R Q (.fail e : HttpProg α) n :=
  ⟨.error e, rfl, hQ⟩

theorem served_mono {Q S : Except Err α → TxNote γ → Prop} (hQS : ∀ r m, Q r m → S r m)
    (p : HttpProg α) (hp : ServedBy R Q p n) : ServedBy R S p n := by
  refine Proc.obeys_mono (fun r m hr => ?_) _ _ hp
  rcases hr with ⟨x, hx, hQ⟩
  exact ⟨x, hx, hQS x m hQ⟩

theorem served_then {Q : Except Err β → TxNote γ → Prop} (x : HttpProg α)
    (K : Except Err α → HttpProg β) (hx : ServedBy R (fun r m => ServedBy R Q (K r) m) x n) :
    ServedBy R Q (x.attempt >>= K) n := by
  unfold ServedBy
  rw [atServer_then]
  refine Proc.obeys_bind _ _ _ (Proc.obeys_mono (fun r m hr => ?_) _ _ hx)
  rcases hr with ⟨y, rfl, hrest⟩
  exact hrest

theorem served_bind {Q : Except Err β → TxNote γ → Prop} (x : HttpProg α) (f : α → HttpProg β)
    (hx : ServedBy R (fun r m => match r with
      | .ok a => ServedBy R Q (f a) m
      | .error e => Q (.error e) m) x n) : ServedBy R Q (x >>= f) n := by
  rw [Proc.bind_eq_attempt]
  refine served_then x _ (served_mono (fun r m hr => ?_) x hx)
  cases r with
  | ok a => exact hr
  | error e => exact served_fail e hr

/-- A statement in the transaction. -/
theorem served_tx (t : Nat) (c : Call) {Q : Except Err c.Ret → TxNote γ → Prop}
    (htx : n.tx = some t) (hin : c.inTx = true) (hop : R.permits (.within t c) n)
    (hQ : ∀ r, Q r (R.discipline.after (.within t c) r n)) :
    ServedBy R Q (Proc.call (HttpOp.db c)) n := by
  unfold ServedBy
  rw [htx]
  change Proc.Obeys _ _ (if c.inTx then Proc.act (TxOp.within t c) _ else _) n
  rw [if_pos hin]
  refine ⟨⟨htx, hop⟩, fun r => ?_⟩
  cases r with
  | ok a => exact ⟨.ok a, congrArg (fun tx => Except.ok (Except.ok a, tx)) htx.symm, hQ (.ok a)⟩
  | error e =>
      exact ⟨.error e, congrArg (fun tx => Except.ok (Except.error e, tx)) htx.symm, hQ (.error e)⟩

/-- A statement on the pool. -/
theorem served_pool (c : Call) {Q : Except Err c.Ret → TxNote γ → Prop}
    (hin : n.tx = none ∨ c.inTx = false) (hop : R.permits (.pool c) n)
    (hQ : ∀ r, Q r (R.discipline.after (.pool c) r n)) :
    ServedBy R Q (Proc.call (HttpOp.db c)) n := by
  have hplace : atServer (Proc.call (HttpOp.db c)) n.tx =
      .act (.pool c) (fun r => atServer (Proc.ofExcept r) n.tx) := by
    cases htx : n.tx with
    | none => rfl
    | some t =>
        have hno : c.inTx = false := hin.resolve_left (fun hnone => by
          rw [htx] at hnone
          exact (nomatch hnone))
        change (if c.inTx then _ else Proc.act (TxOp.pool c) _) = _
        rw [if_neg (by rw [hno]; exact Bool.false_ne_true)]
  unfold ServedBy
  rw [hplace]
  refine ⟨⟨trivial, hop⟩, fun r => ?_⟩
  cases r with
  | ok a => exact ⟨.ok a, rfl, hQ (.ok a)⟩
  | error e => exact ⟨.error e, rfl, hQ (.error e)⟩

theorem served_begin {Q : Except Err Unit → TxNote γ → Prop} (htx : n.tx = none)
    (hop : R.permits .begin n) (hok : ∀ t, Q (.ok ()) (R.discipline.after .begin (.ok t) n))
    (hfail : ∀ e, Q (.error e) (R.discipline.after .begin (.error e) n)) :
    ServedBy R Q (Proc.call HttpOp.beginTx) n := by
  unfold ServedBy
  rw [Proc.call, atServer_begin]
  refine ⟨⟨htx, hop⟩, fun r => ?_⟩
  cases r with
  | ok t => exact ⟨.ok (), rfl, hok t⟩
  | error e => exact ⟨.error e, rfl, hfail e⟩

theorem served_context {Q : Except Err Unit → TxNote γ → Prop} (t : Nat) (id : String)
    (htx : n.tx = some t) (hop : R.permits (.setTenantContext t id) n)
    (hQ : ∀ r, Q r (R.discipline.after (.setTenantContext t id) r n)) :
    ServedBy R Q (Proc.call (HttpOp.setTenantContext id)) n := by
  unfold ServedBy
  rw [htx]
  refine ⟨⟨htx, hop⟩, fun r => ?_⟩
  cases r with
  | ok a => exact ⟨.ok a, congrArg (fun tx => Except.ok (Except.ok a, tx)) htx.symm, hQ (.ok a)⟩
  | error e =>
      exact ⟨.error e, congrArg (fun tx => Except.ok (Except.error e, tx)) htx.symm, hQ (.error e)⟩

theorem served_commit {Q : Except Err Unit → TxNote γ → Prop} (t : Nat) (htx : n.tx = some t)
    (hop : R.permits (.commit t) n) (hQ : ∀ r, Q r (R.discipline.after (.commit t) r n)) :
    ServedBy R Q (Proc.call HttpOp.commit) n := by
  unfold ServedBy
  rw [htx]
  refine ⟨⟨htx, hop⟩, fun r => ?_⟩
  cases r with
  | ok a => exact ⟨.ok a, rfl, hQ (.ok a)⟩
  | error e => exact ⟨.error e, rfl, hQ (.error e)⟩

theorem served_rollback {Q : Except Err Unit → TxNote γ → Prop} (t : Nat) (htx : n.tx = some t)
    (hop : R.permits (.rollback t) n) (hQ : ∀ r, Q r (R.discipline.after (.rollback t) r n)) :
    ServedBy R Q (Proc.call HttpOp.rollback) n := by
  unfold ServedBy
  rw [htx]
  refine ⟨⟨htx, hop⟩, fun r => ?_⟩
  cases r with
  | ok a => exact ⟨.ok a, rfl, hQ (.ok a)⟩
  | error e => exact ⟨.error e, rfl, hQ (.error e)⟩

/-- The postcondition accepts a refusal. -/
def Refusing (Q : Except Err Response → TxNote γ → Prop) (m : TxNote γ) : Prop :=
  Q (.error .panic) m ∧ ∀ e, Q (.ok (writeError e)) m

theorem served_orWriteError {Q : Except Err Response → TxNote γ → Prop} (p : HttpProg α)
    (k : α → HttpProg Response) (hp : ServedBy R (fun r m => match r with
      | .ok a => ServedBy R Q (k a) m
      | .error _ => Refusing Q m) p n) : ServedBy R Q (orWriteError p k) n := by
  refine served_then p _ (served_mono (fun r m hr => ?_) p hp)
  cases r with
  | ok a => exact hr
  | error e =>
      cases e with
      | panic => exact served_fail _ hr.1
      | _ => exact served_ret _ (hr.2 _)

end Following

/-- A program of a service, part by part. -/
theorem served_service {γ α β : Type} {R : TxRules γ} {n : TxNote γ}
    {Q : Except Err β → TxNote γ → Prop} (x : Prog α) (f : α → Prog β)
    (hx : ServedBy R (fun r m => match r with
      | .ok a => ServedBy R Q (onDB (f a)) m
      | .error e => Q (.error e) m) (onDB x) n) : ServedBy R Q (onDB (x >>= f)) n := by
  rw [onDB_bind]
  exact served_bind _ _ hx

/-- A program of a service each of whose operations keeps a property of the
    notes. -/
theorem served_uses {γ α : Type} {R : TxRules γ} {P : Call → Prop} {I : TxNote γ → Prop}
    (hstep : ∀ c n, P c → I n → ServedBy R (fun _ m => I m) (Proc.call (HttpOp.db c)) n)
    (p : Prog α) (hp : Proc.Uses P p) (n : TxNote γ) (hn : I n) :
    ServedBy R (fun _ m => I m) (onDB p) n := by
  induction p generalizing n with
  | ret a => exact served_ret a hn
  | fail e => exact served_fail e hn
  | act c k ih =>
      change ServedBy R _ (Proc.act (HttpOp.db c) (fun r => onDB (k r))) n
      rw [Proc.act_eq_attempt]
      refine served_then _ _ (served_mono (fun r m hm => ?_) _ (hstep c n hp.1 hn))
      exact ih r (hp.2 r) m hm

/-! ## Routes -/

/-- An operation that is permitted at the start of a request and leaves it
    there. -/
def TxRules.Idles {γ : Type} (R : TxRules γ) (Start : TxNote γ → Prop) (op : TxOp) : Prop :=
  ∀ n, Start n → R.permits op n ∧ ∀ r, Start (R.discipline.after op r n)

/-- So are those of the middleware. -/
structure TxRules.Opens {γ : Type} (R : TxRules γ) (Start : TxNote γ → Prop) : Prop where
  user : ∀ u, R.Idles Start (.pool ⟨none, .upsertUser u⟩)
  project : ∀ slug, R.Idles Start (.pool ⟨none, .projectBySlug slug⟩)
  begin : R.Idles Start .begin
  context : ∀ t id, R.Idles Start (.setTenantContext t id)
  rollback : ∀ t, R.Idles Start (.rollback t)

/-- The middleware can end the transaction as the answer asks, and then rests
    in `E`. -/
def TxRules.Closes {γ : Type} (R : TxRules γ) (E : TxNote γ → Prop) (t : Nat) :
    Except Err Response → TxNote γ → Prop
  | .error _, m => m.tx = some t ∧ E m
  | .ok resp, m => m.tx = some t ∧
      if resp.status ≥ 400 then
        R.permits (.rollback t) m ∧ ∀ r, E (R.discipline.after (.rollback t) r m)
      else R.permits (.commit t) m ∧ ∀ r, E (R.discipline.after (.commit t) r m)

section Routes

variable {γ : Type} {R : TxRules γ} {Start E : TxNote γ → Prop}

/-- A handler in the transaction of its tenant. -/
theorem served_tenantRLS (hR : R.Opens Start) (hE : ∀ n, Start n → E n) (slug : String)
    (hslug : slug ≠ "") (next : Option String → HttpProg Response) (n : TxNote γ) (hn : Start n)
    (htx : n.tx = none)
    (hnext : ∀ projectID t m, Start m → m.tx = some t →
      ServedBy R (R.Closes E t) (next (some projectID)) m) :
    ServedBy R (fun _ m => E m) (tenantRLS slug next) n := by
  unfold tenantRLS
  rw [if_neg hslug]
  refine served_orWriteError _ _ (served_pool _ (.inl htx) (hR.project slug n hn).1 (fun r => ?_))
  have h₁ := (hR.project slug n hn).2 r
  have htx₁ : (R.discipline.after (.pool ⟨none, .projectBySlug slug⟩) r n).tx = none := htx
  -- Only two facts about the note are needed from here: where it stands, and its
  -- transaction.
  generalize R.discipline.after (.pool ⟨none, .projectBySlug slug⟩) r n = n₁ at h₁ htx₁
  cases r with
  | error e => exact ⟨hE _ h₁, fun _ => hE _ h₁⟩
  | ok proj =>
      have hbegin := hR.begin n₁ h₁
      refine served_then _ _ (served_begin htx₁ hbegin.1 (fun t => ?_) (fun e => ?_))
      · have h₂ := hbegin.2 (.ok t)
        have htx₂ : (R.discipline.after .begin (.ok t) n₁).tx = some t := rfl
        generalize R.discipline.after .begin (.ok t) n₁ = n₂ at h₂ htx₂
        have hset := hR.context t proj.id n₂ h₂
        refine served_then _ _ (served_context t proj.id htx₂ hset.1 (fun r => ?_))
        have h₃ := hset.2 r
        have htx₃ : (R.discipline.after (.setTenantContext t proj.id) r n₂).tx = some t := htx₂
        generalize R.discipline.after (.setTenantContext t proj.id) r n₂ = n₃ at h₃ htx₃
        cases r with
        | error e =>
            have hback := hR.rollback t n₃ h₃
            refine served_bind _ _ (served_rollback t htx₃ hback.1 (fun r => ?_))
            cases r with
            | ok _ => exact served_ret _ (hE _ (hback.2 (.ok ())))
            | error e => exact hE _ (hback.2 (.error e))
        | ok _ =>
            refine served_bind _ _ (served_mono (fun r m hr => ?_) _ (hnext proj.id t n₃ h₃ htx₃))
            cases r with
            | error e => exact hr.2
            | ok resp =>
                rcases hr with ⟨htx₄, hr⟩
                -- A status of 400 or above rolls back, anything else commits.
                by_cases hbad : resp.status ≥ 400
                · rw [if_pos hbad] at hr
                  simp only [if_pos hbad]
                  refine served_bind _ _ (served_rollback t htx₄ hr.1 (fun r => ?_))
                  cases r with
                  | ok _ => exact served_ret _ (hr.2 (.ok ()))
                  | error e => exact hr.2 (.error e)
                · rw [if_neg hbad] at hr
                  simp only [if_neg hbad]
                  exact served_then _ _ (served_commit t htx₄ hr.1 (fun r => served_ret _ (hr.2 r)))
      · exact served_ret _ (hE _ (hbegin.2 (.error e)))

/-- The same behind the authentication. -/
theorem served_route (hR : R.Opens Start) (hE : ∀ n, Start n → E n) (h : HttpHost)
    (authorization slug : String) (hslug : slug ≠ "")
    (next : AuthContext → Option String → HttpProg Response) (n : TxNote γ) (hn : Start n)
    (htx : n.tx = none)
    (hnext : ∀ ac projectID t m, Start m → m.tx = some t →
      ServedBy R (R.Closes E t) (next ac (some projectID)) m) :
    ServedBy R (fun _ m => E m)
      (requireBearer h authorization (fun ac => tenantRLS slug (next ac))) n := by
  unfold requireBearer
  cases bearerToken authorization with
  | none => exact served_ret _ (hE n hn)
  | some token =>
      cases hverify : h.verify token with
      | error e =>
          simp only [hverify]
          exact served_ret _ (hE n hn)
      | ok out =>
          simp only [hverify]
          have huser := hR.user out.1 n hn
          refine served_then _ _ (served_pool _ (.inl htx) huser.1 (fun r => ?_))
          exact served_tenantRLS hR hE slug hslug (next _) _ (huser.2 r) htx (hnext _)

end Routes

/-! ## Tool calls -/

/-- A program of a service on the pool. -/
def onPool {α : Type} (p : Prog α) : TxProg α := Proc.lift TxOp.pool (fun _ r => r) p

/-- A tool call that catches the failure of a service. -/
theorem atPool_then {α β : Type} (p : Prog α) (K : Except Err α → McpProg β) :
    atPool ((db p).attempt >>= K) = (onPool p).attempt >>= fun r => atPool (K r) := by
  induction p with
  | ret a => rfl
  | fail e => rfl
  | act c k ih => exact congrArg (Proc.act (TxOp.pool c)) (funext ih)

/-- Without a transaction a program of a service obeys the same rules in a tool
    call as in a request. -/
theorem obeys_onPool {γ α : Type} {R : TxRules γ} {Q : Except Err α → TxNote γ → Prop}
    (p : Prog α) (n : TxNote γ) (htx : n.tx = none) (hp : ServedBy R Q (onDB p) n) :
    Proc.Obeys R.discipline Q (onPool p) n := by
  unfold ServedBy at hp
  rw [htx] at hp
  induction p generalizing n with
  | ret a =>
      rcases hp with ⟨x, hx, hQ⟩
      rw [← (Prod.mk.inj (Except.ok.inj hx)).1] at hQ
      exact hQ
  | fail e =>
      rcases hp with ⟨x, hx, hQ⟩
      rw [← (Prod.mk.inj (Except.ok.inj hx)).1] at hQ
      exact hQ
  | act c k ih => exact ⟨hp.1, fun r => ih r _ htx (hp.2 r)⟩

theorem mcp_call (c : Call) : Proc.call (McpOp.db c) = db (Proc.call c) := by
  refine congrArg (Proc.act (McpOp.db c)) (funext (fun r => ?_))
  exact (Proc.lift_ofExcept _ _ r).symm

theorem atPool_bind {α β : Type} (x : McpProg α) (f : α → McpProg β) :
    atPool (x >>= f) = atPool x >>= fun a => atPool (f a) := by
  induction x with
  | ret a => rfl
  | fail e => rfl
  | act op k ih =>
      cases op with
      | db c => exact congrArg (Proc.act (TxOp.pool c)) (funext ih)
      | _ => rfl

/-! ## What the writes of a transaction leave alone -/

/-- A table that no entry writes. -/
theorem applied_same (h : Host) (entries : List Entry) (t : Tbl)
    (hentries : ∀ e ∈ entries, t ∉ e.call.op.writes) (w : World) :
    w.Same { w with store := applied h entries w.store } t := by
  induction entries generalizing w with
  | nil => exact w.same_refl t
  | cons e rest ih =>
      have hfirst : ({ e.world with store := w.store } : World).Same
          (exec h e.call { e.world with store := w.store }).2 t :=
        exec_frame h e.call _ t (hentries e List.mem_cons_self)
      have hrest := ih (fun e' he' => hentries e' (List.mem_cons_of_mem _ he'))
        { w with store := e.apply h w.store }
      cases t <;> first
        | exact Eq.trans hrest hfirst
        | exact hrest

end Cuttlegate
