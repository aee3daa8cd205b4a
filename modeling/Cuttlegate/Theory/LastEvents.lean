import Cuttlegate.Theory.ToggleEvents

/-!
# The Last Event

Whether the last event about a row says what is stored, asked of every
interleaving of any number of toggles.

A request of the HTTP route holds the lock of the row from its write to its
commit, and its event is in between, so two such requests cannot cross. A tool
call holds nothing between its write and its event, and another toggle can slip
in there.

## Main definitions

* `Server.LockedBy`, `RowLocks`: Row locks.
* `PublishesLatest`: The condition.
* `lastEvent`: The last event about a row.

## Theorems

* `last_event_stored`: When tool calls publish what is stored, the last event is
  right.
* `last_event_stale`: In general it is not.
-/

namespace Cuttlegate

/-- The event of an entry of the log. -/
def Logged.event : Logged → Option FlagStateChangedEvent
  | .published event => some event
  | .written _ => none

/-- The last event about a flag in an environment. -/
def lastEvent (st : Store) (f e : String) (log : List Logged) : Option FlagStateChangedEvent :=
  ((log.filterMap Logged.event).filter (fun event => st.rowOf event == some (f, e))).getLast?

/-- The transaction has written the row and has not ended. -/
def Server.LockedBy (s : Server) (f e : String) (t : Nat) : Prop :=
  t < s.begun ∧ ∃ entry ∈ s.entries t, ∃ b, entry.call.op = .setEnabled f e b

/-- Toggles that succeed, on a database with row locks: a write waits until no
    other transaction has written the row, commits succeed and no event is
    refused. -/
structure RowLocks (h : TxHost) (s : Server) (op : TxOp) : Prop where
  pool_waits : ∀ tenant f e b, op = .pool ⟨tenant, .setEnabled f e b⟩ → ∀ t, ¬ s.LockedBy f e t
  tx_waits : ∀ t tenant f e b, op = .within t ⟨tenant, .setEnabled f e b⟩ →
    ∀ t', t' ≠ t → ¬ s.LockedBy f e t'
  commits : ∀ t, op = .commit t → h.commits s.world.calls = true
  publishes : ∀ tenant event, op = .pool ⟨tenant, .publish event⟩ →
    h.host.fails s.world.calls = false

/-- When a tool call publishes its event, the row still has the value it wrote
    and no transaction is about to change it. -/
def PublishesLatest (s : Server) (op : TxOp) : Prop :=
  ∀ event, op = .pool ⟨none, .publish event⟩ → ∀ f e, s.world.store.rowOf event = some (f, e) →
    s.world.store.enabledAt f e = some event.enabled ∧ ∀ t, ¬ s.LockedBy f e t

/-- The last event about the row says what is stored. -/
def Agrees (start : Store) (s : Server) (f e : String) : Prop :=
  ∀ event, lastEvent start f e s.log = some event → s.world.store.enabledAt f e = some event.enabled

/-- The toggle holds the lock of the row. -/
def TxNote.Holds (n : TxNote ToggleNote) (f e : String) : Prop :=
  n.tx ≠ none ∧ ∃ b, n.own.phase = .wrote f e b ∨ n.own.phase = .announced f e b

/-- The last event about a row says what is stored, or a toggle of the row is
    not finished: a tool call that has yet to publish, or a request that has yet
    to commit what it has announced. -/
structure LastInv (h : TxHost) (start : Store) (s : Server) (note : Nat → TxNote ToggleNote) :
    Prop where
  base : TogglesInv h start s note
  alone : ∀ i j f e, (note i).Holds f e → (note j).Holds f e → i = j
  said : ∀ i f e b, (note i).own.phase = .announced f e b → (note i).tx ≠ none →
    ∃ event, lastEvent start f e s.log = some event ∧ event.enabled = b
  agrees : ∀ f e, Agrees start s f e ∨
    (∃ i b, (note i).own.phase = .wrote f e b ∧ (note i).tx = none) ∨
    ∃ i b, (note i).own.phase = .announced f e b ∧ (note i).tx ≠ none

theorem lastEvent_append (st : Store) (f e : String) (log : List Logged) (x : Logged) :
    lastEvent st f e (log ++ [x]) = match x with
      | .published event =>
          if st.rowOf event = some (f, e) then some event else lastEvent st f e log
      | .written _ => lastEvent st f e log := by
  unfold lastEvent
  rw [List.filterMap_append, List.filter_append]
  cases x with
  | written op =>
      rw [show [Logged.written op].filterMap Logged.event = [] from rfl, List.filter_nil,
        List.append_nil]
  | published event =>
      rw [show [Logged.published event].filterMap Logged.event = [event] from rfl]
      by_cases hrow : st.rowOf event = some (f, e)
      · rw [List.filter_cons_of_pos (by simp [hrow]), List.filter_nil, List.getLast?_concat]
        simp only [hrow, if_true]
      · rw [List.filter_cons_of_neg (by simp [hrow]), List.filter_nil, List.append_nil]
        simp only [hrow, if_false]

/-- A toggle that holds the lock shows in its transaction. -/
theorem holds_locked (h : TxHost) (start : Store) (s : Server) (note : Nat → TxNote ToggleNote)
    (hJ : TogglesInv h start s note) (i : Nat) (f e : String) (hi : (note i).Holds f e) :
    ∃ t, (note i).tx = some t ∧ s.LockedBy f e t := by
  rcases hi with ⟨htx, b, hphase⟩
  rcases Option.ne_none_iff_exists'.mp htx with ⟨t, ht⟩
  rcases hJ.written i f e b hphase htx with ⟨_, tenant, hwrites⟩
  have hmap := hJ.tracked.writes i t ht
  rw [hwrites] at hmap
  rcases List.map_eq_singleton_iff.mp hmap with ⟨entry, hentries, hcall⟩
  refine ⟨t, ht, hJ.tracked.begun i t ht, entry, ?_, b, ?_⟩
  · rw [hentries]
    exact List.mem_singleton_self _
  · rw [hcall]

section LastEvent

variable (h : TxHost) (start : Store) (s s' : Server) (note : Nat → TxNote ToggleNote) (i : Nat)
  (n : TxNote ToggleNote)

/-- What a toggle is about to do, another one is not in the way of. -/
theorem holds_update (hJ : ∀ i j f e, (note i).Holds f e → (note j).Holds f e → i = j)
    (hn : ∀ f e, n.Holds f e → (note i).Holds f e ∨ ∀ j, j ≠ i → ¬ (note j).Holds f e) :
    ∀ j k f e, (Function.update note i n j).Holds f e → (Function.update note i n k).Holds f e →
      j = k := by
  -- A row the thread comes to hold is one it held before, or one nobody else held.
  have hother : ∀ j f e, j ≠ i → n.Holds f e → ¬ (note j).Holds f e := by
    intro j f e hji hholds hj
    rcases hn f e hholds with hi | hfree
    · exact hji (hJ j i f e hj hi)
    · exact hfree j hji hj
  intro j k f e hj hk
  by_cases hji : j = i
  · by_cases hki : k = i
    · rw [hji, hki]
    · rw [hji, Function.update_self] at hj
      rw [Function.update_of_ne hki] at hk
      exact absurd hk (hother k f e hki hj)
  · rw [Function.update_of_ne hji] at hj
    by_cases hki : k = i
    · rw [hki, Function.update_self] at hk
      exact absurd hj (hother j f e hji hk)
    · rw [Function.update_of_ne hki] at hk
      exact hJ j k f e hj hk

/-- A step that shows neither in the rows nor in the events. -/
theorem LastInv.unseen (hJ : LastInv h start s note)
    (hbase : TogglesInv h start s' (Function.update note i n))
    (hevents : ∀ f e, lastEvent start f e s'.log = lastEvent start f e s.log)
    (hrows : ∀ f e, s'.world.store.enabledAt f e = s.world.store.enabledAt f e)
    (hwrote : ∀ f e b, (note i).own.phase = .wrote f e b → (note i).tx = none →
      n.own.phase = .wrote f e b ∧ n.tx = none)
    (hsaid : ∀ f e b, (n.own.phase = .announced f e b ∧ n.tx ≠ none) ↔
      ((note i).own.phase = .announced f e b ∧ (note i).tx ≠ none))
    (hn : ∀ f e, n.Holds f e → (note i).Holds f e ∨ ∀ j, j ≠ i → ¬ (note j).Holds f e) :
    LastInv h start s' (Function.update note i n) := by
  refine ⟨hbase, holds_update note i n hJ.alone hn, fun j f e b hj htx => ?_, fun f e => ?_⟩
  · rw [hevents]
    by_cases hji : j = i
    · rw [hji, Function.update_self] at hj htx
      rcases (hsaid f e b).mp ⟨hj, htx⟩ with ⟨hj', htx'⟩
      exact hJ.said i f e b hj' htx'
    · rw [Function.update_of_ne hji] at hj htx
      exact hJ.said j f e b hj htx
  -- Events and rows are as before; the threads excused by the invariant are excused still.
  · unfold Agrees
    rw [hevents, hrows]
    rcases hJ.agrees f e with hagrees | ⟨j, b, hj, htx⟩ | ⟨j, b, hj, htx⟩
    · exact .inl hagrees
    · refine .inr (.inl ⟨j, b, ?_⟩)
      by_cases hji : j = i
      · rw [hji] at hj htx ⊢
        rw [Function.update_self]
        exact hwrote f e b hj htx
      · rw [Function.update_of_ne hji]
        exact ⟨hj, htx⟩
    · refine .inr (.inr ⟨j, b, ?_⟩)
      by_cases hji : j = i
      · rw [hji] at hj htx ⊢
        rw [Function.update_self]
        exact (hsaid f e b).mpr ⟨hj, htx⟩
      · rw [Function.update_of_ne hji]
        exact ⟨hj, htx⟩

/-- A step about one row. What it makes true of this row is enough, if the
    other rows and their events are as they were. -/
theorem LastInv.seen (hJ : LastInv h start s note) (f e : String)
    (hbase : TogglesInv h start s' (Function.update note i n))
    (hevents : ∀ f' e', ¬ (f' = f ∧ e' = e) →
      lastEvent start f' e' s'.log = lastEvent start f' e' s.log)
    (hrows : ∀ f' e', ¬ (f' = f ∧ e' = e) →
      s'.world.store.enabledAt f' e' = s.world.store.enabledAt f' e')
    (hphase : ∀ f' e' b, (note i).own.phase = .wrote f' e' b ∨
      (note i).own.phase = .announced f' e' b → f' = f ∧ e' = e)
    (hphase' : ∀ f' e' b, n.own.phase = .wrote f' e' b ∨ n.own.phase = .announced f' e' b →
      f' = f ∧ e' = e)
    (hn : ∀ f e, n.Holds f e → (note i).Holds f e ∨ ∀ j, j ≠ i → ¬ (note j).Holds f e)
    (hsaid : ∀ j b, (Function.update note i n j).own.phase = .announced f e b →
      (Function.update note i n j).tx ≠ none →
      ∃ event, lastEvent start f e s'.log = some event ∧ event.enabled = b)
    (hagrees : Agrees start s' f e ∨
      (∃ b, n.own.phase = .wrote f e b ∧ n.tx = none) ∨
      ∃ b, n.own.phase = .announced f e b ∧ n.tx ≠ none) :
    LastInv h start s' (Function.update note i n) := by
  refine ⟨hbase, holds_update note i n hJ.alone hn, fun j f' e' b hj htx => ?_, fun f' e' => ?_⟩
  -- The row the step is about has its own hypotheses; every other is left alone.
  · by_cases hrow : f' = f ∧ e' = e
    · rw [hrow.1, hrow.2] at hj ⊢
      exact hsaid j b hj htx
    · rw [hevents f' e' hrow]
      by_cases hji : j = i
      · rw [hji, Function.update_self] at hj
        exact absurd (hphase' f' e' b (.inr hj)) hrow
      · rw [Function.update_of_ne hji] at hj htx
        exact hJ.said j f' e' b hj htx
  · by_cases hrow : f' = f ∧ e' = e
    · rw [hrow.1, hrow.2]
      rcases hagrees with hagrees | ⟨b, hb⟩ | ⟨b, hb⟩
      · exact .inl hagrees
      · exact .inr (.inl ⟨i, b, by rw [Function.update_self]; exact hb⟩)
      · exact .inr (.inr ⟨i, b, by rw [Function.update_self]; exact hb⟩)
    · unfold Agrees
      rw [hevents f' e' hrow, hrows f' e' hrow]
      -- A thread that excuses another row is not the one that stepped.
      rcases hJ.agrees f' e' with hold | ⟨j, b, hj, htx⟩ | ⟨j, b, hj, htx⟩
      · exact .inl hold
      · have hji : j ≠ i := by
          rintro rfl
          exact hrow (hphase f' e' b (.inl hj))
        exact .inr (.inl ⟨j, b, by rw [Function.update_of_ne hji]; exact ⟨hj, htx⟩⟩)
      · have hji : j ≠ i := by
          rintro rfl
          exact hrow (hphase f' e' b (.inr hj))
        exact .inr (.inr ⟨j, b, by rw [Function.update_of_ne hji]; exact ⟨hj, htx⟩⟩)

/-- Nobody else holds the lock of a row that is free. -/
theorem not_holds (hJ : TogglesInv h start s note) (f e : String) (hfree : ∀ t, ¬ s.LockedBy f e t)
    (j : Nat) : ¬ (note j).Holds f e := by
  intro hj
  rcases holds_locked h start s note hJ j f e hj with ⟨t, _, hlocked⟩
  exact hfree t hlocked

/-- A toggle that has written is busy with the row it wrote. -/
theorem Phase.row_of_wrote (p : Phase) (f e : String) (b : Bool) (hp : p = .wrote f e b)
    (f' e' : String) (b' : Bool) (hcase : p = .wrote f' e' b' ∨ p = .announced f' e' b') :
    f' = f ∧ e' = e := by
  rw [hp] at hcase
  rcases hcase with hcase | hcase
  · rw [Phase.wrote.injEq] at hcase
    exact ⟨hcase.1.symm, hcase.2.1.symm⟩
  · exact (nomatch hcase)

/-- One that has announced its write is, too. -/
theorem Phase.row_of_announced (p : Phase) (f e : String) (b : Bool) (hp : p = .announced f e b)
    (f' e' : String) (b' : Bool) (hcase : p = .wrote f' e' b' ∨ p = .announced f' e' b') :
    f' = f ∧ e' = e := by
  rw [hp] at hcase
  rcases hcase with hcase | hcase
  · exact (nomatch hcase)
  · rw [Phase.announced.injEq] at hcase
    exact ⟨hcase.1.symm, hcase.2.1.symm⟩

/-- An idle one is busy with no row. -/
theorem Phase.row_of_idle (p : Phase) (hp : p = .idle) (f e : String) (b : Bool) :
    ¬ (p = .wrote f e b ∨ p = .announced f e b) := by
  rw [hp]
  rintro (hcase | hcase) <;> exact (nomatch hcase)

/-- A write on the pool waits for the lock of its row, so nobody has announced
    a value of the row that is not committed. -/
theorem LastInv.step_poolWrite (hJ : LastInv h start s note)
    (hbase : TogglesInv h start s' (Function.update note i n)) (f e : String) (b : Bool)
    (hfree : ∀ t, ¬ s.LockedBy f e t) (hidle : (note i).own.phase = .idle)
    (hrows : s.world.store.After s'.world.store f e b)
    (hlog : s'.log = s.log ++ [.written (.setEnabled f e b)]) (hphase : n.own.phase = .wrote f e b)
    (htx : n.tx = none) : LastInv h start s' (Function.update note i n) := by
  refine hJ.seen h start s s' note i n f e hbase (fun f' e' _ => ?_)
    (fun f' e' hrow => (hrows.1 f' e').trans (if_neg hrow))
    (fun f' e' b' hcase => absurd hcase (Phase.row_of_idle _ hidle f' e' b'))
    (Phase.row_of_wrote _ f e b hphase) (fun f' e' hholds => absurd htx hholds.1)
    (fun j b' hj hheld => ?_) (.inr (.inl ⟨b, hphase, htx⟩))
  · rw [hlog, lastEvent_append]
  · -- Whoever has announced a value of this row holds its lock.
    by_cases hji : j = i
    · rw [hji, Function.update_self] at hj
      exact (nomatch hphase.symm.trans hj)
    · rw [Function.update_of_ne hji] at hj hheld
      exact absurd ⟨hheld, b', .inr hj⟩ (not_holds h start s note hJ.base f e hfree j)

/-- A write in a transaction shows nowhere yet, but takes the lock of its
    row. -/
theorem LastInv.step_txWrite (hJ : LastInv h start s note)
    (hbase : TogglesInv h start s' (Function.update note i n)) (t : Nat) (f e : String) (b : Bool)
    (hwaits : ∀ t', t' ≠ t → ¬ s.LockedBy f e t') (hidle : (note i).own.phase = .idle)
    (htx : (note i).tx = some t) (hstates : s'.world.store.states = s.world.store.states)
    (hlog : s'.log = s.log) (hphase : n.own.phase = .wrote f e b) :
    LastInv h start s' (Function.update note i n) := by
  refine hJ.unseen h start s s' note i n hbase (fun f' e' => by rw [hlog])
    (fun f' e' => enabledAt_congr _ _ hstates f' e')
    (fun f' e' b' hwrote => (nomatch hidle.symm.trans hwrote))
    (fun f' e' b' => ⟨fun hsaid => (nomatch hphase.symm.trans hsaid.1),
      fun hsaid => (nomatch hidle.symm.trans hsaid.1)⟩)
    (fun f' e' hholds => .inr (fun j hji hj => ?_))
  rcases hholds with ⟨_, b', hcase⟩
  rcases Phase.row_of_wrote _ f e b hphase f' e' b' hcase with ⟨rfl, rfl⟩
  -- Whoever else holds the row is in another transaction, and the lock would make this one
  -- wait.
  rcases holds_locked h start s note hJ.base j _ _ hj with ⟨t', ht', hlocked⟩
  refine hwaits t' ?_ hlocked
  rintro rfl
  exact hji (hJ.base.tracked.alone j i t' ht' htx)

/-- A published event becomes the last one about its row. A tool call publishes
    what is stored; a request holds the lock until it has committed what it
    announces. -/
theorem LastInv.step_publish (hJ : LastInv h start s note)
    (hbase : TogglesInv h start s' (Function.update note i n)) (tenant : Option String)
    (event : FlagStateChangedEvent) (f e : String)
    (hlatest : tenant = none →
      s.world.store.enabledAt f e = some event.enabled ∧ ∀ t, ¬ s.LockedBy f e t)
    (hwrote : (note i).own.phase = .wrote f e event.enabled)
    (hrow : start.rowOf event = some (f, e)) (hplace : (note i).tx.isSome = tenant.isSome)
    (hstates : s'.world.store.states = s.world.store.states)
    (hlog : s'.log = s.log ++ [.published event])
    (hphase : n.own.phase = .announced f e event.enabled) (htx : n.tx = (note i).tx) :
    LastInv h start s' (Function.update note i n) := by
  have hlast : lastEvent start f e s'.log = some event := by
    rw [hlog, lastEvent_append]
    simp only [hrow, if_true]
  refine hJ.seen h start s s' note i n f e hbase (fun f' e' hother => ?_)
    (fun f' e' _ => enabledAt_congr _ _ hstates f' e')
    (Phase.row_of_wrote _ f e event.enabled hwrote)
    (Phase.row_of_announced _ f e event.enabled hphase) (fun f' e' hholds => .inl ?_)
    (fun j b' hj hheld => ?_) ?_
  · have hne : ¬ (start.rowOf event = some (f', e')) := by
      rw [hrow, Option.some.injEq, Prod.mk.injEq]
      exact fun heq => hother ⟨heq.1.symm, heq.2.symm⟩
    rw [hlog, lastEvent_append]
    simp only [hne, if_false]
  · rcases hholds with ⟨hheld, b', hcase⟩
    rcases Phase.row_of_announced _ f e event.enabled hphase f' e' b' hcase with ⟨rfl, rfl⟩
    rw [htx] at hheld
    exact ⟨hheld, _, .inl hwrote⟩
  · refine ⟨event, hlast, ?_⟩
    by_cases hji : j = i
    · rw [hji, Function.update_self, hphase, Phase.announced.injEq] at hj
      exact hj.2.2
    · -- Another request that has announced a value of the row holds its lock,
      -- which a tool call has found free and a request has itself.
      rw [Function.update_of_ne hji] at hj hheld
      have hholds : (note j).Holds f e := ⟨hheld, b', .inr hj⟩
      cases tenant with
      | none => exact absurd hholds (not_holds h start s note hJ.base f e (hlatest rfl).2 j)
      | some projectID =>
          have hmine : (note i).Holds f e :=
            ⟨Option.isSome_iff_ne_none.mp hplace, _, .inl hwrote⟩
          exact absurd (hJ.alone j i f e hholds hmine) hji
  · cases tenant with
    | none =>
        refine .inl (fun event' hevent' => ?_)
        rw [hlast, Option.some.injEq] at hevent'
        rw [← hevent', enabledAt_congr _ _ hstates]
        exact (hlatest rfl).1
    | some projectID =>
        refine .inr (.inr ⟨event.enabled, hphase, ?_⟩)
        rw [htx]
        exact Option.isSome_iff_ne_none.mp hplace

/-- A commit stores what the last event has said. -/
theorem LastInv.step_commit (hJ : LastInv h start s note)
    (hbase : TogglesInv h start s' (Function.update note i n)) (t : Nat) (f e : String) (b : Bool)
    (hdone : (note i).own.phase = .announced f e b) (htx : (note i).tx = some t)
    (hrows : s.world.store.After s'.world.store f e b)
    (hlog : s'.log = s.log ++ [.written (.setEnabled f e b)]) (hphase : n.own.phase = .idle)
    (htx' : n.tx = none) : LastInv h start s' (Function.update note i n) := by
  have hheld : (note i).tx ≠ none := by
    rw [htx]
    exact (nomatch ·)
  -- The last event about the row is the one this transaction announced.
  rcases hJ.said i f e b hdone hheld with ⟨event, hevent, hb⟩
  have hsame : ∀ f' e', lastEvent start f' e' s'.log = lastEvent start f' e' s.log := by
    intro f' e'
    rw [hlog, lastEvent_append]
  refine hJ.seen h start s s' note i n f e hbase (fun f' e' _ => hsame f' e')
    (fun f' e' hrow => (hrows.1 f' e').trans (if_neg hrow))
    (Phase.row_of_announced _ f e b hdone)
    (fun f' e' b' hcase => absurd hcase (Phase.row_of_idle _ hphase f' e' b'))
    (fun f' e' hholds => absurd htx' hholds.1) (fun j b' hj htxj => ?_)
    (.inl (fun event' hevent' => ?_))
  · by_cases hji : j = i
    · rw [hji, Function.update_self] at hj
      exact (nomatch hphase.symm.trans hj)
    · rw [Function.update_of_ne hji] at hj htxj
      -- No one else can have announced the row while this transaction held it.
      exact absurd (hJ.alone j i f e ⟨htxj, b', .inr hj⟩ ⟨hheld, b, .inr hdone⟩) hji
  · rw [hsame, hevent, Option.some.injEq] at hevent'
    rw [hrows.1, if_pos ⟨rfl, rfl⟩, ← hevent', hb]

theorem LastInv.step (hJ : LastInv h start s note) (op : TxOp) (hok : RowLocks h s op)
    (hlatest : PublishesLatest s op) (hop : toggleRules.discipline.permits op (note i)) :
    LastInv h start (txExec h op s).2
      (Function.update note i (toggleAfter (note i) op (txExec h op s).1)) := by
  have hstep := toggle_step h start s note hJ.base i op hop
  have hbase := hJ.base.step h start s note i op hop
  generalize (txExec h op s).2 = s' at hstep hbase
  generalize toggleAfter (note i) op (txExec h op s).1 = n at hstep hbase
  cases hstep with
  | quiet _ hstates hlog hphase htx =>
      -- Only an idle toggle can open or close a transaction here.
      have hsame : ∀ f e b, (note i).own.phase = .wrote f e b ∨
          (note i).own.phase = .announced f e b → n.tx = (note i).tx :=
        fun f e b hcase => htx.resolve_right (fun hidle => Phase.row_of_idle _ hidle f e b hcase)
      refine hJ.unseen h start s s' note i n hbase (fun f e => ?_)
        (fun f e => enabledAt_congr _ _ hstates f e) (fun f e b hwrote hnone => ?_)
        (fun f e b => ?_) (fun f e hholds => .inl ?_)
      · rcases hlog with hlog | ⟨op, hlog, _⟩
        · rw [hlog]
        · rw [hlog, lastEvent_append]
      · exact ⟨hphase.trans hwrote, (hsame f e b (.inl hwrote)).trans hnone⟩
      · rw [hphase]
        refine and_congr_right (fun hsaid => ?_)
        rw [hsame f e b (.inr hsaid)]
      · rcases hholds with ⟨hheld, b, hcase⟩
        rw [hphase] at hcase
        rw [hsame f e b hcase] at hheld
        exact ⟨hheld, b, hcase⟩
  | poolWrite f e b hidle _ hrows hlog hphase htx =>
      exact hJ.step_poolWrite h start s s' note i n hbase f e b
        (hok.pool_waits none f e b rfl) hidle
        hrows hlog hphase htx
  | txWrite t tenant f e b hidle htx hstates _ hlog hphase =>
      exact hJ.step_txWrite h start s s' note i n hbase t f e b (hok.tx_waits t tenant f e b rfl)
        hidle htx hstates hlog hphase
  | publish tenant event f e hwrote hrow hplace hstates hlog hphase htx =>
      have hlog' : s'.log = s.log ++ [.published event] := by
        refine hlog.resolve_right (fun hfail => ?_)
        exact absurd hfail.2 (by rw [hok.publishes tenant event rfl]; exact Bool.false_ne_true)
      refine hJ.step_publish h start s s' note i n hbase tenant event f e (fun htenant => ?_) hwrote
        hrow hplace hstates hlog' hphase htx
      rw [htenant] at hlatest
      exact hlatest event rfl f e ((rowOf_fixed start _ hJ.base.fixed event).trans hrow)
  | commit t f e b hdone htx hrows hlog hphase htx' =>
      exact hJ.step_commit h start s s' note i n hbase t f e b hdone htx hrows hlog hphase htx'
  | ended _ t htx hwhy hstates hlog hphase htx' =>
      -- No commit fails, so what ends without one has not written anything.
      have hidle : (note i).own.phase = .idle := by
        refine hwhy.resolve_right (fun hfail => ?_)
        exact absurd hfail.2 (by rw [hok.commits t hfail.1]; exact (nomatch ·))
      exact hJ.unseen h start s s' note i n hbase (fun f e => by rw [hlog])
        (fun f e => enabledAt_congr _ _ hstates f e)
        (fun f e b hwrote => (nomatch hidle.symm.trans hwrote))
        (fun f e b => ⟨fun hsaid => absurd htx' hsaid.2,
          fun hsaid => (nomatch hidle.symm.trans hsaid.1)⟩)
        (fun f e hholds => absurd htx' hholds.1)

end LastEvent

/-- In every interleaving of toggles on a database with row locks in which tool
    calls publish what is still stored, the last event about a row says what is
    stored there once all toggles are done. -/
theorem last_event_stored (h : TxHost) (w : World) (tr : List (Nat × TxOp))
    (P : Pool Err TxOp TxOp.Ret Server)
    (hrun : Pool.RunWhile (txExec h) (toggleThread h)
      (fun _ s _ op => RowLocks h s op ∧ PublishesLatest s op) ⟨{ world := w }, []⟩ tr P)
    (hdone : ∀ p ∈ P.threads, Proc.Done p) (f e : String) (event : FlagStateChangedEvent)
    (hlast : lastEvent P.shared.world.store f e P.shared.log = some event) :
    P.shared.world.store.enabledAt f e = some event.enabled := by
  have hfirst : LastInv h w.store { world := w } (fun _ => toggleBlank) := by
    refine ⟨togglesInv_start h w, fun i j f e hi => absurd rfl hi.1, fun i f e b hi => (nomatch hi),
      fun f e => .inl (fun event hevent => (nomatch hevent))⟩
  rcases Pool.runWhile_rests toggleRules.discipline toggleBlank ToggleDone
    (fun _ s note => LastInv h w.store s note) (fun p hp => toggleThread_obeys h p hp)
    (fun tr s note i op hJ hok hop => hJ.step h w.store s note i op hok.1 hok.2 hop)
    { world := w } hfirst tr P hrun with ⟨note, hJ, hlater, hrest⟩
  -- Every request is done, so no thread is left between its write and its event.
  have hall : ∀ i, ToggleDone (note i) := by
    intro i
    cases hthread : P.threads[i]? with
    | none =>
        rw [hlater i (List.getElem?_eq_none_iff.mp hthread)]
        trivial
    | some p => exact hrest i p hthread (hdone p (List.mem_of_getElem? hthread))
  -- Slugs and keys do not change in a run, so the event is about the same row throughout.
  have hsame : lastEvent w.store f e P.shared.log = some event := by
    unfold lastEvent at hlast ⊢
    simp only [rowOf_fixed w.store _ hJ.base.fixed] at hlast
    exact hlast
  rcases hJ.agrees f e with hagrees | ⟨i, b, hi, _⟩ | ⟨i, b, hi, htx⟩
  · exact hagrees event hsame
  · have hrested := hall i
    unfold ToggleDone at hrested
    rw [hi] at hrested
    exact hrested.elim
  · have hrested := hall i
    unfold ToggleDone at hrested
    rw [hi] at hrested
    exact absurd hrested htx

/-- Whether a transaction other than `own` has written the row. -/
def Server.locked (s : Server) (f e : String) (own : Option Nat) : Bool :=
  (List.range s.begun).any (fun t => own != some t && (s.entries t).any (fun entry =>
    match entry.call.op with
    | .setEnabled f' e' _ => f' == f && e' == e
    | _ => false))

theorem locked_sound (s : Server) (f e : String) (own : Option Nat)
    (htest : s.locked f e own = false) (t : Nat) (ht : own ≠ some t) : ¬ s.LockedBy f e t := by
  rintro ⟨hbegun, entry, hentry, b, hop⟩
  rw [← Bool.not_eq_true] at htest
  refine htest (List.any_eq_true.mpr ⟨t, List.mem_range.mpr hbegun, ?_⟩)
  rw [Bool.and_eq_true]
  refine ⟨bne_iff_ne.mpr ht, List.any_eq_true.mpr ⟨entry, hentry, ?_⟩⟩
  simp [hop]

/-- The conditions as tests. -/
def rowLocks (h : TxHost) (s : Server) : TxOp → Bool
  | .pool ⟨_, .setEnabled f e _⟩ => !s.locked f e none
  | .within t ⟨_, .setEnabled f e _⟩ => !s.locked f e (some t)
  | .commit _ => h.commits s.world.calls
  | .pool ⟨_, .publish _⟩ => !h.host.fails s.world.calls
  | _ => true

theorem rowLocks_sound (h : TxHost) (s : Server) (op : TxOp) (htest : rowLocks h s op = true) :
    RowLocks h s op := by
  refine ⟨?_, ?_, ?_, ?_⟩
  · rintro tenant f e b rfl t
    exact locked_sound s f e none (by simpa [rowLocks] using htest) t (nomatch ·)
  · rintro t tenant f e b rfl t' hne
    refine locked_sound s f e (some t) (by simpa [rowLocks] using htest) t' (fun heq => hne ?_)
    exact (Option.some.inj heq).symm
  · rintro t rfl
    exact htest
  · rintro tenant event rfl
    simpa [rowLocks] using htest

def publishesLatest (s : Server) : TxOp → Bool
  | .pool ⟨none, .publish event⟩ =>
      (s.world.store.rowOf event).all (fun row =>
        s.world.store.enabledAt row.1 row.2 == some event.enabled && !s.locked row.1 row.2 none)
  | _ => true

theorem publishesLatest_sound (s : Server) (op : TxOp) (htest : publishesLatest s op = true) :
    PublishesLatest s op := by
  rintro event rfl f e hrow
  simp only [publishesLatest, hrow, Option.all_some, Bool.and_eq_true, beq_iff_eq,
    Bool.not_eq_true'] at htest
  exact ⟨htest.1, fun t => locked_sound s f e none htest.2 t (nomatch ·)⟩

/-- A request switches the flag on and a tool call, which had looked the flag up
    in the meantime, switches it off. -/
def onAndOff : List Nat :=
  List.replicate 7 0 ++ List.replicate 3 1 ++ List.replicate 7 0 ++ List.replicate 6 1

theorem last_event_stored_onAndOff :
    lastEvent toggleShop.store "f1" "e1" (Pool.follow (txExec (toggleHost true))
        ⟨{ world := toggleShop }, [toggleByHttp true true, toggleByTool false]⟩ onAndOff).shared.log =
        some ⟨"shop", "prod", "dark", false, 18⟩ ∧
      (Pool.follow (txExec (toggleHost true))
        ⟨{ world := toggleShop }, [toggleByHttp true true, toggleByTool false]⟩
        onAndOff).shared.world.store.enabledAt "f1" "e1" = some false := by
  have hspawn : Pool.RunWhile (txExec (toggleHost true)) (toggleThread (toggleHost true))
      (fun _ s _ op => RowLocks (toggleHost true) s op ∧ PublishesLatest s op)
      ⟨{ world := toggleShop }, []⟩ []
      ⟨{ world := toggleShop }, [toggleByHttp true true, toggleByTool false]⟩ :=
    Pool.RunWhile.spawn [] ⟨_, [_]⟩ _ (Pool.RunWhile.spawn [] ⟨_, []⟩ _ Pool.RunWhile.start
      (toggleByHttp_thread true true)) (toggleByTool_thread true false)
  rcases Pool.runWhile_follow _
    (fun _ s _ op => rowLocks (toggleHost true) s op && publishesLatest s op)
    (fun _ s _ op htest => ⟨rowLocks_sound _ s op (Bool.and_eq_true_iff.mp htest).1,
      publishesLatest_sound s op (Bool.and_eq_true_iff.mp htest).2⟩) onAndOff _ _ hspawn
    (by decide +kernel) with ⟨tr, hrun⟩
  exact ⟨by decide +kernel, last_event_stored (toggleHost true) toggleShop tr _ hrun
    (by decide +kernel) "f1" "e1" ⟨"shop", "prod", "dark", false, 18⟩ (by decide +kernel)⟩

/-- One tool call switches the flag on, another switches it off and announces
    this, and only then the first announces that the flag is on. -/
theorem last_event_stale :
    ¬ ∀ (h : TxHost) (w : World) (tr : List (Nat × TxOp)) (P : Pool Err TxOp TxOp.Ret Server),
      Pool.RunWhile (txExec h) (toggleThread h) (fun _ s _ op => RowLocks h s op)
        ⟨{ world := w }, []⟩ tr P → (∀ p ∈ P.threads, Proc.Done p) →
      ∀ f e event, lastEvent P.shared.world.store f e P.shared.log = some event →
        P.shared.world.store.enabledAt f e = some event.enabled := by
  intro hclaim
  have hspawn : Pool.RunWhile (txExec (toggleHost true)) (toggleThread (toggleHost true))
      (fun _ s _ op => RowLocks (toggleHost true) s op) ⟨{ world := toggleShop }, []⟩ []
      ⟨{ world := toggleShop }, [toggleByTool true, toggleByTool false]⟩ :=
    Pool.RunWhile.spawn [] ⟨_, [_]⟩ _ (Pool.RunWhile.spawn [] ⟨_, []⟩ _ Pool.RunWhile.start
      (toggleByTool_thread true true)) (toggleByTool_thread true false)
  -- The first tool call writes, the second runs whole, then the first publishes.
  rcases Pool.runWhile_follow _ (fun _ s _ op => rowLocks (toggleHost true) s op)
    (fun _ s _ op htest => rowLocks_sound _ s op htest)
    (List.replicate 4 0 ++ List.replicate 9 1 ++ List.replicate 5 0) _ _ hspawn
    (by decide +kernel) with ⟨tr, hrun⟩
  refine absurd (hclaim (toggleHost true) toggleShop tr _ hrun (by decide +kernel) "f1" "e1"
    ⟨"shop", "prod", "dark", true, 13⟩ (by decide +kernel)) (by decide +kernel)

end Cuttlegate
