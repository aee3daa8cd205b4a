import Cuttlegate.Store.Repository
import Mathlib.Data.List.Induction

/-!
# Statement by Statement

Two methods of the repositories as the statements they send, for questions that
their effect as a whole leaves open.

The upsert of the statistics of a flag acts on a table with one row for each
flag and environment. What the sequence of upserts leaves in it is compared
with the counts that are taken from the sequence itself.

The members of a segment are replaced in a transaction: a delete, one insert
for each key, and the commit. Each of these calls can fail by itself, for
instance because the connection is lost. The deferred rollback then drops the
copy the statements were made on. When no call fails by itself, this is the
replacement in one piece.

## Main definitions

* `upsertStats`, `statsByFlagEnvironment`: The table of statistics.
* `transact`: A transaction whose calls can fail.
* `deleteMembers`, `insertMember`, `setMembers`: The replacement of members.

## Theorems

* `statsByFlagEnvironment_foldl`: The rows hold what the upserts add up to.
* `transact_ok`, `transact_error`: A transaction does everything or nothing.
* `exec_setMembers_iff`: When the statements of the replacement go through.
* `setMembers_ok_iff`: Together they are the replacement in one piece.
-/

namespace Cuttlegate

/-! ## The statistics of a flag -/

/-- Whether a row is that of the given flag and environment. -/
def FlagEvaluationStats.isFor (flagID environmentID : String) (r : FlagEvaluationStats) : Bool :=
  r.flagID == flagID && r.environmentID == environmentID

/-- Insert a first row, or count one more in the row there is. -/
def upsertStats (flagID environmentID flagKey : String) (evaluatedAt : Time)
    (rows : List FlagEvaluationStats) : List FlagEvaluationStats :=
  if rows.any (·.isFor flagID environmentID) then
    rows.map (fun r => if r.isFor flagID environmentID then
      { r with
        evaluationCount := r.evaluationCount + 1
        lastEvaluatedAt := evaluatedAt, flagKey := flagKey }
      else r)
  else rows ++ [⟨flagID, environmentID, flagKey, 1, evaluatedAt⟩]

/-- The row of a flag and environment; all zero when there is none. -/
def statsByFlagEnvironment (flagID environmentID : String) (rows : List FlagEvaluationStats) :
    FlagEvaluationStats :=
  (rows.find? (·.isFor flagID environmentID)).getD
    { flagID := flagID, environmentID := environmentID }

/-- The upsert for an evaluation, which is counted for the flag beside it. -/
def upsertEvaluation (rows : List FlagEvaluationStats) (r : String × EvaluationEvent) :
    List FlagEvaluationStats :=
  upsertStats r.1 r.2.environmentID r.2.flagKey r.2.occurredAt rows

section Stats

variable (flagID environmentID : String)

theorem FlagEvaluationStats.isFor_iff (r : FlagEvaluationStats) :
    r.isFor flagID environmentID = true ↔ r.flagID = flagID ∧ r.environmentID = environmentID := by
  simp [isFor]

/-- An upsert changes the row of its own flag and environment. -/
theorem find_upsertEvaluation (rows : List FlagEvaluationStats) (f : String)
    (e : EvaluationEvent) :
    (upsertEvaluation rows (f, e)).find? (·.isFor flagID environmentID) =
      if f = flagID ∧ e.environmentID = environmentID then
        some ((statsByFlagEnvironment flagID environmentID rows).upsert e)
      else rows.find? (·.isFor flagID environmentID) := by
  unfold upsertEvaluation upsertStats
  by_cases hrow : rows.any (·.isFor f e.environmentID) = true
  · -- The row is there, and keeps its flag and its environment.
    have hkeep : ((fun r => r.isFor flagID environmentID) ∘ fun r : FlagEvaluationStats =>
        if r.isFor f e.environmentID then
          { r with
            evaluationCount := r.evaluationCount + 1
            lastEvaluatedAt := e.occurredAt, flagKey := e.flagKey }
        else r) = (fun r => r.isFor flagID environmentID) := by
      funext r
      simp only [Function.comp_apply]
      split <;> rfl
    rw [if_pos hrow, List.find?_map, hkeep]
    cases hfind : rows.find? (·.isFor flagID environmentID) with
    | none =>
        rcases List.any_eq_true.mp hrow with ⟨r, hr, hfor⟩
        rw [if_neg]
        · rfl
        · rintro ⟨rfl, rfl⟩
          exact List.find?_eq_none.mp hfind r hr hfor
    | some r =>
        have hstats : statsByFlagEnvironment flagID environmentID rows = r := by
          rw [statsByFlagEnvironment, hfind, Option.getD_some]
        have hfor := (r.isFor_iff flagID environmentID).mp (List.find?_some hfind)
        rw [Option.map_some, hstats]
        by_cases hsame : f = flagID ∧ e.environmentID = environmentID
        · rw [if_pos hsame, if_pos ((r.isFor_iff _ _).mpr ⟨hfor.1.trans hsame.1.symm,
            hfor.2.trans hsame.2.symm⟩)]
          rfl
        · rw [if_neg hsame, if_neg (fun h => hsame ?_)]
          have hrow' := (r.isFor_iff _ _).mp h
          exact ⟨hrow'.1.symm.trans hfor.1, hrow'.2.symm.trans hfor.2⟩
  · rw [if_neg hrow, List.find?_append, List.find?_singleton]
    by_cases hsame : f = flagID ∧ e.environmentID = environmentID
    · rcases hsame with ⟨rfl, rfl⟩
      have hnone : rows.find? (·.isFor f e.environmentID) = none := by
        rw [List.find?_eq_none]
        exact fun r hr hfor => hrow (List.any_eq_true.mpr ⟨r, hr, hfor⟩)
      have hnew : FlagEvaluationStats.isFor f e.environmentID
          ⟨f, e.environmentID, e.flagKey, 1, e.occurredAt⟩ = true :=
        (FlagEvaluationStats.isFor_iff _ _ _).mpr ⟨rfl, rfl⟩
      rw [hnone, Option.none_or, if_pos hnew, if_pos ⟨rfl, rfl⟩, statsByFlagEnvironment, hnone]
      rfl
    · rw [if_neg hsame, if_neg (fun h => hsame ((FlagEvaluationStats.isFor_iff _ _ _).mp h)),
        Option.or_none]

theorem statsByFlagEnvironment_upsert (rows : List FlagEvaluationStats)
    (r : String × EvaluationEvent) :
    statsByFlagEnvironment flagID environmentID (upsertEvaluation rows r) =
      if r.1 = flagID ∧ r.2.environmentID = environmentID then
        (statsByFlagEnvironment flagID environmentID rows).upsert r.2
      else statsByFlagEnvironment flagID environmentID rows := by
  rw [statsByFlagEnvironment, find_upsertEvaluation]
  split <;> rfl

/-- The rows hold what the upserts add up to. -/
theorem statsByFlagEnvironment_foldl (performed : List (String × EvaluationEvent)) :
    statsByFlagEnvironment flagID environmentID (performed.foldl upsertEvaluation []) =
      evaluationStats flagID environmentID performed := by
  -- By induction on the upserts, from the last one.
  induction performed using List.reverseRecOn with
  | nil => rfl
  | append_singleton performed r ih =>
      rw [List.foldl_append, List.foldl_cons, List.foldl_nil, statsByFlagEnvironment_upsert, ih]
      by_cases hsame : r.1 = flagID ∧ r.2.environmentID = environmentID
      · simp [evaluationStats, hsame]
      · have hskip : ¬ (r.1 == flagID && r.2.environmentID == environmentID) = true := by
          simpa using hsame
        simp [evaluationStats, hsame, hskip]

end Stats

/-! ## Transactions -/

/-- Statements one after the other, numbered from `n`. A statement fails for a
    reason of its own, or because the database is not there for it. -/
def execStatements (fails : Nat → Bool) : Nat → List (Stmt Unit) → Store → Except Err Store
  | _, [], s => .ok s
  | n, stmt :: rest, s =>
      if fails n then .error .internal
      else match stmt s with
        | .error e => .error e
        | .ok (_, s') => execStatements fails (n + 1) rest s'

/-- A transaction: the beginning, the statements, the commit. The statements
    work on a copy, which the rollback drops when one of the calls fails. -/
def transact (fails : Nat → Bool) (stmts : List (Stmt Unit)) (s : Store) :
    Except Err Unit × Store :=
  if fails 0 then (.error .internal, s)
  else match execStatements fails 1 stmts s with
    | .error e => (.error e, s)
    | .ok copy =>
        if fails (stmts.length + 1) then (.error .internal, s) else (.ok (), copy)

/-- A transaction that fails leaves the store as it was. -/
theorem transact_error (fails : Nat → Bool) (stmts : List (Stmt Unit)) (s s' : Store) (e : Err)
    (h : transact fails stmts s = (.error e, s')) : s' = s := by
  unfold transact at h
  by_cases hbegin : fails 0 = true
  · rw [if_pos hbegin] at h
    exact (Prod.mk.inj h).2.symm
  · rw [if_neg hbegin] at h
    cases hexec : execStatements fails 1 stmts s with
    | error e' =>
        rw [hexec] at h
        exact (Prod.mk.inj h).2.symm
    | ok copy =>
        simp only [hexec] at h
        by_cases hcommit : fails (stmts.length + 1) = true
        · rw [if_pos hcommit] at h
          exact (Prod.mk.inj h).2.symm
        · rw [if_neg hcommit] at h
          cases h

/-- A transaction that succeeds has done what its statements do. -/
theorem transact_ok (fails : Nat → Bool) (stmts : List (Stmt Unit)) (s s' : Store)
    (h : transact fails stmts s = (.ok (), s')) : execStatements fails 1 stmts s = .ok s' := by
  unfold transact at h
  by_cases hbegin : fails 0 = true
  · rw [if_pos hbegin] at h
    cases h
  · rw [if_neg hbegin] at h
    cases hexec : execStatements fails 1 stmts s with
    | error e =>
        rw [hexec] at h
        cases h
    | ok copy =>
        simp only [hexec] at h
        by_cases hcommit : fails (stmts.length + 1) = true
        · rw [if_pos hcommit] at h
          cases h
        · rw [if_neg hcommit] at h
          rw [(Prod.mk.inj h).2]

/-- A call that fails by itself only takes a success away. -/
theorem execStatements_mono (fails : Nat → Bool) (n : Nat) (stmts : List (Stmt Unit)) (s s' : Store)
    (h : execStatements fails n stmts s = .ok s') :
    execStatements (fun _ => false) n stmts s = .ok s' := by
  induction stmts generalizing n s with
  | nil => exact h
  | cons stmt rest ih =>
      simp only [execStatements] at h ⊢
      by_cases hn : fails n = true
      · rw [if_pos hn] at h
        cases h
      · rw [if_neg hn] at h
        rw [if_neg Bool.false_ne_true]
        cases hstmt : stmt s with
        | error e =>
            rw [hstmt] at h
            cases h
        | ok p =>
            rw [hstmt] at h
            exact ih (n + 1) p.2 h

/-! ## The members of a segment -/

/-- The store without the members of a segment. -/
def Store.dropMembers (s : Store) (id : String) : Store :=
  { s with segmentMembers := s.segmentMembers.filter (fun m => m.segmentID != id) }

/-- The store with more members in a segment. -/
def Store.withMembers (s : Store) (now : Time) (id : String) (userKeys : List String) : Store :=
  { s with segmentMembers := s.segmentMembers ++ userKeys.map (fun key => ⟨id, key, now⟩) }

/-- Whether a segment has a member. -/
def Store.hasUser (s : Store) (id userKey : String) : Prop :=
  ∃ m ∈ s.segmentMembers, m.segmentID = id ∧ m.userKey = userKey

theorem Store.dropMembers_not_hasUser (s : Store) (id userKey : String) :
    ¬ (s.dropMembers id).hasUser id userKey := by
  rintro ⟨m, hm, rfl, _⟩
  simp [dropMembers] at hm

section Members

variable (uuid : String → Option String) (takes : String → Bool) (now : Time)

def deleteMembers (segmentID : String) : Stmt Unit := fun s =>
  match uuid segmentID with
  | none => .error .internal
  | some id => .ok ((), s.dropMembers id)

/-- One more member. `takes` tells which texts the database takes as a key: it
    refuses a NUL, and a text too long for an entry of the index. -/
def insertMember (segmentID userKey : String) : Stmt Unit := fun s =>
  match uuid segmentID with
  | none => .error .internal
  | some id => do
      refuseIf (takes userKey = false) .internal
      refuseIf (∃ m ∈ s.segmentMembers, m.segmentID = id ∧ m.userKey = userKey) .internal
      refuseIf (∀ g ∈ s.segments, g.id ≠ id) .internal
      .ok ((), s.withMembers now id [userKey])

def setMembers (fails : Nat → Bool) (segmentID : String) (userKeys : List String) :
    Store → Except Err Unit × Store :=
  transact fails (deleteMembers uuid segmentID ::
    userKeys.map (insertMember uuid takes now segmentID))

theorem insertMember_ok_iff (segmentID id userKey : String) (s s' : Store)
    (hid : uuid segmentID = some id) :
    insertMember uuid takes now segmentID userKey s = .ok ((), s') ↔
      takes userKey = true ∧ ¬ s.hasUser id userKey ∧ (∃ g ∈ s.segments, g.id = id) ∧
        s.withMembers now id [userKey] = s' := by
  simp only [insertMember, hid, bind_unit_ok, refuseIf_ok, Bool.not_eq_false, Store.hasUser,
    Except.ok.injEq, Prod.mk.injEq, true_and, not_forall, not_not, exists_prop]

/-- The inserts go through exactly if every key is new and the segment is
    there. -/
theorem exec_inserts_iff (n : Nat) (segmentID id : String) (userKeys : List String)
    (s s' : Store) (hid : uuid segmentID = some id) :
    execStatements (fun _ => false) n (userKeys.map (insertMember uuid takes now segmentID)) s =
        .ok s' ↔
      (∀ key ∈ userKeys, takes key = true ∧ ¬ s.hasUser id key) ∧ userKeys.Nodup ∧
        (userKeys ≠ [] → ∃ g ∈ s.segments, g.id = id) ∧ s.withMembers now id userKeys = s' := by
  -- By induction on the keys; the segment has one more member after each.
  induction userKeys generalizing n s with
  | nil => simp [execStatements, Store.withMembers]
  | cons key rest ih =>
      have hmember : ∀ k, (s.withMembers now id [key]).hasUser id k ↔
          s.hasUser id k ∨ key = k := by
        intro k
        simp only [Store.hasUser, Store.withMembers, List.map_cons, List.map_nil,
          List.mem_append, List.mem_singleton, or_and_right, exists_or, exists_eq_left, true_and]
      have happend : (s.withMembers now id [key]).withMembers now id rest =
          s.withMembers now id (key :: rest) := by
        simp [Store.withMembers]
      have hfirst := fun t => insertMember_ok_iff uuid takes now segmentID id key s t hid
      simp only [List.map_cons, execStatements, if_neg Bool.false_ne_true]
      cases hins : insertMember uuid takes now segmentID key s with
      | error e =>
          simp only [reduceCtorEq, List.forall_mem_cons, false_iff]
          rintro ⟨⟨hnew, _⟩, _, hsegment, _⟩
          have hok := (hfirst _).mpr ⟨hnew.1, hnew.2, hsegment (List.cons_ne_nil _ _), rfl⟩
          rw [hins] at hok
          cases hok
      | ok p =>
          rcases p with ⟨⟨⟩, t⟩
          rcases (hfirst t).mp hins with ⟨htakes, hnew, hsegment, rfl⟩
          dsimp only
          rw [ih (n + 1) (s.withMembers now id [key])]
          simp only [hmember, happend, List.forall_mem_cons, List.nodup_cons, not_or]
          constructor
          · rintro ⟨hrest, hnodup, _, hs⟩
            refine ⟨⟨⟨htakes, hnew⟩, fun k hk => ⟨(hrest k hk).1, (hrest k hk).2.1⟩⟩,
              ⟨fun hk => (hrest key hk).2.2 rfl, hnodup⟩, fun _ => hsegment, hs⟩
          · rintro ⟨⟨_, hrest⟩, ⟨hkey, hnodup⟩, _, hs⟩
            refine ⟨fun k hk => ⟨(hrest k hk).1, (hrest k hk).2, ?_⟩, hnodup,
              fun _ => hsegment, hs⟩
            exact fun heq => hkey (heq ▸ hk)

/-- The statements go through exactly if no key repeats and the database takes
    them all, for a segment that is there. -/
theorem exec_setMembers_iff (segmentID id : String) (userKeys : List String) (s s' : Store)
    (hid : uuid segmentID = some id) :
    execStatements (fun _ => false) 1 (deleteMembers uuid segmentID ::
        userKeys.map (insertMember uuid takes now segmentID)) s = .ok s' ↔
      (∀ key ∈ userKeys, takes key = true) ∧ userKeys.Nodup ∧
        (userKeys ≠ [] → ∃ g ∈ s.segments, g.id = id) ∧
        (s.dropMembers id).withMembers now id userKeys = s' := by
  simp only [execStatements, if_neg Bool.false_ne_true, deleteMembers, hid]
  rw [exec_inserts_iff uuid takes now (1 + 1) segmentID id userKeys (s.dropMembers id) s' hid]
  refine and_congr_left (fun _ => forall₂_congr (fun key _ => ?_))
  exact ⟨And.left, fun h => ⟨h, s.dropMembers_not_hasUser id key⟩⟩

/-- Without a failure from outside, and for keys the database takes, the
    statements succeed where the replacement in one piece does, and leave the
    same store. -/
theorem setMembers_ok_iff (segmentID : String) (userKeys : List String) (s s' : Store)
    (htakes : ∀ key ∈ userKeys, takes key = true) :
    setMembers uuid takes now (fun _ => false) segmentID userKeys s = (.ok (), s') ↔
      setSegmentMembers uuid now segmentID userKeys s = .ok ((), s') := by
  cases hid : uuid segmentID with
  | none => simp [setMembers, transact, execStatements, deleteMembers, setSegmentMembers, hid]
  | some id =>
      have hexec := exec_setMembers_iff uuid takes now segmentID id userKeys s s' hid
      have hwhole : setSegmentMembers uuid now segmentID userKeys s = .ok ((), s') ↔
          (userKeys ≠ [] → ∃ g ∈ s.segments, g.id = id) ∧ userKeys.Nodup ∧
            (s.dropMembers id).withMembers now id userKeys = s' := by
        simp only [setSegmentMembers, hid, bind_unit_ok, refuseIf_ok, not_and, not_forall,
          not_not, exists_prop, Except.ok.injEq, Prod.mk.injEq, true_and]
        rfl
      rw [hwhole]
      constructor
      · intro h
        rcases hexec.mp (transact_ok _ _ _ _ h) with ⟨_, hnodup, hsegment, hs⟩
        exact ⟨hsegment, hnodup, hs⟩
      · rintro ⟨hsegment, hnodup, hs⟩
        rw [setMembers, transact, hexec.mpr ⟨htakes, hnodup, hsegment, hs⟩]
        rfl

end Members

end Cuttlegate
