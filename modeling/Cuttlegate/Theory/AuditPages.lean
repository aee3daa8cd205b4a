import Cuttlegate.Theory.HistoryPages

/-!
# Pages of the Audit Log

Whether a client that follows the cursors of the audit log has read every
matching event once in the end.

The cursor of a full page is the time of its last event, written with its
fraction, and the next request asks for what happened before that time. The
events of one time are in no fixed order, and those of them that did not fit on
the page are skipped. So the log is read exactly if a page never ends between
two events of one time. The zero time would ask for everything again, and a
year of five digits cannot be read back.

A request is two operations, so the order in which the database returns ties is
drawn anew for every page.

## Main definitions

* `Store.eventsOf`: The events that match.
* `auditLog`: The log as a history.

## Theorems

* `auditLog_served`: The log serves its pages.
* `audit_pages_exact_iff`: When it is read exactly.
-/

namespace Cuttlegate

/-- The events of a project, or those of one flag if a key is given. -/
def Store.eventsOf (s : Store) (projectID flagKey : String) : List AuditEvent :=
  s.auditEvents.filter (fun a => a.projectID == projectID &&
    (flagKey == "" || a.entityKey == flagKey))

/-- An event as it is listed. -/
def Store.listed (s : Store) (a : AuditEvent) : ListedAuditEvent := ⟨a, s.emailOf a.actorID⟩

/-- The audit log, as it is read for one flag or all, with a limit. -/
def auditLog (ctx : Ctx) (projSlug flagKey limit : String) : History ListedAuditEvent where
  request cursor := AuditHandler.list ctx projSlug flagKey cursor limit
  answer resp := match resp.body with
    | .auditEntries events _ next => some (events, next)
    | _ => none
  sent := id
  back t := decodeCursor (encodeCursor t)
  back_le := by
    intro t c hback
    rw [id_eq, decode_encodeCursor] at hback
    by_cases hyear : (dateOf t).1 < 10000
    · rw [if_pos hyear, Option.some.injEq] at hback
      exact Nat.le_of_eq hback.symm
    · rw [if_neg hyear] at hback
      exact (nomatch hback)

theorem auditLog_back (ctx : Ctx) (projSlug flagKey limit : String) (t : Time) :
    (auditLog ctx projSlug flagKey limit).back ((auditLog ctx projSlug flagKey limit).sent t) =
      if (dateOf t).1 < 10000 then some (id t) else none := by
  simp only [auditLog, decode_encodeCursor, id_eq]

section AuditLog

variable (h : HttpHost) (ctx : Ctx) (projSlug flagKey limit : String) (n : Int64) (proj : Project)
  (ac : AuthContext)

/-- The events the log shows at all: it is read on the pool. -/
def shownEvents (s : Store) : List AuditEvent :=
  if h.host.rls then [] else s.eventsOf proj.id flagKey

/-- The log as a collection behind a cursor. -/
def auditScheme : Keyset.Scheme AuditEvent Time :=
  (auditLog ctx projSlug flagKey limit).scheme (·.occurredAt) (normalizeLimit n).toNatClampNeg
    (by
      have hbounds := normalizeLimit_bounds n
      rw [← Int64.toNat_toInt]
      omega)

/-- The rows the database returns for a request. -/
def auditPage (s : Store) (order : Sorter) (b : Option Time) : List AuditEvent :=
  (order.sort (fun a b => decide (b.occurredAt < a.occurredAt))
    ((auditScheme ctx projSlug flagKey limit n).select (shownEvents h flagKey proj s) b)).take
      (normalizeLimit n).toNatClampNeg

theorem listAuditEvents_page (s : Store) (order : Sorter) (cursor : Option Time) :
    listAuditEvents ⟨none, h.host.rls⟩ order proj.id
        { flagKey := flagKey, before := cursor.getD 0, limit := normalizeLimit n } s =
      .ok ((auditPage h ctx projSlug flagKey limit n proj s order (History.bound cursor)).map
        s.listed, s) := by
  have hrows : s.auditEvents.filter (fun a => Conn.sees ⟨none, h.host.rls⟩ a.projectID &&
      a.projectID == proj.id && (flagKey == "" || a.entityKey == flagKey) &&
      (cursor.getD 0 == 0 || decide (a.occurredAt < cursor.getD 0))) =
      (auditScheme ctx projSlug flagKey limit n).select (shownEvents h flagKey proj s)
        (History.bound cursor) := by
    have hpool := filter_pool h.host.rls (·.projectID) s.auditEvents (fun a =>
      a.projectID == proj.id && (flagKey == "" || a.entityKey == flagKey))
    rw [shownEvents, Store.eventsOf, ← hpool, ← select_bound]
    refine List.filter_congr (fun a _ => ?_)
    rw [Bool.and_assoc (Conn.sees _ _)]
    rfl
  simp only [listAuditEvents, query, AuditFilter.normalize, normalizeLimit_idem, hrows]
  rfl

variable (hfails : ∀ k, h.host.fails k = false) (hrole : requireRole ctx.auth .viewer = .ok ac)
  (hlimit : positiveParam limit 0 = some n)

include hfails hrole in
/-- The page of a request. -/
theorem run_listByProject (w : World) (cursor : Option Time) :
    Proc.run (exec h.host) (AuditService.listByProject ctx proj.id
        { flagKey := flagKey, before := cursor.getD 0, limit := n }) w =
      (.ok ((auditPage h ctx projSlug flagKey limit n proj w.store (h.host.order w.calls)
        (History.bound cursor)).map w.store.listed), w.tick) := by
  have hpage := listAuditEvents_page h ctx projSlug flagKey limit n proj w.store
    (h.host.order w.calls) cursor
  unfold AuditService.listByProject
  rw [run_require ctx .viewer ac hrole, Ctx.call, Proc.run_call,
    exec_passing h.host ⟨ctx.tenant, _⟩ w (hfails _)]
  simp only [Op.perform, World.onStore, Conn.pool, AuditFilter.normalize, hpage]

include hfails hrole hlimit in
/-- The answer to a request. -/
theorem auditLog_answers (s : HttpState) (htx : s.tx = none ∨ s.tx = some none)
    (hproj : s.world.store.projectAt projSlug = some proj) (cursor : Option Time)
    (page : List AuditEvent)
    (hpage : page = auditPage h ctx projSlug flagKey limit n proj s.world.store
      (h.host.order (s.world.calls + 1)) (History.bound cursor)) :
    ∃ resp, Proc.run (httpExec h)
        ((auditLog ctx projSlug flagKey limit).request (cursor.map some)) s =
        (.ok resp, { s with world := s.world.tick.tick }) ∧
      (auditLog ctx projSlug flagKey limit).answer resp =
        some (page.map s.world.store.listed,
          if page.length = (normalizeLimit n).toNatClampNeg then
            page.getLast?.map (·.occurredAt) else none) := by
  have hparse : AuditHandler.parseQuery flagKey (cursor.map some) limit =
      .ok { flagKey := flagKey, before := cursor.getD 0, limit := n } := by
    unfold AuditHandler.parseQuery
    cases cursor <;> simp [hlimit]
  have hevents := run_listByProject h ctx projSlug flagKey limit n proj ac hfails hrole
    s.world.tick cursor
  simp only [World.tick_store, World.tick_calls] at hevents
  rw [← hpage] at hevents
  have hlength : page.length ≤ (normalizeLimit n).toNatClampNeg := by
    rw [hpage]
    exact List.length_take_le _ _
  refine ⟨⟨200, .auditEntries (page.map s.world.store.listed) proj.slug
    (if Int64.ofNat (page.map s.world.store.listed).length = normalizeLimit n then
      (page.map s.world.store.listed).getLast?.map (fun e => e.event.occurredAt) else none)⟩,
    ?_, ?_⟩
  · change Proc.run (httpExec h) (AuditHandler.list ctx projSlug flagKey (cursor.map some) limit) s
      = _
    unfold AuditHandler.list resolveProject
    -- The project is looked up before the query is parsed.
    rw [run_orWriteError_ok h (ProjectService.getBySlug ctx projSlug)
      ((Proc.uses_call _).mpr (.inl rfl)) _ s htx proj _
      (run_getBySlug h.host hfails ctx projSlug proj s.world hproj), hparse]
    simp only []
    rw [run_orWriteError_ok h _ ?_ _ ⟨s.world.tick, s.tx, s.windows⟩ htx _ _ hevents]
    · rfl
    · exact Proc.uses_bind _ _ (Proc.uses_ofExcept _) (fun _ => (Proc.uses_call _).mpr (.inl rfl))
  · -- The handler asks whether the page is full by the length of its answer.
    simp only [auditLog, List.length_map, List.getLast?_map, Option.map_map]
    rw [if_congr (ofNat_eq_limit n page.length hlength) rfl rfl]
    rfl

include hfails in
theorem auditLog_refuses (s : HttpState) (htx : s.tx = none ∨ s.tx = some none)
    (hproj : s.world.store.projectAt projSlug = some proj) :
    Proc.run (httpExec h) ((auditLog ctx projSlug flagKey limit).request (some none)) s =
      (.ok (writeError (.badRequest "invalid cursor")), { s with world := s.world.tick }) := by
  change Proc.run (httpExec h) (AuditHandler.list ctx projSlug flagKey (some none) limit) s = _
  unfold AuditHandler.list resolveProject
  rw [run_orWriteError_ok h (ProjectService.getBySlug ctx projSlug)
    ((Proc.uses_call _).mpr (.inl rfl)) _ s htx proj _
    (run_getBySlug h.host hfails ctx projSlug proj s.world hproj)]
  rfl

include hfails hrole hlimit in
/-- The log serves its pages. -/
theorem auditLog_served (s : HttpState) (htx : s.tx = none ∨ s.tx = some none)
    (hproj : s.world.store.projectAt projSlug = some proj) :
    (auditLog ctx projSlug flagKey limit).Served h (auditScheme ctx projSlug flagKey limit n)
      s.world.store.listed
      (fun k => auditPage h ctx projSlug flagKey limit n proj s.world.store
        (h.host.order (s.world.calls + 2 * k + 1)))
      (afterRequests 2 s) where
  cut := by
    intro t
    simp only [auditScheme, History.scheme]
  refuses := by
    intro k resp s' hrun
    rw [auditLog_refuses h ctx projSlug flagKey limit proj hfails (afterRequests 2 s k) htx hproj,
      Prod.mk.injEq, Except.ok.injEq] at hrun
    rw [← hrun.1]
    rfl
  answers := by
    intro k cursor
    rcases auditLog_answers h ctx projSlug flagKey limit n proj ac hfails hrole hlimit
      (afterRequests 2 s k) htx hproj cursor _ rfl with ⟨resp, hrun, hanswer⟩
    rw [afterRequests_succ]
    exact ⟨resp, hrun, hanswer⟩

include hfails hrole hlimit in
/-- The log as a collection is read by its clients. -/
theorem auditLog_reads (s : HttpState) (htx : s.tx = none ∨ s.tx = some none)
    (hproj : s.world.store.projectAt projSlug = some proj) :
    (∃ (fuel : Nat) (rows : List AuditEvent),
        (auditLog ctx projSlug flagKey limit).follow h fuel none s =
          some (rows.map s.world.store.listed) ∧
        rows.Perm (s.world.store.eventsOf proj.id flagKey) ∧
        rows.Pairwise (fun a b => b.occurredAt ≤ a.occurredAt)) ↔
      (h.host.rls = true → s.world.store.eventsOf proj.id flagKey = []) ∧
        (auditScheme ctx projSlug flagKey limit n).Clear
          ((auditScheme ctx projSlug flagKey limit n).sortedKeys
            (s.world.store.eventsOf proj.id flagKey)) :=
  History.reads_shown_iff (auditLog ctx projSlug flagKey limit) h
    (auditScheme ctx projSlug flagKey limit n) s.world.store.listed _ (afterRequests 2 s)
    (auditLog_served h ctx projSlug flagKey limit n proj ac hfails hrole hlimit s htx hproj)
    (s.world.store.eventsOf proj.id flagKey) h.host.rls (fun _ _ => isPage_sort _ _ _)

theorem auditScheme_clear_iff (events : List AuditEvent) :
    (auditScheme ctx projSlug flagKey limit n).Clear
        ((auditScheme ctx projSlug flagKey limit n).sortedKeys events) ↔
      Separated id (normalizeLimit n).toNatClampNeg (events.map (·.occurredAt)) :=
  (auditLog ctx projSlug flagKey limit).clear_iff id (auditLog_back ctx projSlug flagKey limit)
    (fun a : AuditEvent => a.occurredAt) (normalizeLimit n).toNatClampNeg _ events

include hfails hrole hlimit in
/-- A client that starts without a cursor and follows the cursors comes to an
    end and has read every matching event of the project once, the latest
    first, exactly if every page ends where the next event is older, with a
    cursor that can be read; and if row-level security is enforced, exactly if
    there is none. -/
theorem audit_pages_exact_iff (s : HttpState) (htx : s.tx = none ∨ s.tx = some none)
    (hproj : s.world.store.projectAt projSlug = some proj) :
    (∃ (fuel : Nat) (rows : List AuditEvent),
        (auditLog ctx projSlug flagKey limit).follow h fuel none s =
          some (rows.map s.world.store.listed) ∧
        rows.Perm (s.world.store.eventsOf proj.id flagKey) ∧
        rows.Pairwise (fun a b => b.occurredAt ≤ a.occurredAt)) ↔
      (h.host.rls = true → s.world.store.eventsOf proj.id flagKey = []) ∧
        Separated id (normalizeLimit n).toNatClampNeg
          ((s.world.store.eventsOf proj.id flagKey).map (·.occurredAt)) := by
  rw [auditLog_reads h ctx projSlug flagKey limit n proj ac hfails hrole hlimit s htx hproj,
    auditScheme_clear_iff]

end AuditLog

/-- A log of two events. -/
def twoLogged (first last : Time) : HttpState where
  world :=
    { store :=
        { projects := [⟨"p1", "Shop", "shop", 0⟩]
          auditEvents := [
            ⟨"a1", "p1", "u1", "flag.created", "flag", "f1", "dark", "", "", "", "dark", first⟩,
            ⟨"a2", "p1", "u1", "flag.updated", "flag", "f1", "dark", "", "", "", "", last⟩] } }
  tx := none
  windows := fun _ => none

/-- Two events that are a microsecond apart are read on two pages. -/
theorem audit_pages_exact_apart :
    ∃ (fuel : Nat) (rows : List AuditEvent),
      (auditLog reader "shop" "" "1").follow readerHost fuel none
          (twoLogged (in2024 1) (in2024 2)) =
        some (rows.map (twoLogged (in2024 1) (in2024 2)).world.store.listed) ∧
      rows.Perm ((twoLogged (in2024 1) (in2024 2)).world.store.eventsOf "p1" "") ∧
      rows.Pairwise (fun a b => b.occurredAt ≤ a.occurredAt) := by
  refine (audit_pages_exact_iff readerHost reader "shop" "" "1" 1 ⟨"p1", "Shop", "shop", 0⟩
    ⟨"u1", .viewer⟩ (fun _ => rfl) rfl (by decide +kernel) _ (.inl rfl) rfl).mpr
    ⟨by decide, ?_⟩
  have hsorted : latestFirst [in2024 1, in2024 2] = [in2024 2, in2024 1] := by decide +kernel
  intro k hk t ht
  change (latestFirst [in2024 1, in2024 2])[k * 1 - 1]? = some t at ht
  change _ ∧ _ ∧ ∀ t', (latestFirst [in2024 1, in2024 2])[k * 1]? = some t' → t' < id t
  rw [hsorted, Nat.mul_one] at *
  match k, hk with
  | 1, _ =>
      rw [← Option.some.inj ht]
      refine ⟨by decide +kernel, by decide +kernel, fun t' ht' => ?_⟩
      rw [← Option.some.inj ht']
      decide +kernel
  | 2, _ =>
      rw [← Option.some.inj ht]
      exact ⟨by decide +kernel, by decide +kernel, fun t' ht' => by simp at ht'⟩
  | k + 3, _ => simp at ht

/-- Of two events of one time only one is read, one at a time. -/
theorem audit_pages_skip_tie :
    ¬ ∃ (fuel : Nat) (rows : List AuditEvent),
      (auditLog reader "shop" "" "1").follow readerHost fuel none
          (twoLogged (in2024 1) (in2024 1)) =
        some (rows.map (twoLogged (in2024 1) (in2024 1)).world.store.listed) ∧
      rows.Perm ((twoLogged (in2024 1) (in2024 1)).world.store.eventsOf "p1" "") ∧
      rows.Pairwise (fun a b => b.occurredAt ≤ a.occurredAt) := by
  rw [auditLog_reads readerHost reader "shop" "" "1" 1 ⟨"p1", "Shop", "shop", 0⟩
    ⟨"u1", .viewer⟩ (fun _ => rfl) rfl (by decide +kernel) _ (.inl rfl) rfl, auditScheme_clear_iff]
  rintro ⟨_, hseparated⟩
  have hfirst := hseparated 1 (Nat.le_refl 1) (in2024 1) (by decide +kernel)
  exact absurd (hfirst.2.2 (in2024 1) (by decide +kernel)) (Nat.lt_irrefl _)

end Cuttlegate
