import Cuttlegate.Adapters.Cursors
import Cuttlegate.Lib.Keyset

/-!
# Reading the Histories

Whether a client that follows the cursors of a history has read every event
once in the end.

The audit log and the evaluations of a flag are both read in pages, the latest
events first, and the cursor of an answer is the time of its last event. The
next request asks for what happened strictly before that time. Events of one
time are therefore read on one page or not at all: those that did not fit are
skipped. The audit log writes the cursor with its fraction. The evaluations cut
it off to the second, so there all the events in the second of the last one
are skipped that were not read before.

Such a client is an instance of the one in `Keyset`, and a history is read
exactly if its page boundaries are clear. Apart from ties, the cursor of a full
page must be one that can be read and that is a bound.

## Main definitions

* `History`, `History.follow`: A history, and a client that reads it.
* `Separated`: Every page ends where the cursor separates two events.

## Theorems

* `History.follow_eq`: The client is the one of `Keyset`.
* `History.reads_shown_iff`: When a history is read exactly.
* `History.clear_iff`: The clear boundaries are those that separate.
-/

namespace Cuttlegate

/-! ## Clients -/

/-- A history as its clients see it: the request with a cursor, the items of an
    answer and the time of its cursor, how the time of an event is sent in a
    cursor, and what a cursor is read as. -/
structure History (β : Type) where
  request : TimeParam → HttpProg Response
  answer : Response → Option (List β × Option Time)
  sent : Time → Time
  back : Time → Option Time
  back_le : ∀ t c, back (sent t) = some c → c ≤ t

namespace History

variable {α β : Type} (H : History β) (h : HttpHost)

/-- A client that hands every cursor back, for a bounded number of requests. -/
def follow : Nat → TimeParam → HttpState → Option (List β)
  | 0, _, _ => none
  | fuel + 1, cursor, s =>
      match Proc.run (httpExec h) (H.request cursor) s with
      | (.error _, _) => none
      | (.ok resp, s') =>
          match H.answer resp with
          | none => none
          | some (items, none) => some items
          | some (items, some t) => (follow fuel (some (H.back t)) s').map (items ++ ·)

/-- What the request with a cursor asks for: the zero time is no bound. -/
def cut (t : Time) : Keyset.Cut Time :=
  match H.back (H.sent t) with
  | none => .refused
  | some c => if c = 0 then .all else .below c

/-- The bound a cursor stands for. -/
def bound (cursor : Option Time) : Option Time := cursor.filter (fun t => t ≠ 0)

theorem bound_some (c : Time) : bound (some c) = if c = 0 then none else some c := by
  by_cases hzero : c = 0
  · rw [if_pos hzero, hzero]
    rfl
  · simp [bound, hzero]

/-- The history as a collection behind a cursor. -/
def scheme (key : α → Time) (limit : Nat) (hlimit : 0 < limit) : Keyset.Scheme α Time where
  key := key
  limit := limit
  limit_pos := hlimit
  cut := H.cut
  cut_le := by
    intro t c hcut
    unfold cut at hcut
    cases hback : H.back (H.sent t) with
    | none => simp [hback] at hcut
    | some d =>
        by_cases hzero : d = 0
        · simp [hback, hzero] at hcut
        · simp only [hback, hzero, if_false, Keyset.Cut.below.injEq] at hcut
          rw [← hcut]
          exact H.back_le t d hback

/-- The server answers the `n`th request with the page of a query, and with a
    cursor if the page is full. -/
structure Served (P : Keyset.Scheme α Time) (view : α → β)
    (query : Nat → Option Time → List α) (state : Nat → HttpState) : Prop where
  cut : ∀ t, P.cut t = H.cut t
  refuses : ∀ n resp s', Proc.run (httpExec h) (H.request (some none)) (state n) =
    (.ok resp, s') → H.answer resp = none
  answers : ∀ n cursor, ∃ resp,
    Proc.run (httpExec h) (H.request (cursor.map some)) (state n) = (.ok resp, state (n + 1)) ∧
      H.answer resp = some ((query n (bound cursor)).map view,
        if (query n (bound cursor)).length = P.limit then
          (query n (bound cursor)).getLast?.map (fun a => H.sent (P.key a)) else none)

section Client

variable (P : Keyset.Scheme α Time) (view : α → β) (query : Nat → Option Time → List α)
  (state : Nat → HttpState) (hserved : H.Served h P view query state)

include hserved

/-- A cursor that cannot be read ends the client without a result. -/
theorem follow_refused (fuel n : Nat) : H.follow h fuel (some none) (state n) = none := by
  cases fuel with
  | zero => rfl
  | succ fuel =>
      unfold follow
      rcases hrun : Proc.run (httpExec h) (H.request (some none)) (state n) with ⟨r, s'⟩
      cases r with
      | error e => rfl
      | ok resp => simp only [hserved.refuses n resp s' hrun]

/-- The client of the server is the client of the collection, and is shown its
    items. -/
theorem follow_eq (fuel : Nat) :
    ∀ n cursor, H.follow h fuel (cursor.map some) (state n) =
      (P.follow query fuel n (bound cursor)).map (List.map view) := by
  induction fuel with
  | zero =>
      intro n cursor
      rfl
  | succ fuel ih =>
      intro n cursor
      rcases hserved.answers n cursor with ⟨resp, hrun, hanswer⟩
      unfold follow Keyset.Scheme.follow
      rw [hrun]
      simp only [hanswer]
      generalize query n (bound cursor) = page
      by_cases hfull : page.length = P.limit
      · rw [if_pos hfull, if_pos hfull]
        cases hlast : page.getLast? with
        | none =>
            -- A full page is not empty.
            rw [List.getLast?_eq_none_iff] at hlast
            rw [hlast] at hfull
            exact absurd hfull (Nat.ne_of_lt P.limit_pos)
        | some a =>
            simp only [Option.map_some, hserved.cut, cut]
            cases hback : H.back (H.sent (P.key a)) with
            | none =>
                simp only [H.follow_refused h P view query state hserved, Option.map_none]
            | some c =>
                have hnext := ih (n + 1) (some c)
                rw [Option.map_some] at hnext
                rw [hnext, bound_some]
                by_cases hzero : c = 0
                · simp [hzero, Function.comp_def, Option.map_map]
                · simp [hzero, Function.comp_def, Option.map_map]
      · rw [if_neg hfull, if_neg hfull]
        rfl

/-- A client reads every item once, the latest first, exactly if the boundaries
    are clear. -/
theorem reads_iff (items : List α)
    (hquery : ∀ n b, P.IsPage (P.select items b) (query n b)) :
    (∃ fuel rows, H.follow h fuel none (state 0) = some (rows.map view) ∧ rows.Perm items ∧
        P.Ordered rows) ↔ P.Clear (P.sortedKeys items) := by
  have hclient := fun fuel => H.follow_eq h P view query state hserved fuel 0 none
  simp only [Option.map_none] at hclient
  simp only [hclient]
  exact P.exact_iff items query hquery view

/-- A client of an empty collection reads nothing. -/
theorem follow_nil (hquery : ∀ n b, P.IsPage (P.select [] b) (query n b)) (fuel : Nat)
    (read : List β) (hread : H.follow h fuel none (state 0) = some read) : read = [] := by
  have hclient := H.follow_eq h P view query state hserved fuel 0 none
  simp only [Option.map_none] at hclient
  rw [hclient] at hread
  rcases Option.map_eq_some_iff.mp hread with ⟨rows, hrows, hview⟩
  have hnone := P.mem_of_follow [] query hquery fuel 0 _ rows hrows
  rw [List.eq_nil_iff_forall_not_mem.mpr (fun x hx => List.not_mem_nil (hnone x hx))] at hview
  exact hview.symm

/-- If the server may have to hide everything, there must be nothing to
    hide. -/
theorem reads_shown_iff (items : List α) (hidden : Bool)
    (hquery : ∀ n b, P.IsPage (P.select (if hidden then [] else items) b) (query n b)) :
    (∃ (fuel : Nat) (rows : List α), H.follow h fuel none (state 0) = some (rows.map view) ∧
        rows.Perm items ∧ P.Ordered rows) ↔
      (hidden = true → items = []) ∧ P.Clear (P.sortedKeys items) := by
  have hreads := H.reads_iff h P view query state hserved _ hquery
  cases hidden with
  | false =>
      simp only [Bool.false_eq_true, if_false] at hreads
      simp only [Bool.false_eq_true, false_imp_iff, true_and]
      exact hreads
  | true =>
      simp only [if_true] at hreads hquery
      constructor
      · rintro ⟨fuel, rows, hread, hperm, _⟩
        have hnil := H.follow_nil h P view query state hserved hquery fuel _ hread
        rw [List.map_eq_nil_iff] at hnil
        rw [hnil, List.nil_perm] at hperm
        rw [hperm]
        exact ⟨fun _ => rfl, P.clear_of_short _ (by rw [P.length_sortedKeys]; exact P.limit_pos)⟩
      · rintro ⟨hnone, hclear⟩
        rw [hnone rfl] at hclear ⊢
        exact hreads.mpr hclear

end Client

end History

/-- Times with the latest first. -/
def latestFirst (times : List Time) : List Time := times.insertionSort (fun a b => b ≤ a)

/-- Wherever a page ends, the time of its last event makes a cursor that can be
    read and that is a bound, and the next event lies before it. -/
def Separated (seen : Time → Time) (limit : Nat) (times : List Time) : Prop :=
  ∀ k, 1 ≤ k → ∀ t, (latestFirst times)[k * limit - 1]? = some t →
    (dateOf t).1 < 10000 ∧ seen t ≠ 0 ∧
      ∀ t', (latestFirst times)[k * limit]? = some t' → t' < seen t

/-- These are the clear boundaries. -/
theorem History.clear_iff {α β : Type} (H : History β) (seen : Time → Time)
    (hback : ∀ t, H.back (H.sent t) = if (dateOf t).1 < 10000 then some (seen t) else none)
    (key : α → Time) (limit : Nat) (hlimit : 0 < limit) (items : List α) :
    (H.scheme key limit hlimit).Clear ((H.scheme key limit hlimit).sortedKeys items) ↔
      Separated seen limit (items.map key) := by
  have hcut : ∀ t c, H.cut t = .below c ↔ (dateOf t).1 < 10000 ∧ seen t ≠ 0 ∧ seen t = c := by
    intro t c
    unfold cut
    rw [hback]
    by_cases hyear : (dateOf t).1 < 10000
    · by_cases hzero : seen t = 0
      · simp [hyear, hzero]
      · simp [hyear, hzero]
    · simp [hyear]
  refine forall_congr' (fun k => forall_congr' (fun _ => forall_congr' (fun t =>
    forall_congr' (fun _ => ?_))))
  constructor
  · rintro ⟨c, hbelow, hnext⟩
    rcases (hcut t c).mp hbelow with ⟨hyear, hzero, rfl⟩
    exact ⟨hyear, hzero, hnext⟩
  · rintro ⟨hyear, hzero, hnext⟩
    exact ⟨seen t, (hcut t _).mpr ⟨hyear, hzero, rfl⟩, hnext⟩

/-- What the database answers is a page, in whatever order it returns ties. -/
theorem isPage_sort {α : Type} (P : Keyset.Scheme α Time) (order : Sorter) (l : List α) :
    P.IsPage l ((order.sort (fun a b => decide (P.key b < P.key a)) l).take P.limit) := by
  refine ⟨_, order.perm _ l, ?_, rfl⟩
  have hweak : StrictWeak (fun a b => decide (P.key b < P.key a)) :=
    strictWeak_key (fun a => OrderDual.toDual (P.key a))
  refine (order.sorted _ l hweak).imp (fun hab => ?_)
  simpa using hab

/-- The condition a cursor adds to a query. -/
theorem select_bound {α : Type} (P : Keyset.Scheme α Time) (l : List α) (p : α → Bool)
    (cursor : Option Time) :
    l.filter (fun a => p a && (cursor.getD 0 == 0 || decide (P.key a < cursor.getD 0))) =
      P.select (l.filter p) (History.bound cursor) := by
  cases cursor with
  | none => simp [Keyset.Scheme.select, History.bound]
  | some c =>
      rw [History.bound_some]
      by_cases hzero : c = 0
      · simp [Keyset.Scheme.select, hzero]
      · have hbeq : (c == 0) = false := beq_eq_false_iff_ne.mpr hzero
        simp only [Option.getD_some, hbeq, Bool.false_or, if_neg hzero, Keyset.Scheme.select,
          List.filter_filter]
        exact List.filter_congr (fun a _ => Bool.and_comm _ _)

/-- On the pool nothing is seen when row-level security is enforced. -/
theorem filter_pool {α : Type} (rls : Bool) (projectID : α → String) (l : List α)
    (p : α → Bool) :
    l.filter (fun a => Conn.sees ⟨none, rls⟩ (projectID a) && p a) =
      if rls then [] else l.filter p := by
  cases rls with
  | true => simp [Conn.sees]
  | false => simp [Conn.sees]

/-! ## Limits -/

/-- Every accepted limit comes down to between one and two hundred. -/
theorem normalizeLimit_bounds (n : Int64) :
    1 ≤ (normalizeLimit n).toInt ∧ (normalizeLimit n).toInt ≤ 200 := by
  have h0 : (0 : Int64).toInt = 0 := rfl
  have h50 : (50 : Int64).toInt = 50 := rfl
  have h200 : (200 : Int64).toInt = 200 := rfl
  have hfifty : ¬ (50 : Int64) > 200 := by decide
  unfold normalizeLimit
  by_cases hsmall : n ≤ 0
  · simp only [if_pos hsmall, if_neg hfifty, h50]
    omega
  · by_cases hbig : n > 200
    · simp only [if_neg hsmall, if_pos hbig, h200]
      omega
    · simp only [if_neg hsmall, if_neg hbig]
      rw [Int64.le_iff_toInt_le] at hsmall
      rw [gt_iff_lt, Int64.lt_iff_toInt_lt] at hbig
      omega

theorem normalizeLimit_of_bounds (n : Int64) (hpos : 1 ≤ n.toInt) (hle : n.toInt ≤ 200) :
    normalizeLimit n = n := by
  have h0 : (0 : Int64).toInt = 0 := rfl
  have h200 : (200 : Int64).toInt = 200 := rfl
  have hsmall : ¬ n ≤ 0 := by
    rw [Int64.le_iff_toInt_le]
    omega
  have hbig : ¬ n > 200 := by
    rw [gt_iff_lt, Int64.lt_iff_toInt_lt]
    omega
  simp only [normalizeLimit, if_neg hsmall, if_neg hbig]

/-- Applied twice, the defaults change nothing more. -/
theorem normalizeLimit_idem (n : Int64) : normalizeLimit (normalizeLimit n) = normalizeLimit n :=
  normalizeLimit_of_bounds _ (normalizeLimit_bounds n).1 (normalizeLimit_bounds n).2

/-- A page is recognised as full when it is. -/
theorem ofNat_eq_limit (n : Int64) (length : Nat)
    (hle : length ≤ (normalizeLimit n).toNatClampNeg) :
    Int64.ofNat length = normalizeLimit n ↔ length = (normalizeLimit n).toNatClampNeg := by
  have hbounds := normalizeLimit_bounds n
  have hnat : (normalizeLimit n).toInt.toNat = (normalizeLimit n).toNatClampNeg := rfl
  rw [← Int64.toInt_inj, Int64.toInt_ofNat_of_lt (by omega)]
  omega

/-! ## Requests -/

/-- The state once some requests have been answered: the database is as it
    was. -/
def afterRequests (perRequest : Nat) (s : HttpState) (k : Nat) : HttpState :=
  { s with world := { s.world with calls := s.world.calls + perRequest * k } }

theorem afterRequests_succ (perRequest : Nat) (s : HttpState) (k : Nat) :
    afterRequests perRequest s (k + 1) =
      { afterRequests perRequest s k with
        world :=
          { (afterRequests perRequest s k).world with
            calls := (afterRequests perRequest s k).world.calls + perRequest } } := by
  unfold afterRequests
  rw [Nat.mul_succ, ← Nat.add_assoc]

/-- A query that answers. -/
theorem run_call_query (h : Host) (hfails : ∀ k, h.fails k = false) (ctx : Ctx) (op : Op)
    (w : World) (st : Stmt op.Ret) (a : op.Ret)
    (hop : op.perform h ⟨ctx.tenant, h.rls⟩ w = w.onStore st)
    (hst : st w.store = .ok (a, w.store)) :
    Proc.run (exec h) (ctx.call op) w = (.ok a, w.tick) := by
  rw [Ctx.call, Proc.run_call, exec_passing h ⟨ctx.tenant, op⟩ w (hfails _), hop, World.onStore,
    hst]

/-- A lookup of a project. -/
theorem run_getBySlug (h : Host) (hfails : ∀ k, h.fails k = false) (ctx : Ctx) (projSlug : String)
    (proj : Project) (w : World) (hproj : w.store.projectAt projSlug = some proj) :
    Proc.run (exec h) (ProjectService.getBySlug ctx projSlug) w = (.ok proj, w.tick) := by
  refine run_call_query h hfails ctx (.projectBySlug projSlug) w _ proj rfl ?_
  unfold Store.projectAt at hproj
  simp only [projectBySlug, queryRow, hproj]

/-- A server whose database never fails. -/
def readerHost : HttpHost where
  host := Host.steady
  verify _ := .error .invalid
  commits := true
  evalRateLimiter := ⟨1, 1⟩

/-- A viewer. -/
def reader : Ctx := ⟨some ⟨"u1", .viewer⟩, none⟩

/-- A time in the year 2024, in microseconds after its first second. -/
def in2024 (microseconds : Nat) : Time := 63839664000 * second + microseconds * 1000

end Cuttlegate
