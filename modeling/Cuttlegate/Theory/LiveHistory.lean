import Cuttlegate.Adapters.Retention
import Cuttlegate.Lib.MovingPages
import Cuttlegate.Theory.EvaluationPages

/-!
# A History That Is Written While It Is Read

A client that follows the cursors of the evaluations of a flag while others are
recorded and the worker deletes old ones. Each request finds the table as it is
at the time.

The client still comes to an end. It reads nothing twice, the latest first, and
nothing that was not recorded. It reads every evaluation that was there at its
first request and that the worker has not been about to delete, unless that
shares a second with one that it reads (`evaluation_pages_live`). So it does no
worse than a client of a table that nobody writes to.

What else happens between two requests is not restricted, as long as the path
of the requests still leads to the flag.

## Main definitions

* `History.followAmid`: A client of a server whose state changes.
* `liveRows`: The table at each request.

## Theorems

* `History.followAmid_eq`: The client is the one of `Keyset`.
* `evaluation_pages_live`: What it reads.
-/

namespace Cuttlegate

namespace History

variable {α β : Type} (H : History β) (h : HttpHost)

/-- A client that hands every cursor back, for a bounded number of requests. The
    state of the server at each request is given. -/
def followAmid (state : Nat → HttpState) : Nat → Nat → TimeParam → Option (List β)
  | 0, _, _ => none
  | fuel + 1, n, cursor =>
      match (Proc.run (httpExec h) (H.request cursor) (state n)).1 with
      | .error _ => none
      | .ok resp =>
          match H.answer resp with
          | none => none
          | some (items, none) => some items
          | some (items, some t) =>
              (followAmid state fuel (n + 1) (some (H.back t))).map (items ++ ·)

/-- The server answers the `n`th request with the page of a query, and with a
    cursor if the page is full. -/
structure ServedAmid (P : Keyset.Scheme α Time) (view : α → β)
    (query : Nat → Option Time → List α) (state : Nat → HttpState) : Prop where
  cut : ∀ t, P.cut t = H.cut t
  refuses : ∀ n resp, (Proc.run (httpExec h) (H.request (some none)) (state n)).1 = .ok resp →
    H.answer resp = none
  answers : ∀ n cursor, ∃ resp,
    (Proc.run (httpExec h) (H.request (cursor.map some)) (state n)).1 = .ok resp ∧
      H.answer resp = some ((query n (bound cursor)).map view,
        if (query n (bound cursor)).length = P.limit then
          (query n (bound cursor)).getLast?.map (fun a => H.sent (P.key a)) else none)

section Client

variable (P : Keyset.Scheme α Time) (view : α → β) (query : Nat → Option Time → List α)
  (state : Nat → HttpState) (hserved : H.ServedAmid h P view query state)

include hserved

/-- A cursor that cannot be read ends the client without a result. -/
theorem followAmid_refused (fuel n : Nat) : H.followAmid h state fuel n (some none) = none := by
  cases fuel with
  | zero => rfl
  | succ fuel =>
      unfold followAmid
      cases hrun : (Proc.run (httpExec h) (H.request (some none)) (state n)).1 with
      | error e => rfl
      | ok resp => simp only [hserved.refuses n resp hrun]

/-- The client of the server is the client of the collection, and is shown its
    items. -/
theorem followAmid_eq (fuel : Nat) :
    ∀ n cursor, H.followAmid h state fuel n (cursor.map some) =
      (P.follow query fuel n (bound cursor)).map (List.map view) := by
  induction fuel with
  | zero =>
      intro n cursor
      rfl
  | succ fuel ih =>
      intro n cursor
      rcases hserved.answers n cursor with ⟨resp, hrun, hanswer⟩
      unfold followAmid Keyset.Scheme.follow
      rw [hrun]
      simp only [hanswer]
      generalize query n (bound cursor) = page
      by_cases hfull : page.length = P.limit
      · rw [if_pos hfull, if_pos hfull]
        cases hlast : page.getLast? with
        | none =>
            -- A full page is not empty.
            rw [List.getLast?_eq_none_iff] at hlast
            rw [hlast] at hfull
            exact absurd hfull (Nat.ne_of_lt P.limit_pos)
        | some a =>
            simp only [Option.map_some, hserved.cut, cut]
            cases hback : H.back (H.sent (P.key a)) with
            | none =>
                simp only [H.followAmid_refused h P view query state hserved, Option.map_none]
            | some c =>
                have hnext := ih (n + 1) (some c)
                rw [Option.map_some] at hnext
                rw [hnext, bound_some]
                by_cases hzero : c = 0
                · simp [hzero, Function.comp_def, Option.map_map]
                · simp [hzero, Function.comp_def, Option.map_map]
      · rw [if_neg hfull, if_neg hfull]
        rfl

end Client

end History

/-! ## The table -/

/-- The table at each request. What happens before the next request is given. -/
def liveRows (c : Conn) (retentionDays : Nat) (rows : List EvaluationEvent)
    (acts : Nat → List EvaluationRows.Act) : Nat → List EvaluationEvent
  | 0 => rows
  | n + 1 => EvaluationRows.after c retentionDays (liveRows c retentionDays rows acts n) (acts n)

/-- What is recorded before a request. -/
def publishedBefore (acts : Nat → List EvaluationRows.Act) : Nat → List EvaluationEvent
  | 0 => []
  | n + 1 => publishedBefore acts n ++ EvaluationRows.published (acts n)

section Table

variable (c : Conn) (retentionDays : Nat) (rows : List EvaluationEvent)
  (acts : Nat → List EvaluationRows.Act)

theorem liveRows_sublist (n : Nat) :
    (liveRows c retentionDays rows acts n).Sublist (rows ++ publishedBefore acts n) := by
  induction n with
  | zero => exact List.sublist_append_left rows []
  | succ n ih =>
      refine (EvaluationRows.after_sublist c retentionDays _ (acts n)).trans ?_
      rw [publishedBefore, ← List.append_assoc]
      exact List.Sublist.append_right ih _

theorem mem_publishedBefore (n : Nat) (e : EvaluationEvent) (he : e ∈ publishedBefore acts n) :
    ∃ m, e ∈ EvaluationRows.published (acts m) := by
  induction n with
  | zero => exact absurd he List.not_mem_nil
  | succ n ih =>
      rcases List.mem_append.mp he with he | he
      · exact ih he
      · exact ⟨n, he⟩

theorem mem_liveRows (e : EvaluationEvent) (he : e ∈ rows) (n : Nat)
    (hyoung : ∀ m, m < n → ∀ now fails, .tick now fails ∈ acts m →
      daysBefore retentionDays now ≤ e.occurredAt) :
    e ∈ liveRows c retentionDays rows acts n := by
  induction n with
  | zero => exact he
  | succ n ih =>
      have hbefore := ih (fun m hm => hyoung m (Nat.lt_succ_of_lt hm))
      exact EvaluationRows.mem_after c retentionDays _ (acts n) e hbefore
        (hyoung n (Nat.lt_succ_self n))

end Table

/-! ## The client -/

section Evaluations

variable (h : HttpHost) (ctx : Ctx) (projSlug envSlug key projectID environmentID : String)
  (ac : AuthContext)

/-- The path of the requests leads to the flag. -/
def LeadsTo (s : HttpState) : Prop :=
  (s.tx = none ∨ s.tx = some none) ∧ ∃ proj env flag,
    Resolves h ctx projSlug envSlug key proj env flag s.world.store ∧
      proj.id = projectID ∧ env.id = environmentID

/-- The rows the database returns for a request. -/
def livePage (w : World) (b : Option Time) : List EvaluationEvent :=
  ((h.host.order (w.calls + 3)).sort (fun a b => decide (b.occurredAt < a.occurredAt))
    ((evaluationScheme ctx projSlug envSlug key).select
      (if h.host.rls then [] else w.evaluationsOf projectID environmentID key) b)).take 50

/-- A cursor that can be read and is a bound. -/
theorem evaluationScheme_cut (t : Time) (hyear : (dateOf t).1 < 10000) (hzero : toSecond t ≠ 0) :
    (evaluationScheme ctx projSlug envSlug key).cut t = .below (toSecond t) := by
  simp only [evaluationScheme, History.scheme, History.cut, evaluationHistory_back, if_pos hyear,
    if_neg hzero]

variable (hfails : ∀ k, h.host.fails k = false) (hrole : requireRole ctx.auth .viewer = .ok ac)

include hfails hrole in
/-- Whatever the state is, the request is answered from it. -/
theorem evaluationHistory_servedAmid (state : Nat → HttpState)
    (hpath : ∀ n, LeadsTo h ctx projSlug envSlug key projectID environmentID (state n)) :
    (evaluationHistory ctx projSlug envSlug key).ServedAmid h
      (evaluationScheme ctx projSlug envSlug key) EvaluationEvent.shown
      (fun n => livePage h ctx projSlug envSlug key projectID environmentID (state n).world)
      state where
  cut := by
    intro t
    simp only [evaluationScheme, History.scheme]
  refuses := by
    intro n resp hrun
    rcases hpath n with ⟨htx, proj, env, flag, hresolves, _, _⟩
    rw [evaluationHistory_refuses h ctx projSlug envSlug key proj env hfails (state n) htx
      hresolves.project hresolves.environment, Except.ok.injEq] at hrun
    rw [← hrun]
    rfl
  answers := by
    intro n cursor
    rcases hpath n with ⟨htx, proj, env, flag, hresolves, hproj, henv⟩
    rcases evaluationHistory_answers h ctx projSlug envSlug key proj env flag ac hfails hrole
      (state n) htx hresolves.project hresolves.environment hresolves.flag cursor _ rfl with
      ⟨resp, hrun, hanswer⟩
    unfold evaluationPage at hanswer
    rw [hproj, henv] at hanswer
    exact ⟨resp, by rw [hrun], hanswer⟩

include hfails hrole in
/-- While evaluations are recorded and old ones deleted, a client that follows
    the cursors comes to an end. It has read nothing twice and the latest first,
    and of what was there at its first request and was never old enough to be
    deleted, it has missed nothing but what shares a second with what it has
    read. -/
theorem evaluation_pages_live (hrls : h.host.rls = false) (retentionDays : Nat)
    (rows : List EvaluationEvent) (acts : Nat → List EvaluationRows.Act) (state : Nat → HttpState)
    (hpath : ∀ n, LeadsTo h ctx projSlug envSlug key projectID environmentID (state n))
    (htable : ∀ n, (state n).world.evaluations.map Prod.snd =
      liveRows ⟨none, h.host.rls⟩ retentionDays rows acts n)
    (honce : ∀ n, (rows ++ publishedBefore acts n).Nodup)
    (htimes : ∀ e, e ∈ rows ∨ (∃ n, e ∈ EvaluationRows.published (acts n)) →
      (dateOf e.occurredAt).1 < 10000 ∧ toSecond e.occurredAt ≠ 0) :
    (∃ fuel read, (evaluationHistory ctx projSlug envSlug key).followAmid h state fuel 0 none =
      some read) ∧
    ∀ fuel read, (evaluationHistory ctx projSlug envSlug key).followAmid h state fuel 0 none =
      some read → ∃ events : List EvaluationEvent, read = events.map EvaluationEvent.shown ∧
        events.Nodup ∧ events.Pairwise (fun a b => b.occurredAt ≤ a.occurredAt) ∧
        (∀ e ∈ events, (e.projectID = projectID ∧ e.environmentID = environmentID ∧
          e.flagKey = key) ∧ (e ∈ rows ∨ ∃ n, e ∈ EvaluationRows.published (acts n))) ∧
        ∀ e ∈ rows, e.projectID = projectID → e.environmentID = environmentID →
          e.flagKey = key →
          (∀ n, n + 1 < fuel → ∀ now fails, .tick now fails ∈ acts n →
            daysBefore retentionDays now ≤ e.occurredAt) →
          e ∈ events ∨ ∃ x ∈ events, toSecond x.occurredAt ≤ e.occurredAt ∧
            e.occurredAt ≤ x.occurredAt := by
  have hclient := fun fuel => (evaluationHistory ctx projSlug envSlug key).followAmid_eq h
    (evaluationScheme ctx projSlug envSlug key) EvaluationEvent.shown _ state
    (evaluationHistory_servedAmid h ctx projSlug envSlug key projectID environmentID ac hfails
      hrole state hpath) fuel 0 none
  simp only [Option.map_none] at hclient
  -- What each request can find.
  let items : Nat → List EvaluationEvent := fun n =>
    (state n).world.evaluationsOf projectID environmentID key
  have hitems : ∀ n, ∀ e ∈ items n, e ∈ liveRows ⟨none, h.host.rls⟩ retentionDays rows acts n ∧
      e.projectID = projectID ∧ e.environmentID = environmentID ∧ e.flagKey = key := by
    intro n e he
    rcases List.mem_filter.mp he with ⟨hin, hflag⟩
    rw [htable] at hin
    simp only [Bool.and_eq_true, beq_iff_eq] at hflag
    exact ⟨hin, hflag.1.1, hflag.1.2, hflag.2⟩
  have hrecorded : ∀ n, ∀ e ∈ items n, e ∈ rows ∨ ∃ m, e ∈ EvaluationRows.published (acts m) := by
    intro n e he
    have hin := (liveRows_sublist _ retentionDays rows acts n).subset (hitems n e he).1
    rcases List.mem_append.mp hin with hin | hin
    · exact .inl hin
    · exact .inr (mem_publishedBefore acts n e hin)
  have hcut : ∀ n, ∀ e ∈ items n, (evaluationScheme ctx projSlug envSlug key).cut e.occurredAt =
      .below (toSecond e.occurredAt) := fun n e he =>
    evaluationScheme_cut ctx projSlug envSlug key e.occurredAt
      (htimes e (hrecorded n e he)).1 (htimes e (hrecorded n e he)).2
  have hall : ∀ n, ∀ e ∈ items n, (evaluationScheme ctx projSlug envSlug key).cut
      ((evaluationScheme ctx projSlug envSlug key).key e) ≠ .all := by
    intro n e he hcontra
    have hbelow := hcut n e he
    change (evaluationScheme ctx projSlug envSlug key).cut e.occurredAt = .all at hcontra
    rw [hbelow] at hcontra
    cases hcontra
  have hquery : ∀ n b, (evaluationScheme ctx projSlug envSlug key).IsPage
      ((evaluationScheme ctx projSlug envSlug key).select (items n) b)
      (livePage h ctx projSlug envSlug key projectID environmentID (state n).world b) := by
    intro n b
    have hpage := isPage_sort (evaluationScheme ctx projSlug envSlug key)
      (h.host.order ((state n).world.calls + 3))
      ((evaluationScheme ctx projSlug envSlug key).select (items n) b)
    unfold livePage
    rw [hrls]
    exact hpage
  have hnodup : ∀ n, (items n).Nodup := by
    intro n
    refine List.Nodup.filter _ ?_
    rw [htable]
    exact (honce n).sublist (liveRows_sublist _ retentionDays rows acts n)
  refine ⟨?_, fun fuel read hread => ?_⟩
  · rcases (evaluationScheme ctx projSlug envSlug key).moving_ends items _ hquery
      (fun n e he => ⟨_, hcut n e he⟩) 0 none with ⟨fuel, events, hevents⟩
    refine ⟨fuel, events.map EvaluationEvent.shown, ?_⟩
    rw [hclient, show History.bound none = none from rfl, hevents, Option.map_some]
  · rw [hclient] at hread
    rcases Option.map_eq_some_iff.mp hread with ⟨events, hevents, hshown⟩
    rcases (evaluationScheme ctx projSlug envSlug key).moving_sound items _ hquery hall fuel 0 _
      events hevents with ⟨hordered, hsound⟩
    refine ⟨events, hshown.symm, (evaluationScheme ctx projSlug envSlug key).moving_nodup items _
      hquery hall hnodup fuel 0 _ events hevents, hordered, fun e he => ?_, ?_⟩
    · rcases (hsound e he).2 with ⟨m, _, hin⟩
      exact ⟨(hitems m e hin).2, hrecorded m e hin⟩
    · intro e he hproj henv hflag hyoung
      have hthere : ∀ m, 0 ≤ m → m < 0 + fuel → e ∈ items m := by
        intro m _ hm
        refine List.mem_filter.mpr ⟨?_, by simp [hproj, henv, hflag]⟩
        rw [htable]
        exact mem_liveRows _ retentionDays rows acts e he m
          (fun n hn => hyoung n (by omega))
      rcases (evaluationScheme ctx projSlug envSlug key).moving_complete items _ hquery hall fuel
        0 _ events hevents e hthere (fun c hc => nomatch hc) with hread | ⟨x, hx, c, hbelow, hle⟩
      · exact .inl hread
      · rcases (hsound x hx).2 with ⟨m, _, hin⟩
        have hsecond := (hcut m x hin).symm.trans hbelow
        cases hsecond
        exact .inr ⟨x, hx, hle⟩

end Evaluations

/-- An evaluation of a flag. -/
def darkAt (i : Nat) (t : Time) : EvaluationEvent :=
  ⟨sampleUUID i, "dark", "p1", "e1", "u2", "", "", "false", .default, t⟩

/-- Between the first two requests an evaluation is recorded and the worker
    wakes up. -/
def liveActs : Nat → List EvaluationRows.Act
  | 0 => [.publish (darkAt 1 (in2024 3000000)), .tick (in2024 4000000) false]
  | _ + 1 => []

def liveTable : Nat → List EvaluationEvent :=
  liveRows ⟨none, false⟩ 30 [darkAt 0 (in2024 1000000)] liveActs

def liveState (n : Nat) : HttpState :=
  { evaluatedAt [] with
    world := { (evaluatedAt []).world with evaluations := (liveTable n).map (fun e => ("f1", e)) } }

theorem publishedBefore_live (n : Nat) :
    publishedBefore liveActs (n + 1) = [darkAt 1 (in2024 3000000)] := by
  induction n with
  | zero => rfl
  | succ n ih =>
      rw [publishedBefore, ih]
      rfl

/-- The evaluation that is there from the beginning is read. -/
theorem evaluation_pages_live_two :
    ∃ (fuel : Nat) (events : List EvaluationEvent),
      (evaluationHistory reader "shop" "prod" "dark").followAmid readerHost liveState
        fuel 0 none = some (events.map EvaluationEvent.shown) ∧
      events.Nodup ∧ (darkAt 0 (in2024 1000000) ∈ events ∨ ∃ x ∈ events,
        toSecond x.occurredAt ≤ in2024 1000000 ∧ in2024 1000000 ≤ x.occurredAt) := by
  have hlive := evaluation_pages_live readerHost reader "shop" "prod" "dark" "p1" "e1"
    ⟨"u1", .viewer⟩ (fun _ => rfl) rfl rfl 30 [darkAt 0 (in2024 1000000)] liveActs liveState
    (fun n => ⟨.inl rfl, _, _, _, evaluatedAt_resolves [], rfl, rfl⟩)
    (fun n => by
      change ((liveTable n).map (fun e => ("f1", e))).map Prod.snd = _
      rw [List.map_map]
      exact List.map_id _)
    (fun n => by
      cases n with
      | zero => decide +kernel
      | succ n =>
          rw [publishedBefore_live]
          decide +kernel)
    (fun e he => by
      have hone : e = darkAt 0 (in2024 1000000) ∨ e = darkAt 1 (in2024 3000000) := by
        rcases he with he | ⟨n, he⟩
        · exact .inl (List.mem_singleton.mp he)
        · cases n with
          | zero => exact .inr (List.mem_singleton.mp he)
          | succ n => exact absurd he List.not_mem_nil
      rcases hone with rfl | rfl
      · decide +kernel
      · decide +kernel)
  rcases hlive.1 with ⟨fuel, read, hread⟩
  rcases hlive.2 fuel read hread with ⟨events, hshown, hnodup, _, _, hcomplete⟩
  refine ⟨fuel, events, hshown ▸ hread, hnodup, hcomplete _ (List.mem_singleton.mpr rfl) rfl rfl rfl
    (fun n _ now fails htick => ?_)⟩
  -- The worker wakes up three seconds after the evaluation.
  cases n with
  | zero =>
      have hnow : now = in2024 4000000 ∧ fails = false := by simpa [liveActs] using htick
      rw [hnow.1]
      decide +kernel
  | succ n => exact absurd htick List.not_mem_nil

end Cuttlegate
