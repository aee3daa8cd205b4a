import Cuttlegate.Theory.Batch

/-!
# Pre-loading Segments

The service asks the database only about the segments its rules name, one by
one, and hands the evaluator those that exist and contain the user. The
evaluator does no lookups of its own, and to it a segment that is not in the
set is one the user is not in.

Against the full set of the segments of the project that contain the user,
nothing is lost: the evaluator asks about a segment only if a condition names
it, the conditions it asks about are those the loader collects from, and for a
named segment the two lookups answer what the full set answers. A segment that
is gone is in neither set.

## Main definitions

* `SegmentTable`: What the schema promises about segments.
* `segmentSlugs`: The slugs of the project's segments that contain a user.

## Theorems

* `mem_segmentSlugs_iff`: The lookups decide membership in the full set.
* `agreeOn_resolved`: On every condition, the two sets agree.
* `resolveSegments_lossless`: Evaluation with either set is the same.
-/

namespace Cuttlegate

/-- The constraints of the segment table: ids are UUIDs in the spelling of the
    database, and a slug names one segment of a project. -/
structure SegmentTable (uuid : String → Option String) (s : Store) : Prop where
  ids : ∀ g ∈ s.segments, uuid g.id = some g.id
  slugs : ∀ g ∈ s.segments, ∀ g' ∈ s.segments, g.projectID = g'.projectID → g.slug = g'.slug →
    g = g'

/-- Whether a user is a member of a segment. -/
def Store.hasMember (s : Store) (g : Segment) (userKey : String) : Bool :=
  s.segmentMembers.any (fun m => m.segmentID == g.id && m.userKey == userKey)

/-- The slugs of the existing segments of the project that contain the user. -/
def segmentSlugs (s : Store) (projectID userKey : String) : List String :=
  (s.segments.filter (fun g => g.projectID == projectID && s.hasMember g userKey)).map (·.slug)

/-- On a connection of the project, looking a slug up and asking for the user
    decides membership in the full set. -/
theorem mem_segmentSlugs_iff (uuid : String → Option String) (conn : Conn) (s : Store)
    (hs : SegmentTable uuid s) (projectID userKey slug : String)
    (hsees : conn.sees projectID = true) :
    inSegment conn s projectID userKey slug = true ↔ slug ∈ segmentSlugs s projectID userKey := by
  have hrow : ∀ g : Segment, (conn.sees g.projectID && g.projectID == projectID && g.slug == slug)
      = true ↔ g.projectID = projectID ∧ g.slug = slug := by
    intro g
    simp only [Bool.and_eq_true, beq_iff_eq]
    exact ⟨fun h => ⟨h.1.2, h.2⟩, fun h => ⟨⟨h.1 ▸ hsees, h.1⟩, h.2⟩⟩
  have hmem : slug ∈ segmentSlugs s projectID userKey ↔ ∃ g ∈ s.segments,
      (g.projectID = projectID ∧ g.slug = slug) ∧ s.hasMember g userKey = true := by
    simp only [segmentSlugs, List.mem_map, List.mem_filter, Bool.and_eq_true, beq_iff_eq]
    constructor
    · rintro ⟨g, ⟨hg, hproject, hin⟩, hslug⟩
      exact ⟨g, hg, ⟨hproject, hslug⟩, hin⟩
    · rintro ⟨g, hg, ⟨hproject, hslug⟩, hin⟩
      exact ⟨g, ⟨hg, hproject, hin⟩, hslug⟩
  rw [hmem]
  unfold inSegment
  cases hfind : s.segments.find? (fun g =>
      conn.sees g.projectID && g.projectID == projectID && g.slug == slug) with
  | none =>
      -- No segment of the project has the slug.
      refine ⟨fun h => (nomatch h), ?_⟩
      rintro ⟨g, hg, hnamed, _⟩
      exact absurd ((hrow g).mpr hnamed) (List.find?_eq_none.mp hfind g hg)
  | some found =>
      have hhit := List.find?_some hfind
      have hfound := (hrow found).mp hhit
      have hin := List.mem_of_find?_eq_some hfind
      constructor
      · exact fun hmember => ⟨found, hin, hfound, hmember⟩
      · rintro ⟨g, hg, hnamed, hmember⟩
        have hsame : found = g := hs.slugs found hin g hg (hfound.1.trans hnamed.1.symm)
          (hfound.2.trans hnamed.2.symm)
        rw [hsame]
        exact hmember

/-- A connection of another tenant finds no segment of the project. -/
theorem inSegment_unseen (conn : Conn) (s : Store) (projectID userKey slug : String)
    (hsees : conn.sees projectID = false) : inSegment conn s projectID userKey slug = false := by
  have hnone : s.segments.find? (fun g =>
      conn.sees g.projectID && g.projectID == projectID && g.slug == slug) = none := by
    refine List.find?_eq_none.mpr (fun g _ hrow => ?_)
    simp only [Bool.and_eq_true, beq_iff_eq] at hrow
    rw [hrow.1.2, hsees] at hrow
    exact absurd hrow.1.1 Bool.false_ne_true
  unfold inSegment
  rw [hnone]

/-- A segment a condition asks about is one the loader collects. -/
theorem mem_segmentRefs (rules : List Rule) (r : Rule) (hr : r ∈ rules) (c : Condition)
    (hc : c ∈ r.conditions) (hop : c.isSegmentOp = true) (slug : String)
    (hslug : c.values.head? = some slug) : slug ∈ segmentRefs rules := by
  unfold segmentRefs
  rw [List.mem_eraseDups, List.mem_flatMap]
  refine ⟨r, hr, List.mem_filterMap.mpr ⟨c, hc, ?_⟩⟩
  rw [Condition.segmentRef, if_pos hop, hslug]

/-- The loaded segments and a set they were selected by agree on every
    condition of the rules. -/
theorem agreeOn_resolved (rules : List Rule) (segs full : List String)
    (hsegs : ∀ slug, slug ∈ segs ↔ slug ∈ segmentRefs rules ∧ slug ∈ full) :
    ∀ r ∈ rules, ∀ c ∈ r.conditions, c.AgreeOn segs full := by
  intro r hr c hc hop slug hslug
  rw [hsegs slug]
  exact ⟨fun h => h.2, fun h => ⟨mem_segmentRefs rules r hr c hc hop slug hslug, h⟩⟩

/-- Pre-loading loses nothing. On a database that fails no operation, resolving
    the segments of any rules answers, in whatever order the names are gone
    through, and evaluating with the answer is evaluating with the slugs of all
    existing segments of the project that contain the user. On the connection
    of another tenant no segment exists, and it is evaluating with none. -/
theorem resolveSegments_lossless (h : Host) (hfails : ∀ n, h.fails n = false) (ctx : Ctx)
    (w : World) (hs : SegmentTable h.uuid w.store)
    (projectID flagID environmentID userKey : String) (rules : List Rule) :
    ∃ segs, (Proc.run (exec h)
        (resolveSegments ctx projectID flagID environmentID rules userKey) w).1 = .ok segs ∧
      ∀ (srt : Sorter) (flag : Flag) (state : Option FlagEnvironmentState) (evalCtx : EvalContext),
        evaluate srt flag state rules evalCtx segs =
          evaluate srt flag state rules evalCtx
            (if Conn.sees ⟨ctx.tenant, h.rls⟩ projectID = true
              then segmentSlugs w.store projectID userKey else []) := by
  have hends := resolveSegments_ends h hfails ctx w.store hs.ids projectID flagID environmentID
    rules userKey w ⟨rfl, rfl, rfl, rfl, rfl⟩
  rcases hends.1 with ⟨segs, hrun, hsegs⟩
  refine ⟨segs, hrun, fun srt flag state evalCtx => ?_⟩
  refine evaluate_segments_congr srt flag state rules evalCtx segs _
    (agreeOn_resolved rules segs _ (fun slug => ?_))
  rw [hsegs slug]
  by_cases hsees : Conn.sees ⟨ctx.tenant, h.rls⟩ projectID = true
  · rw [if_pos hsees, mem_segmentSlugs_iff h.uuid _ w.store hs projectID userKey slug hsees]
  · rw [if_neg hsees, inSegment_unseen _ w.store projectID userKey slug (by simpa using hsees)]
    simp

/-- A shop with one segment, of which one user is a member. -/
def shopWithBeta : World where
  store := {
    segments := [⟨sampleUUID 1, "beta", "Beta", "shop", 0⟩]
    segmentMembers := [⟨sampleUUID 1, "u1", 0⟩] }

/-- A rule for members of the segment who are not in one that is gone. -/
def betaRule : Rule where
  id := "r3"
  flagID := "f1"
  environmentID := "e1"
  name := "beta"
  priority := 3
  conditions := [⟨"", .inSegment, ["beta"]⟩, ⟨"", .notInSegment, ["gone"]⟩]
  variantKey := "true"
  rollout := []
  enabled := true
  createdAt := 0

theorem shopWithBeta_segments : SegmentTable Host.steady.uuid shopWithBeta.store := by
  refine ⟨fun g hg => ?_, fun g hg g' hg' _ _ => ?_⟩
  · rw [List.mem_singleton.mp hg]
    simp only [Host.steady, if_pos (sampleUUID_canonical 1 (by decide))]
  · rw [List.mem_singleton.mp hg, List.mem_singleton.mp hg']

/-- The member gets the variant of the rule from the loaded segments, since
    that is what the full set gives. -/
theorem resolveSegments_lossless_beta :
    ∃ segs, (Proc.run (exec Host.steady)
        (resolveSegments ⟨none, none⟩ "shop" "f1" "e1" [betaRule] "u1") shopWithBeta).1 = .ok segs ∧
      evaluate Sorter.insertion darkMode (some ⟨"f1", "e1", true⟩) [betaRule]
        ⟨"u1", fun _ => none⟩ segs = .ok ⟨"true", .ruleMatch, "r3", "beta"⟩ := by
  rcases resolveSegments_lossless Host.steady (fun _ => rfl) ⟨none, none⟩ shopWithBeta
    shopWithBeta_segments "shop" "f1" "e1" "u1" [betaRule] with ⟨segs, hrun, hsame⟩
  refine ⟨segs, hrun, (hsame Sorter.insertion darkMode _ ⟨"u1", fun _ => none⟩).trans ?_⟩
  decide +kernel

end Cuttlegate
