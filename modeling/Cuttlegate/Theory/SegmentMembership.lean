import Cuttlegate.Adapters.Routes
import Cuttlegate.Store.Statements

/-!
# Replacing the Members of a Segment

Whether setting the members of a segment makes exactly the given users its
members.

The members are deleted and inserted again in a transaction, so a failure at
any statement leaves them as they were. The inserts are plain ones under a
primary key of segment and user: a key that occurs twice in the list violates
it and fails the whole request, although the handler lets such a list through.
So does a text the database cannot hold as a key. Every other list replaces the
members.

## Main definitions

* `ReplacesMembers`: What the members are after a replacement.
* `SetsMembers`: What is expected of the replacement.

## Theorems

* `replacesMembers`: A replacement in which no key repeats does it.
* `setMembers_sets_iff`: When the replacement does what is expected of it.
* `setMembers_repeated`: It fails for a key that repeats.
-/

namespace Cuttlegate

/-- The members of a segment are the given users, each of whom is listed once,
    and nothing else has changed. -/
structure ReplacesMembers (uuid : String → Option String) (segmentID : String)
    (userKeys : List String) (s s' : Store) : Prop where
  member : ∀ k, isMember uuid segmentID k s' = .ok (decide (k ∈ userKeys), s')
  listed : ∀ order, ∃ members,
    listSegmentMembers uuid order segmentID s' = .ok (members, s') ∧ members.Nodup ∧
      ∀ k, k ∈ members ↔ k ∈ userKeys
  others : ∀ id, uuid segmentID ≠ some id →
    s'.segmentMembers.filter (fun m => m.segmentID == id) =
      s.segmentMembers.filter (fun m => m.segmentID == id)
  rest : { s' with segmentMembers := s.segmentMembers } = s

/-- What is expected of the replacement: without a failure from outside it
    succeeds, when it succeeds the members are replaced, and when it fails, at
    whatever call, nothing has changed. -/
structure SetsMembers (uuid : String → Option String) (takes : String → Bool) (now : Time)
    (segmentID : String) (userKeys : List String) (s : Store) : Prop where
  succeeds : ∃ s', setMembers uuid takes now (fun _ => false) segmentID userKeys s = (.ok (), s')
  replaces : ∀ fails s', setMembers uuid takes now fails segmentID userKeys s = (.ok (), s') →
    ReplacesMembers uuid segmentID userKeys s s'
  atomic : ∀ fails e s', setMembers uuid takes now fails segmentID userKeys s = (.error e, s') →
    s' = s

section Members

variable (uuid : String → Option String) (takes : String → Bool) (now : Time)

/-- The rows of a segment after its members were dropped and given anew. -/
theorem filter_withMembers_self (s : Store) (id : String) (userKeys : List String) :
    ((s.dropMembers id).withMembers now id userKeys).segmentMembers.filter
        (fun m => m.segmentID == id) = userKeys.map (fun key => ⟨id, key, now⟩) := by
  simp only [Store.withMembers, Store.dropMembers, List.filter_append, List.filter_filter]
  have hold : s.segmentMembers.filter (fun m => m.segmentID == id && m.segmentID != id) = [] := by
    rw [List.filter_eq_nil_iff]
    intro m _
    cases hm : m.segmentID == id <;> simp [bne, hm]
  have hnew : (userKeys.map (fun key => SegmentMember.mk id key now)).filter
      (fun m => m.segmentID == id) = userKeys.map (fun key => ⟨id, key, now⟩) := by
    rw [List.filter_eq_self]
    intro m hm
    rcases List.mem_map.mp hm with ⟨key, _, rfl⟩
    exact beq_self_eq_true id
  rw [hold, hnew, List.nil_append]

theorem filter_withMembers_other (s : Store) (id other : String) (userKeys : List String)
    (hother : id ≠ other) :
    ((s.dropMembers id).withMembers now id userKeys).segmentMembers.filter
        (fun m => m.segmentID == other) =
      s.segmentMembers.filter (fun m => m.segmentID == other) := by
  simp only [Store.withMembers, Store.dropMembers, List.filter_append, List.filter_filter]
  have hnew : (userKeys.map (fun key => SegmentMember.mk id key now)).filter
      (fun m => m.segmentID == other) = [] := by
    rw [List.filter_eq_nil_iff]
    intro m hm
    rcases List.mem_map.mp hm with ⟨key, _, rfl⟩
    simpa using hother
  rw [hnew, List.append_nil]
  refine List.filter_congr (fun m _ => ?_)
  by_cases hm : m.segmentID = other
  · simp [hm, hother.symm]
  · simp [hm]

/-- Membership is a question to the rows of the segment. -/
theorem isMember_eq (segmentID id k : String) (s : Store) (hid : uuid segmentID = some id) :
    isMember uuid segmentID k s =
      .ok ((s.segmentMembers.filter (fun m => m.segmentID == id)).any (fun m => m.userKey == k),
        s) := by
  rw [isMember, hid, List.any_filter]

/-- A replacement in which no key repeats replaces the members. -/
theorem replacesMembers (segmentID id : String) (userKeys : List String) (s : Store)
    (hid : uuid segmentID = some id) (hnodup : userKeys.Nodup) :
    ReplacesMembers uuid segmentID userKeys s
      ((s.dropMembers id).withMembers now id userKeys) where
  member k := by
    rw [isMember_eq uuid segmentID id k _ hid, filter_withMembers_self, List.any_map]
    have hany : userKeys.any ((fun m : SegmentMember => m.userKey == k) ∘
        fun key => ⟨id, key, now⟩) = decide (k ∈ userKeys) := by
      rw [Bool.eq_iff_iff, List.any_eq_true, decide_eq_true_iff]
      constructor
      · rintro ⟨key, hkey, heq⟩
        rwa [← (beq_iff_eq.mp heq : key = k)]
      · exact fun hk => ⟨k, hk, beq_self_eq_true k⟩
    rw [hany]
  listed order := by
    refine ⟨_, by rw [listSegmentMembers, hid], ?_⟩
    have hkeys : (((s.dropMembers id).withMembers now id userKeys).segmentMembers.filter
        (fun m => m.segmentID == id)).map (·.userKey) = userKeys := by
      rw [filter_withMembers_self, List.map_map]
      exact List.map_id userKeys
    have hperm := (order.perm (fun a b => decide (a.addedAt < b.addedAt))
      (((s.dropMembers id).withMembers now id userKeys).segmentMembers.filter
        (fun m => m.segmentID == id))).map (·.userKey)
    rw [hkeys] at hperm
    exact ⟨hperm.nodup_iff.mpr hnodup, fun k => hperm.mem_iff⟩
  others other hother :=
    filter_withMembers_other now s id other userKeys (fun heq => hother (heq ▸ hid))
  rest := rfl

/-- For a segment that is there, the replacement does what is expected of it if
    and only if no key repeats and the database takes them all. -/
theorem setMembers_sets_iff (segmentID : String) (userKeys : List String) (s : Store)
    (hsegment : ∃ g ∈ s.segments, uuid segmentID = some g.id) :
    SetsMembers uuid takes now segmentID userKeys s ↔
      userKeys.Nodup ∧ ∀ key ∈ userKeys, takes key = true := by
  rcases hsegment with ⟨g, hg, hid⟩
  have hexec := fun t => exec_setMembers_iff uuid takes now segmentID g.id userKeys s t hid
  constructor
  · rintro ⟨⟨s', hs'⟩, _, _⟩
    rcases (hexec s').mp (transact_ok _ _ _ _ hs') with ⟨htakes, hnodup, _, _⟩
    exact ⟨hnodup, htakes⟩
  · rintro ⟨hnodup, htakes⟩
    refine ⟨⟨(s.dropMembers g.id).withMembers now g.id userKeys, ?_⟩, fun fails s' h => ?_,
      fun fails e s' h => transact_error fails _ s s' e h⟩
    · rw [setMembers, transact, (hexec _).mpr ⟨htakes, hnodup, fun _ => ⟨g, hg, rfl⟩, rfl⟩]
      rfl
    · -- Whatever else might have failed, these are the statements that went through.
      have hdone := execStatements_mono fails 1 _ s s' (transact_ok _ _ _ _ h)
      rcases (hexec s').mp hdone with ⟨_, _, _, rfl⟩
      exact replacesMembers uuid now segmentID g.id userKeys s hid hnodup

end Members

/-! ## A key that repeats -/

/-- A store with a segment of one member. -/
def membersStore : Store where
  segments := [⟨sampleUUID 7, "beta", "Beta", "p1", 0⟩]
  segmentMembers := [⟨sampleUUID 7, "ann", 0⟩]

/-- The database takes short texts without a NUL. -/
def shortKeys (key : String) : Bool := key.length ≤ 100 && key.toList.all (· != '\x00')

theorem setMembers_sets_two :
    SetsMembers Host.steady.uuid shortKeys 0 (sampleUUID 7) ["bob", "cal"] membersStore :=
  (setMembers_sets_iff Host.steady.uuid shortKeys 0 (sampleUUID 7) ["bob", "cal"] membersStore
    ⟨⟨sampleUUID 7, "beta", "Beta", "p1", 0⟩, by simp [membersStore], by decide +kernel⟩).mpr
    ⟨by decide, by decide⟩

/-- The handler lets a list through in which a user occurs twice. The
    replacement fails, and the members are those of before. -/
theorem setMembers_repeated :
    decodeMembersBody (.obj [("members", .arr [.str "bob", .str "bob"])]) =
        some ["bob", "bob"] ∧
      setMembers Host.steady.uuid shortKeys 0 (fun _ => false) (sampleUUID 7) ["bob", "bob"]
        membersStore = (.error .internal, membersStore) ∧
      ¬ SetsMembers Host.steady.uuid shortKeys 0 (sampleUUID 7) ["bob", "bob"] membersStore := by
  have hfails : setMembers Host.steady.uuid shortKeys 0 (fun _ => false) (sampleUUID 7)
      ["bob", "bob"] membersStore = (.error .internal, membersStore) := by decide +kernel
  refine ⟨by decide, hfails, fun h => ?_⟩
  rcases h.succeeds with ⟨s', hs'⟩
  rw [hfails] at hs'
  cases hs'

end Cuttlegate
