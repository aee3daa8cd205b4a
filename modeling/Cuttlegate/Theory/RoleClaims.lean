import Cuttlegate.Adapters.Oidc

/-!
# Role Claim Arrays

An array in the role claim is meant to give the role of its first element that
the mapper recognises; with no such element a viewer, and with no text at all
whatever the policy says.

With the identity mapper it always does. With a table it need not: the element
is selected by the literal names of the domain's roles before the mapper is
asked, so an element only the table knows can lose to a later literal name, or
to an earlier element nobody knows. The two functions agree exactly when the
selected element has the role of the first recognised one.

## Main definitions

* `claimStrings`: The texts of an array.
* `GrantsMapped`: What an array is meant to give.
* `countedString`, `SelectsMapped`: The element that counts, and when it has the
  role it should.

## Theorems

* `extractLoop_eq`: The element the loop selects.
* `verifiedRole_array`: The role an array gives.
* `grantsMapped_iff`: Arrays give what they should exactly under the condition.
* `grantsMapped_identity`: With the identity mapper they always do.
-/

namespace Cuttlegate

/-- The texts of an array, in order. -/
def claimStrings (elems : List Json) : List String :=
  elems.filterMap (fun v => match v with
    | .str s => some s
    | _ => none)

/-- The element names a role literally. -/
def isRoleName (s : String) : Bool := (Role.ofText s).valid

/-- The role an array is meant to give: that of the first element the mapper
    recognises; a viewer when there is none but some text; and the policy's
    outcome when there is no text. -/
def GrantsMapped (mapper : RoleMapper) (policy : MissingRolePolicy) (elems : List Json) : Prop :=
  (∀ role, (claimStrings elems).findSome? mapper.mapRole = some role →
    verifiedRole (some (.arr elems)) policy mapper = .ok role) ∧
  ((∀ s ∈ claimStrings elems, mapper.mapRole s = none) → (∃ s ∈ claimStrings elems, s ≠ "") →
    verifiedRole (some (.arr elems)) policy mapper = .ok .viewer) ∧
  ((∀ s ∈ claimStrings elems, s = "") →
    verifiedRole (some (.arr elems)) policy mapper =
      if policy = .viewer then .ok .viewer else .error errMissingRoleClaim)

/-- The element that counts: the first literal name of a role, and without one
    the first text that is not empty. -/
def countedString (strings : List String) : Option String :=
  (strings.find? isRoleName).or (strings.find? (fun s => s != ""))

/-- If the mapper recognises an element, the element that counts has the role
    of the first one it recognises, where an element that is not recognised has
    that of a viewer, and so has the policy when no element counts. -/
def SelectsMapped (mapper : RoleMapper) (policy : MissingRolePolicy) (strings : List String) :
    Prop :=
  ∀ role, strings.findSome? mapper.mapRole = some role →
    match countedString strings with
    | some text => (mapper.mapRole text).getD .viewer = role
    | none => policy = .viewer ∧ role = .viewer

/-! ## The selected element -/

theorem claimStrings_str (s : String) (rest : List Json) :
    claimStrings (.str s :: rest) = s :: claimStrings rest := rfl

/-- The loop selects the element that counts, where an earlier text stands
    before the later ones. -/
theorem extractLoop_eq (first : String) (elems : List Json) :
    extractLoop first elems = ((claimStrings elems).find? isRoleName).getD
      (if first = "" then ((claimStrings elems).find? (fun s => s != "")).getD "" else first) := by
  induction elems generalizing first with
  | nil =>
      rw [extractLoop]
      by_cases hfirst : first = "" <;> simp [claimStrings, hfirst]
  | cons v rest ih =>
      cases v with
      | str s =>
          have hvalid : (Role.ofText s).valid = isRoleName s := rfl
          rw [extractLoop, claimStrings_str, List.find?_cons, List.find?_cons, hvalid]
          cases isRoleName s with
          | true => rfl
          | false =>
              rw [if_neg Bool.false_ne_true, ih]
              -- The text becomes the first one if none came before it.
              by_cases hfirst : first = ""
              · by_cases hs : s = ""
                · simp [hfirst, hs]
                · have hbne : (s != "") = true := bne_iff_ne.mpr hs
                  simp [hfirst, hs, hbne]
              · simp [hfirst]
      | _ => exact ih first

theorem extractRoleClaim_array (elems : List Json) :
    extractRoleClaim (some (.arr elems)) = (countedString (claimStrings elems)).getD "" := by
  rw [extractRoleClaim, extractLoop_eq, if_pos rfl, countedString]
  cases (claimStrings elems).find? isRoleName with
  | some name => rfl
  | none => rfl

theorem isRoleName_empty : isRoleName "" = false := by decide

/-- The element that counts is one of the texts, and not empty. -/
theorem countedString_some (strings : List String) (text : String)
    (htext : countedString strings = some text) : text ∈ strings ∧ text ≠ "" := by
  rcases Option.or_eq_some_iff.mp htext with hname | ⟨_, hfirst⟩
  · refine ⟨List.mem_of_find?_eq_some hname, ?_⟩
    rintro rfl
    exact absurd (List.find?_some hname) (by simp [isRoleName_empty])
  · refine ⟨List.mem_of_find?_eq_some hfirst, ?_⟩
    have hne := List.find?_some hfirst
    simpa using hne

/-- No element counts when all texts are empty. -/
theorem countedString_none_iff (strings : List String) :
    countedString strings = none ↔ ∀ s ∈ strings, s = "" := by
  rw [countedString, Option.or_eq_none_iff, List.find?_eq_none, List.find?_eq_none]
  constructor
  · exact fun h s hs => by simpa using h.2 s hs
  · intro h
    exact ⟨fun s hs => by simp [h s hs, isRoleName_empty], fun s hs => by simp [h s hs]⟩

theorem identityRole_name (s : String) (hname : isRoleName s = true) :
    identityRole s = some (Role.ofText s) := if_pos hname

/-- Every mapper recognises the literal names of roles. -/
theorem mapRole_name (mapper : RoleMapper) (s : String) (hname : isRoleName s = true) :
    (mapper.mapRole s).isSome = true := by
  cases mapper with
  | identity => simp [RoleMapper.mapRole, identityRole_name s hname]
  | static m => simp [RoleMapper.mapRole, identityRole_name s hname]

theorem resolveRole_empty (policy : MissingRolePolicy) (mapper : Option RoleMapper) :
    resolveRole "" policy mapper =
      if policy = .viewer then .ok .viewer else .error errMissingRoleClaim := if_pos rfl

/-- A text that is not empty has the role the mapper knows, or a viewer's. -/
theorem resolveRole_text (text : String) (hne : text ≠ "") (policy : MissingRolePolicy)
    (mapper : RoleMapper) :
    resolveRole text policy (some mapper) = .ok ((mapper.mapRole text).getD .viewer) := by
  unfold resolveRole
  rw [if_neg hne, Option.bind_some]
  cases hmap : mapper.mapRole text with
  | some role => rfl
  | none =>
      -- What the mapper does not know is no literal name either.
      have hname : ¬ (Role.ofText text).valid = true := by
        intro hname
        have hsome := mapRole_name mapper text hname
        rw [hmap] at hsome
        exact (nomatch hsome)
      rw [identityRole, if_neg hname]
      rfl

/-- The role of an array is that of the element that counts, and without one
    what the policy gives. -/
theorem verifiedRole_array (mapper : RoleMapper) (policy : MissingRolePolicy)
    (elems : List Json) :
    verifiedRole (some (.arr elems)) policy mapper =
      match countedString (claimStrings elems) with
      | some text => .ok ((mapper.mapRole text).getD .viewer)
      | none => if policy = .viewer then .ok .viewer else .error errMissingRoleClaim := by
  rw [verifiedRole, extractRoleClaim_array]
  cases htext : countedString (claimStrings elems) with
  | some text => exact resolveRole_text text (countedString_some _ _ htext).2 policy mapper
  | none => exact resolveRole_empty policy (some mapper)

/-! ## When arrays give what they should -/

/-- An array gives the role of the first recognised element exactly when the
    element that counts has it. -/
theorem verifiedRole_ok_iff (mapper : RoleMapper) (policy : MissingRolePolicy)
    (elems : List Json) (role : Role) :
    verifiedRole (some (.arr elems)) policy mapper = .ok role ↔
      match countedString (claimStrings elems) with
      | some text => (mapper.mapRole text).getD .viewer = role
      | none => policy = .viewer ∧ role = .viewer := by
  rw [verifiedRole_array]
  cases countedString (claimStrings elems) with
  | some text => simp only [Except.ok.injEq]
  | none =>
      by_cases hpolicy : policy = .viewer
      · simp [hpolicy, eq_comm]
      · simp [hpolicy]

/-- Without an element the mapper recognises, some text makes a viewer. -/
theorem verifiedRole_unrecognised (mapper : RoleMapper) (policy : MissingRolePolicy)
    (elems : List Json) (hnone : ∀ s ∈ claimStrings elems, mapper.mapRole s = none)
    (htext : ∃ s ∈ claimStrings elems, s ≠ "") :
    verifiedRole (some (.arr elems)) policy mapper = .ok .viewer := by
  rw [verifiedRole_array]
  cases hcounted : countedString (claimStrings elems) with
  | some text => simp [hnone text (countedString_some _ _ hcounted).1]
  | none =>
      rcases htext with ⟨s, hs, hne⟩
      exact absurd ((countedString_none_iff _).mp hcounted s hs) hne

/-- Without a text, the policy decides. -/
theorem verifiedRole_missing (mapper : RoleMapper) (policy : MissingRolePolicy)
    (elems : List Json) (hempty : ∀ s ∈ claimStrings elems, s = "") :
    verifiedRole (some (.arr elems)) policy mapper =
      if policy = .viewer then .ok .viewer else .error errMissingRoleClaim := by
  rw [verifiedRole_array, (countedString_none_iff _).mpr hempty]

/-- The identity mapper recognises literal names only, so the first one it
    recognises is the element that counts. -/
theorem selectsMapped_identity (policy : MissingRolePolicy) (strings : List String) :
    SelectsMapped .identity policy strings := by
  intro role hrole
  have hname : ∃ name, strings.find? isRoleName = some name ∧ identityRole name = some role := by
    induction strings with
    | nil => exact (nomatch hrole)
    | cons s rest ih =>
        rw [List.findSome?_cons] at hrole
        rw [List.find?_cons]
        cases hs : isRoleName s with
        | true =>
            simp only [RoleMapper.mapRole, identityRole_name s hs] at hrole
            exact ⟨s, rfl, (identityRole_name s hs).trans hrole⟩
        | false =>
            have hnone : identityRole s = none := if_neg (by simpa [isRoleName] using hs)
            simp only [RoleMapper.mapRole, hnone] at hrole
            exact ih hrole
  rcases hname with ⟨name, hfind, hmap⟩
  rw [countedString, hfind, Option.some_or]
  simp only [RoleMapper.mapRole, hmap, Option.getD_some]

/-- An array gives the role it should exactly when the element that counts has
    the role of the first one the mapper recognises; with the identity mapper
    it always does. -/
theorem grantsMapped_iff (mapper : RoleMapper) (policy : MissingRolePolicy) (elems : List Json) :
    (GrantsMapped mapper policy elems ↔ SelectsMapped mapper policy (claimStrings elems)) ∧
      GrantsMapped .identity policy elems := by
  have hiff : ∀ mapper, GrantsMapped mapper policy elems ↔
      SelectsMapped mapper policy (claimStrings elems) := by
    intro mapper
    constructor
    · exact fun hgrants role hrole =>
        (verifiedRole_ok_iff mapper policy elems role).mp (hgrants.1 role hrole)
    · intro hselects
      exact ⟨fun role hrole =>
          (verifiedRole_ok_iff mapper policy elems role).mpr (hselects role hrole),
        verifiedRole_unrecognised mapper policy elems, verifiedRole_missing mapper policy elems⟩
  exact ⟨hiff mapper, (hiff .identity).mpr (selectsMapped_identity policy _)⟩

/-- A table for a provider with role names of its own. -/
def providerRoles : RoleMapper :=
  .static (fun s => if s = "cuttlegate:admin" then some .admin else none)

/-- An administrator by the table becomes a viewer behind an element that
    nobody recognises. -/
theorem grantsMapped_downgrade :
    ¬ GrantsMapped providerRoles .reject [.str "offline_access", .str "cuttlegate:admin"] ∧
      verifiedRole (some (.arr [.str "offline_access", .str "cuttlegate:admin"])) .reject
        providerRoles = .ok .viewer := by
  have hviewer : verifiedRole (some (.arr [.str "offline_access", .str "cuttlegate:admin"]))
      .reject providerRoles = .ok .viewer := by decide
  refine ⟨fun hgrants => ?_, hviewer⟩
  have hadmin := hgrants.1 .admin (by decide)
  rw [hviewer] at hadmin
  exact absurd hadmin (by decide)

end Cuttlegate
