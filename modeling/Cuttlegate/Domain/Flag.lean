import Cuttlegate.Domain.Errors
import Mathlib.Data.List.Basic
import Mathlib.Data.List.Nodup

/-!
# Flags

The flag entity, its variants, and the check every flag passes before it is
stored.

`Flag.validate` follows the source check by check, in order, with the field
and the text of each error. What the checks amount to is `Flag.WellFormed`,
stated without reference to the order they run in; `validate_ok_iff` is the
equivalence, and the rest of the development only ever uses the declarative
side.

Strings are sequences of Unicode scalars, and lengths are counted in bytes of
their UTF-8 encoding, as the source counts them.

## Main definitions

* `FlagType`: The type of a flag, an unrecognised one included.
* `Variant`, `Flag`: A flag and its variants.
* `slugRe`: The grammar of slugs and flag keys.
* `Flag.validate`: The check made before a flag is stored.
* `Flag.WellFormed`: What the check amounts to.

## Theorems

* `dupKey_none_iff`: The duplicate scan accepts exactly distinct keys.
* `Flag.validate_ok_iff`: A flag passes its check when it is well formed.
-/

namespace Cuttlegate

inductive FlagType where
  | bool
  | string
  | number
  | json
  | other (name : String)
  deriving DecidableEq, Repr

structure Variant where
  key : String
  name : String
  deriving DecidableEq, Repr

structure Flag where
  id : String
  projectID : String
  key : String
  name : String
  type : FlagType
  variants : List Variant
  defaultVariantKey : String
  createdAt : Time
  deriving DecidableEq, Repr

/-- A lowercase letter or a digit, the first character of a slug. -/
def slugStart (c : Char) : Bool := ('a' ≤ c && c ≤ 'z') || ('0' ≤ c && c ≤ '9')

/-- The grammar of slugs and flag keys: a lowercase letter or a digit, then
    any number of those and hyphens. -/
def slugRe (s : String) : Bool :=
  match s.toList with
  | [] => false
  | c :: cs => slugStart c && cs.all (fun d => slugStart d || d == '-')

def maxKeyLength : Nat := 128

/-- The keys of the flag's variants, in order. -/
def Flag.variantKeys (f : Flag) : List String := f.variants.map (·.key)

/-- The scan for a repeated variant key: the first key already in `seen`. -/
def dupKey : List String → List Variant → Option String
  | _, [] => none
  | seen, v :: vs => if v.key ∈ seen then some v.key else dupKey (v.key :: seen) vs

/-- The type check: only the four known types pass. -/
def Flag.checkType (f : Flag) : Except Err Unit :=
  match f.type with
  | .bool | .string | .number | .json => .ok ()
  | .other name => .error (.validation "type" ("invalid flag type: " ++ name))

/-- The duplicate check over the variant keys. -/
def Flag.checkDuplicates (f : Flag) : Except Err Unit :=
  match dupKey [] f.variants with
  | some key => .error (.validation "variants" ("duplicate variant key: " ++ key))
  | none => .ok ()

def Flag.validate (f : Flag) : Except Err Unit := do
  f.checkType
  refuseIf (f.key.utf8ByteSize > maxKeyLength)
    (.validation "key" "flag key must be 128 characters or fewer")
  refuseIf (slugRe f.key = false)
    (.validation "key" ("flag key must start with a letter or digit and contain only "
      ++ "lowercase letters, digits, and hyphens"))
  refuseIf (f.variants = []) (.validation "variants" "flag must have at least one variant")
  f.checkDuplicates
  refuseIf (f.type = .bool ∧ f.variants.length ≠ 2)
    (.validation "variants" "bool flag must have exactly two variants")
  refuseIf (f.type = .bool ∧ ¬ ("true" ∈ f.variantKeys ∧ "false" ∈ f.variantKeys))
    (.validation "variants" "bool flag variant keys must be \"true\" and \"false\"")
  refuseIf (f.defaultVariantKey ∉ f.variantKeys)
    (.validation "default_variant_key" "default_variant_key does not match any variant key")
  refuseIf (f.name = "") (.validation "name" "must not be empty")

/-- What the check of a flag amounts to. -/
structure Flag.WellFormed (f : Flag) : Prop where
  type : ∀ name, f.type ≠ .other name
  keyLength : f.key.utf8ByteSize ≤ maxKeyLength
  keyGrammar : slugRe f.key = true
  variants : f.variants ≠ []
  distinct : f.variantKeys.Nodup
  bool : f.type = .bool → f.variants.length = 2 ∧ "true" ∈ f.variantKeys ∧ "false" ∈ f.variantKeys
  default : f.defaultVariantKey ∈ f.variantKeys
  name : f.name ≠ ""

/-- The duplicate scan finds nothing exactly when the keys are distinct and
    none was already seen. -/
theorem dupKey_none_iff (seen : List String) (vs : List Variant) :
    dupKey seen vs = none ↔ (vs.map (·.key)).Nodup ∧ ∀ v ∈ vs, v.key ∉ seen := by
  induction vs generalizing seen with
  | nil => simp [dupKey]
  | cons v vs ih =>
      unfold dupKey
      by_cases hseen : v.key ∈ seen
      · simp [hseen]
      · rw [if_neg hseen, ih (v.key :: seen)]
        simp only [List.map_cons, List.nodup_cons, List.mem_map, not_exists, not_and,
          List.mem_cons, not_or, forall_eq_or_imp]
        constructor
        · rintro ⟨hnodup, hrest⟩
          exact ⟨⟨fun w hw => (hrest w hw).1, hnodup⟩, hseen, fun w hw => (hrest w hw).2⟩
        · rintro ⟨⟨hne, hnodup⟩, _, hrest⟩
          exact ⟨hnodup, fun w hw => ⟨hne w hw, hrest w hw⟩⟩

theorem Flag.checkType_ok (f : Flag) : f.checkType = .ok () ↔ ∀ name, f.type ≠ .other name := by
  unfold Flag.checkType
  cases f.type with
  | other name => simp
  | _ => simp

theorem Flag.checkDuplicates_ok (f : Flag) : f.checkDuplicates = .ok () ↔ f.variantKeys.Nodup := by
  have hscan := dupKey_none_iff [] f.variants
  unfold Flag.checkDuplicates
  cases hdup : dupKey [] f.variants with
  | none =>
      rw [hdup] at hscan
      exact ⟨fun _ => (hscan.mp rfl).1, fun _ => rfl⟩
  | some key =>
      rw [hdup] at hscan
      refine ⟨fun h => (nomatch h), fun h => ?_⟩
      exact absurd (hscan.mpr ⟨h, fun v _ => List.not_mem_nil⟩) (by simp)

/-- A flag passes its check exactly when it is well formed. -/
theorem Flag.validate_ok_iff (f : Flag) : f.validate = .ok () ↔ f.WellFormed := by
  unfold Flag.validate
  simp only [bind_unit_ok, refuseIf_ok, Flag.checkType_ok, Flag.checkDuplicates_ok]
  constructor
  · rintro ⟨htype, hlen, hkey, hne, hdup, htwo, hbool, hdef, hname⟩
    refine ⟨htype, Nat.le_of_not_gt hlen, by simpa using hkey, hne, hdup, fun hb => ⟨?_, ?_⟩,
      not_not.mp hdef, hname⟩
    · exact not_not.mp (fun hlen => htwo ⟨hb, hlen⟩)
    · exact not_not.mp (fun hkeys => hbool ⟨hb, hkeys⟩)
  · intro h
    refine ⟨h.type, Nat.not_lt_of_ge h.keyLength, by simp [h.keyGrammar], h.variants, h.distinct,
      ?_, ?_, not_not.mpr h.default, h.name⟩
    · exact fun hb => hb.2 (h.bool hb.1).1
    · exact fun hb => hb.2 (h.bool hb.1).2

end Cuttlegate
