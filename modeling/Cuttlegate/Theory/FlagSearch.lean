import Cuttlegate.Lib.Like
import Cuttlegate.Store.Repository

/-!
# Searching Flags

The paginated flag list takes a search text and selects the flags whose key or
name matches it, as a pattern between two wildcards. The text is put into the
pattern as it came, so its own wildcards and escapes act as such.

Searching is meant to find the flags whose key or name contains the text, up to
case. It does for every set of flags exactly when the text has no character
with a meaning in patterns. For any other text some valid flag is selected that
contains it in neither its key nor its name.

Case folding is the database's, and is a parameter: all that is asked of it is
that it leaves the three characters of patterns alone and turns no other
character into one of them.

## Main definitions

* `likeMeta`, `ilikeOf`: Pattern matching in the database, up to a folding.
* `containsFold`, `flagsContaining`: What searching is meant to find.

## Theorems

* `ilikeOf_plain`: A plain text is searched for.
* `matchFlags_mismatch`: Any other text finds a flag that lacks it.
* `flagSearch_iff_plain`: Searching is by substring exactly for plain texts.
-/

namespace Cuttlegate

/-- The characters of patterns in the database. -/
def likeMeta : Like.Meta Char where
  any := '%'
  one := '_'
  escape := '\\'
  any_ne_one := by decide
  any_ne_escape := by decide
  one_ne_escape := by decide

/-- Whether a text matches a pattern, up to the folding of case. -/
def ilikeOf (fold : Char → Char) (text pattern : String) : Bool :=
  Like.matchesFold likeMeta fold pattern.toList text.toList

/-- The text contains the searched one, up to the folding of case. -/
def containsFold (fold : Char → Char) (text search : String) : Bool :=
  decide (search.toList.map fold <:+: text.toList.map fold)

/-- The flags of the project whose key or name contains the search text. -/
def flagsContaining (c : Conn) (fold : Char → Char) (projectID search : String) (s : Store) :
    List Flag :=
  s.flags.filter (fun f => c.sees f.projectID && f.projectID == projectID &&
    (containsFold fold f.key search || containsFold fold f.name search))

/-- A flag of the project `shop` by name. -/
def flagNamed (name : String) : Flag :=
  { darkMode with projectID := "shop", key := "a", name := name }

theorem flagNamed_valid (name : String) (hname : name ≠ "") :
    (flagNamed name).validate = .ok () := by
  have hother : (flagNamed "x").WellFormed := (Flag.validate_ok_iff _).mp (by decide)
  rw [Flag.validate_ok_iff]
  exact ⟨hother.type, hother.keyLength, hother.keyGrammar, hother.variants, hother.distinct,
    hother.bool, hother.default, hname⟩

section Search

variable (fold : Char → Char) (search : String)

/-- The pattern the repository builds wraps the search text. -/
theorem pattern_toList : ("%" ++ search ++ "%").toList = Like.wrap likeMeta search.toList := by
  rw [String.toList_append, String.toList_append]
  rfl

variable (hfold : Like.KeepsMeta likeMeta fold)

include hfold

theorem ilikeOf_plain (hplain : Like.Plain likeMeta search.toList) (text : String) :
    ilikeOf fold text ("%" ++ search ++ "%") = containsFold fold text search := by
  rw [Bool.eq_iff_iff, ilikeOf, pattern_toList, containsFold, decide_eq_true_iff]
  exact Like.matchesFold_plain fold hfold search.toList hplain text.toList

/-- A plain text selects the flags that contain it. -/
theorem matchFlags_plain (hne : search ≠ "") (hplain : Like.Plain likeMeta search.toList)
    (c : Conn) (projectID : String) (s : Store) :
    matchFlags c (ilikeOf fold) projectID search s = flagsContaining c fold projectID search s := by
  unfold matchFlags flagsContaining
  have hsearch : (search == "") = false := by simpa using hne
  simp only [ilikeOf_plain fold search hfold hplain, hsearch, Bool.false_or]

/-- A text with a wildcard or an escape selects a valid flag that contains it
    neither in its key nor in its name. -/
theorem matchFlags_mismatch (hplain : ¬ Like.Plain likeMeta search.toList) :
    ∃ name, name ≠ "" ∧
      matchFlags ⟨none, false⟩ (ilikeOf fold) "shop" search { flags := [flagNamed name] } ≠
        flagsContaining ⟨none, false⟩ fold "shop" search { flags := [flagNamed name] } := by
  have hletter : Like.Plain likeMeta ['a'] := by
    intro c hc
    rw [List.mem_singleton.mp hc]
    decide
  rcases Like.exists_mismatch fold hfold 'a' hletter search.toList hplain
    with ⟨t, ht, hmatch, hmiss⟩
  have hselected : ilikeOf fold (String.ofList t) ("%" ++ search ++ "%") = true := by
    rw [ilikeOf, pattern_toList, String.toList_ofList]
    exact hmatch
  have hname : containsFold fold (String.ofList t) search = false := by
    rw [containsFold, String.toList_ofList]
    exact decide_eq_false hmiss
  -- A flag's key never contains such a text.
  have hkey : containsFold fold "a" search = false :=
    decide_eq_false (fun hpart => hplain (Like.plain_of_infix fold hfold _ _ hpart hletter))
  refine ⟨String.ofList t, ?_, ?_⟩
  · intro hempty
    rw [← String.toList_inj, String.toList_ofList] at hempty
    exact ht hempty
  · simp [matchFlags, flagsContaining, flagNamed, hselected, hname, hkey, Conn.sees]

/-- Searching is by substring exactly for the texts without wildcards and
    escapes: for such a text the flags selected are those whose key or name
    contains it, whatever flags there are, and for any other text they are not
    even when all flags are valid. -/
theorem flagSearch_iff_plain (hne : search ≠ "") :
    ((∀ c projectID s, matchFlags c (ilikeOf fold) projectID search s =
        flagsContaining c fold projectID search s) ↔
      ∀ ch ∈ search.toList, ch ≠ '%' ∧ ch ≠ '_' ∧ ch ≠ '\\') ∧
    ((∀ c projectID s, (∀ f ∈ s.flags, f.validate = .ok ()) →
        matchFlags c (ilikeOf fold) projectID search s =
          flagsContaining c fold projectID search s) ↔
      ∀ ch ∈ search.toList, ch ≠ '%' ∧ ch ≠ '_' ∧ ch ≠ '\\') := by
  have hlack : (∀ c projectID s, (∀ f ∈ s.flags, f.validate = .ok ()) →
      matchFlags c (ilikeOf fold) projectID search s =
        flagsContaining c fold projectID search s) → Like.Plain likeMeta search.toList := by
    intro hsearch
    by_contra hplain
    rcases matchFlags_mismatch fold search hfold hplain with ⟨name, hname, hdiffer⟩
    refine hdiffer (hsearch _ _ _ (fun f hf => ?_))
    rw [List.mem_singleton.mp hf]
    exact flagNamed_valid name hname
  have hplain := matchFlags_plain fold search hfold hne
  exact ⟨⟨fun h => hlack (fun c p s _ => h c p s), fun h c p s => hplain h c p s⟩,
    hlack, fun h c p s _ => hplain h c p s⟩

end Search

/-- Lower-casing a letter gives a letter, and leaves everything else alone. -/
theorem toLower_eq_iff (c d : Char) (hd : d.isAlpha = false) : c.toLower = d ↔ c = d := by
  have hletters : ∀ n < 26, (Char.ofNat (n + 65)).isAlpha = true ∧
      (Char.ofNat (n + 65)).toLower.isAlpha = true := by decide
  by_cases hupper : c.val ≥ 'A'.val ∧ c.val ≤ 'Z'.val
  · -- One of the twenty-six, and none of them, either way, is `d`.
    have hlow : 65 ≤ c.toNat := UInt32.le_iff_toNat_le.mp hupper.1
    have hhigh : c.toNat ≤ 90 := UInt32.le_iff_toNat_le.mp hupper.2
    have hc : Char.ofNat (c.toNat - 65 + 65) = c := by
      rw [Nat.sub_add_cancel hlow, Char.ofNat_toNat]
    have hletter := hletters (c.toNat - 65) (by omega)
    rw [hc] at hletter
    constructor
    · rintro rfl
      exact absurd hletter.2 (by simp [hd])
    · rintro rfl
      exact absurd hletter.1 (by simp [hd])
  · rw [show c.toLower = c from dif_neg hupper]

theorem keepsMeta_toLower : Like.KeepsMeta likeMeta Char.toLower :=
  ⟨fun c => toLower_eq_iff c _ (by decide), fun c => toLower_eq_iff c _ (by decide),
    fun c => toLower_eq_iff c _ (by decide)⟩

theorem flagSearch_iff_plain_cart :
    matchFlags ⟨none, false⟩ (ilikeOf Char.toLower) "shop" "CART" { flags := [flagNamed "Cart"] } =
      flagsContaining ⟨none, false⟩ Char.toLower "shop" "CART" { flags := [flagNamed "Cart"] } :=
  (flagSearch_iff_plain Char.toLower "CART" keepsMeta_toLower (by decide)).1.mpr
    (by simp) _ _ _

/-- A search for an underscore finds every flag. -/
theorem flagSearch_underscore :
    (flagNamed "Cart").validate = .ok () ∧
      matchFlags ⟨none, false⟩ (ilikeOf Char.toLower) "shop" "_" { flags := [flagNamed "Cart"] } =
        [flagNamed "Cart"] ∧
      flagsContaining ⟨none, false⟩ Char.toLower "shop" "_" { flags := [flagNamed "Cart"] } = [] :=
  by decide +kernel

end Cuttlegate
