import Mathlib.Algebra.Group.Int.Defs
import Mathlib.Tactic.Common

/-!
# JSON Values and Records

JSON values, and the rules by which an encoding library fills a record from
one: a field is found by its name regardless of case, a key that names no
field is ignored, a key that occurs again overwrites, `null` leaves a field as
it is, and a value of the wrong kind spoils the whole record.

A record that was never given is different from one given as `null`: the
former has no text to decode at all. A field kept undecoded is therefore an
`Option Json`.

## Main definitions

* `Json`: Values.
* `Json.named`: Whether a key names a field.
* `Json.decodeRecord`: Filling a record.
* `Json.decodeString`, `Json.decodeInt`, `Json.decodeList` and the others:
  Filling a field.
-/

/-- A JSON value. Numbers are kept as they were written. -/
inductive Json where
  | null
  | bool (b : Bool)
  | num (text : String)
  | str (s : String)
  | arr (elems : List Json)
  | obj (fields : List (String × Json))

namespace Json

/-- The lower-case letter a character stands for. Two letters outside ASCII,
    the long s and the Kelvin sign, count as spellings of a letter inside. -/
def fold (c : Char) : Char :=
  if 'A' ≤ c ∧ c ≤ 'Z' then Char.ofNat (c.toNat + 32)
  else if c.toNat = 0x17f then 's'
  else if c.toNat = 0x212a then 'k'
  else c

/-- Whether a key names the given field. -/
def named (field key : String) : Bool := key.toList.map fold == field.toList.map fold

/-- Fill a record: `set` says what a key and its value do to it. A missing
    value has nothing to decode, and `null` leaves the record as it is. -/
def decodeRecord {α : Type} (set : String → Json → α → Option α) (record : α) : Json → Option α
  | .null => some record
  | .obj fields => fields.foldlM (fun a kv => set kv.1 kv.2 a) record
  | _ => none

def decodeString (old : String) : Json → Option String
  | .null => some old
  | .str s => some s
  | _ => none

def decodeBool (old : Bool) : Json → Option Bool
  | .null => some old
  | .bool b => some b
  | _ => none

/-- Fill a 64-bit integer: the number must be written as one and fit. -/
def decodeInt (old : Int) : Json → Option Int
  | .null => some old
  | .num text => text.toInt?.filter (fun i => -2 ^ 63 ≤ i ∧ i < 2 ^ 63)
  | _ => none

/-- Fill a list, each element from scratch. -/
def decodeList {α : Type} (elem : Json → Option α) : Json → Option (List α)
  | .null => some []
  | .arr elems => elems.mapM elem
  | _ => none

/-- Fill a field that may be absent; `null` makes it so. -/
def decodePointer {α : Type} (elem : Json → Option α) : Json → Option (Option α)
  | .null => some none
  | v => (elem v).map some

/-- Fill a map from strings to strings. `null` as a value enters the empty
    string, and `null` in place of the map empties it. -/
def decodeStringMap (old : String → Option String) : Json → Option (String → Option String)
  | .null => some (fun _ => none)
  | .obj fields => fields.foldlM (fun m kv =>
      (decodeString "" kv.2).map (fun v k => if k = kv.1 then some v else m k)) old
  | _ => none

end Json
