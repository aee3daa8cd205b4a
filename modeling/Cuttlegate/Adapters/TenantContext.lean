import Cuttlegate.Lib.Quoted
import Cuttlegate.Store.Schema

/-!
# The Tenant of a Transaction

The statement that sets the tenant of a transaction, and what the database
makes of it.

The statement has no parameters, so the identifier of the project is written
into its text as a literal. The database takes the text apart again. Of its
lexical structure this has what the statement uses: words, which are folded to
lower case, two symbols, and string literals without a prefix, with standard
conforming strings. In these a doubled quote stands for one and a backslash for
itself. A literal goes on in a further line when that begins with a quote.

Row-level security compares the project of a row with the setting of the
transaction. A setting that is local to the transaction goes with it.

## Main definitions

* `quoteLiteral`, `setTenantContext`: The statement.
* `Sql.lexString`, `Sql.lexLiteral`: A string literal, and one with the lines
  that continue it.
* `Sql.next`, `Sql.parseSetLocal`: The tokens, and the statement they make up.
* `TenantTx`, `TenantTx.exec`, `TenantTx.conn`: A transaction.
-/

namespace Cuttlegate

/-- Double the quotes, then wrap. -/
def quoteLiteral (s : String) : String :=
  let escaped := s.toList.foldl
    (fun escaped c => if c = '\'' then escaped ++ "''" else escaped ++ String.singleton c) ""
  "'" ++ escaped ++ "'"

namespace Sql

inductive Token where
  | word (name : List Char)
  | symbol (c : Char)
  | literal (value : List Char)
  deriving DecidableEq, Repr

def isSpace (c : Char) : Bool := c == ' ' || (9 ≤ c.toNat && c.toNat ≤ 13)

def isNewline (c : Char) : Bool := c == '\n' || c == '\r'

def isWordStart (c : Char) : Bool := c.isAlpha || c == '_' || 128 ≤ c.toNat

def isWordRest (c : Char) : Bool := isWordStart c || c.isDigit || c == '$'

/-- A string literal at the front of a text. -/
def lexString (text : List Char) : Option (List Char × List Char) := Quoted.scan '\'' text

/-- After a line break and other white space comes another literal. -/
def continues (text : List Char) : Bool :=
  (text.takeWhile isSpace).any isNewline && (text.dropWhile isSpace).head? == some '\''

/-- A string literal with the lines that continue it. -/
def lexLiteral (text : List Char) : Option (List Char × List Char) :=
  match _h : lexString text with
  | none => none
  | some (s, rest) =>
      if continues rest then
        (lexLiteral (rest.dropWhile isSpace)).map (fun r => (s ++ r.1, r.2))
      else some (s, rest)
termination_by text.length
decreasing_by
  exact Nat.lt_of_le_of_lt (List.dropWhile_sublist isSpace).length_le
    (Quoted.scan_shorter '\'' text s rest _h)

/-- The first token of a text, and what comes after it. -/
def next (text : List Char) : Option (Token × List Char) :=
  match text.dropWhile isSpace with
  | [] => none
  | c :: rest =>
      if c = '\'' then (lexLiteral (c :: rest)).map (fun r => (.literal r.1, r.2))
      else if isWordStart c then
        some (.word ((c :: rest.takeWhile isWordRest).map Char.toLower),
          rest.dropWhile isWordRest)
      else if c = '.' ∨ c = '=' then some (.symbol c, rest)
      else none

def word (text : List Char) : Option (List Char × List Char) :=
  match next text with
  | some (.word name, rest) => some (name, rest)
  | _ => none

def keyword (name : List Char) (text : List Char) : Option (List Char) :=
  match word text with
  | some (found, rest) => if found = name then some rest else none
  | none => none

def symbol (c : Char) (text : List Char) : Option (List Char) :=
  match next text with
  | some (.symbol found, rest) => if found = c then some rest else none
  | _ => none

def value (text : List Char) : Option (List Char × List Char) :=
  match next text with
  | some (.literal s, rest) => some (s, rest)
  | _ => none

/-- The name and the value of a setting of two parts, from the statement that
    sets it for the transaction. -/
def parseSetLocal (text : List Char) : Option (String × String) := do
  let text ← keyword "set".toList text
  let text ← keyword "local".toList text
  let (scope, text) ← word text
  let text ← symbol '.' text
  let (name, text) ← word text
  let text ← symbol '=' text
  let (value, text) ← value text
  if text.all isSpace then some (String.ofList (scope ++ '.' :: name), String.ofList value)
  else none

end Sql

/-- A transaction: its settings, and whether row-level security is enforced. -/
structure TenantTx where
  settings : String → Option String
  rls : Bool

namespace TenantTx

variable (tx : TenantTx)

def set (name value : String) : TenantTx :=
  { tx with settings := fun n => if n = name then some value else tx.settings n }

/-- The server reads a query up to a zero byte, and refuses one that goes on
    after it. -/
def exec (query : String) : Option TenantTx :=
  if '\x00' ∈ query.toList then none
  else (Sql.parseSetLocal query.toList).map (fun found => tx.set found.1 found.2)

/-- What the policies go by. -/
def conn : Conn := ⟨tx.settings "app.project_id", tx.rls⟩

end TenantTx

def setTenantContext (tx : TenantTx) (projectID : String) : Option TenantTx :=
  tx.exec ("SET LOCAL app.project_id = " ++ quoteLiteral projectID)

end Cuttlegate
