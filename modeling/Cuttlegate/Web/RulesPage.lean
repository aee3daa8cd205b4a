import Cuttlegate.Adapters.Handlers

/-!
# The Page of the Rules

The page of the web interface that shows the rules of a flag in an environment
and lets the user drag a rule to another place.

The page has the rules as the server listed them, and while requests are under
way the order it shows optimistically. A drag numbers the rules anew from one
in the order they are shown in, and sends one request for each rule whose
number is not the one the server has. The requests are sent at once, and the
server handles them in some order.

## Main definitions

* `RulesPage`, `RulesPage.rules`: The page and what it shows.
* `RulesPage.handleDragEnd`: What a drag shows and which rules it sends.
* `RulesPage.patchJSON`: The request for a rule.
* `RulesPage.serveAll`: The server handles the requests.
-/

namespace Cuttlegate

/-- The page of a path. The signed-in user is known by the header the page
    sends. -/
structure RulesPage where
  authorization : String
  slug : String
  slug_ne : slug ≠ ""
  envSlug : String
  key : String
  serverRules : List Rule
  optimisticOrder : Option (List Rule)

namespace RulesPage

variable (page : RulesPage)

/-- What the page shows. -/
def rules : List Rule := page.optimisticOrder.getD page.serverRules

/-- A list with the element at one index moved to another one. -/
def moveItem {α : Type} (l : List α) (oldIndex newIndex : Nat) : List α :=
  match l[oldIndex]? with
  | some moved => (l.eraseIdx oldIndex).insertIdx newIndex moved
  | none => l

/-- The rules with new priorities, from one in the order of the list. -/
def renumber (l : List Rule) : List Rule := l.mapIdx (fun i r => { r with priority := i + 1 })

/-- The priority the server has for a rule is another one. -/
def differs (r : Rule) : Bool :=
  match page.serverRules.find? (fun s => s.id == r.id) with
  | some orig => orig.priority != r.priority
  | none => false

/-- The end of a drag: the order shown from now on, and the rules for which a
    request is sent. A drag that ends elsewhere or where it began does
    nothing. -/
def handleDragEnd (active : String) (overID : Option String) : Option (List Rule × List Rule) :=
  match overID with
  | none => none
  | some overID =>
      if active = overID then none
      else
        match page.rules.findIdx? (fun r => r.id == active),
            page.rules.findIdx? (fun r => r.id == overID) with
        | some oldIndex, some newIndex =>
            let updated := renumber (moveItem page.rules oldIndex newIndex)
            some (updated, updated.filter page.differs)
        | _, _ => none

/-- The request for a rule carries its priority and nothing else. -/
def patchJSON (r : Rule) : NestedRequest where
  authorization := page.authorization
  projSlug := page.slug
  projSlug_ne := page.slug_ne
  envSlug := page.envSlug
  route := .updateRule page.key r.id (some (.obj [("priority", .num (toString r.priority))]))

/-- The answers to the requests for a list of rules, handled in its order, and
    the state afterwards. What the surroundings decide is their business for
    each request anew. -/
def serveAll (hosts : Rule → HttpHost) : List Rule → HttpState →
    List (Except Err Response) × HttpState
  | [], s => ([], s)
  | r :: rest, s =>
      let out := Proc.run (httpExec (hosts r)) ((page.patchJSON r).serve (hosts r)) s
      let later := serveAll hosts rest out.2
      (out.1 :: later.1, later.2)

end RulesPage

end Cuttlegate
