import Cuttlegate.Lib.Recovery
import Cuttlegate.Sdk.Bootstraps
import Cuttlegate.Sdk.CachedClient
import Cuttlegate.Sdk.CachedClients

/-!
# Cached Clients and Their Stores

A cached client saves its flags to a store that outlives the process: once when
it has got them from the server, and then whenever an announcement has changed
them. A process that gets no flags takes those the store has loaded. What is
saved may fail to arrive, and the client does not look.

The Go client saves after every announcement, the Python client after one for a
flag that it holds. Neither opens its stream before the bootstrap is over, and
each handles one announcement after another, so nothing comes between a change
of the flags and their save. This is so as long as a process bootstraps its
client once. A Go client that is bootstrapped again while its stream is open,
is left out.

The JavaScript client is the one of `CachedClient`. What its store holds can be
read off the effects of its steps. Saves are assumed to arrive in the order in
which they are made.

## Main definitions

* `Sdk.Session`, `Sdk.Session.step`: A process with a Go or a Python client,
  and its store.
* `Sdk.Session.Honest`: The store loads what it keeps.
* `Sdk.Library.endure`: A client that never forgets.
* `Sdk.Js.Life`, `Sdk.Js.Lives`: Processes with a JavaScript client, and what they
  save.
-/

namespace Cuttlegate.Sdk

open Recovery (Enduring)

/-! ## Go and Python -/

/-- What comes back for the request of a bootstrap. -/
def Library.Answer : Library → Type
  | .go => Reply
  | .python => Python.Answer

/-- The flags that the plain client gets. -/
def Library.evaluateAll (defaults : List (String × Go.FlagDefault)) :
    (lib : Library) → lib.Answer → Option (Cache String)
  | .go, reply => (Go.evaluateAll defaults reply).toOption
  | .python, answer => (Python.evaluateAll defaults answer).toOption

/-- A bootstrap, whatever its error. -/
def Bootstrapped.silent {Err Value : Type} (b : Bootstrapped Err Value) :
    Bootstrapped Unit Value :=
  { b with raised := b.raised.map (fun _ => ()) }

/-- The bootstrap of a client that has just been made. -/
def Library.bootstrap (defaults : List (String × Go.FlagDefault))
    (load : Option (Entries String)) : (lib : Library) → lib.Answer → Bootstrapped Unit String
  | .go, reply => (Go.CachedClient.bootstrap defaults load {} reply).silent
  | .python, answer => (Python.bootstrap defaults load answer).silent

/-- Whether the flags are saved after an announcement. -/
def Library.saves : Library → WireEvent → Cache String → Bool
  | .go, _, _ => true
  | .python, event, cache => (cache event.flagKey).isSome

/-- A process with a cached client, which has flags once it streams, and what
    its store keeps. -/
structure Session where
  cache : Cache String := fun _ => none
  streaming : Bool := false
  kept : Cache String := fun _ => none

/-- What happens to a process. Where flags are saved, they arrive or not. -/
inductive SessionAct (lib : Library) where
  /-- The client is made and bootstrapped, with what came back for its request
      and what the store would load. -/
  | bootstrap (answer : lib.Answer) (load : Option (Entries String)) (arrives : Bool)
  /-- The stream delivers. -/
  | event (wire : WireEvent) (arrives : Bool)
  /-- The process ends. -/
  | halt

namespace SessionAct

variable {lib : Library}

/-- No flags that are saved are lost. -/
def arrives : SessionAct lib → Bool
  | .bootstrap _ _ arrives => arrives
  | .event _ arrives => arrives
  | .halt => true

/-- The store loads what it keeps, if anything. -/
def Loads (kept : Cache String) : SessionAct lib → Prop
  | .bootstrap _ (some entries) _ => ofEntries entries = kept
  | _ => True

end SessionAct

section

variable (lib : Library) (defaults : List (String × Go.FlagDefault))

namespace Session

def step (s : Session) : SessionAct lib → Session
  | .bootstrap answer load arrives =>
      if s.streaming then s
      else
        let b := lib.bootstrap defaults load answer
        { cache := b.cache
          streaming := b.streaming
          kept := if b.asked = false ∧ arrives = true then b.cache else s.kept }
  | .event wire arrives =>
      if s.streaming then
        let cache := lib.apply wire s.cache
        { s with
          cache := cache
          kept := if lib.saves wire s.cache && arrives then cache else s.kept }
      else s
  | .halt => { kept := s.kept }

def run (s : Session) (acts : List (SessionAct lib)) : Session :=
  acts.foldl (step lib defaults) s

/-- The store loads what it keeps, at each bootstrap of a run. -/
def Honest : Session → List (SessionAct lib) → Prop
  | _, [] => True
  | s, a :: acts => a.Loads s.kept ∧ Honest (s.step lib defaults a) acts

/-- The flags are saved, and arrive. -/
def Keeps (s : Session) : SessionAct lib → Prop
  | .bootstrap answer _ arrives =>
      s.streaming = false ∧ (lib.evaluateAll defaults answer).isSome ∧ arrives = true
  | .event wire arrives =>
      s.streaming = true ∧ lib.saves wire s.cache = true ∧ arrives = true
  | .halt => False

end Session

/-- What happens to a client that never forgets its flags. If it gets none when
    it starts, it goes on with those it had, provided the store loads any. -/
def Library.endure : Enduring (Cache String) → SessionAct lib → Enduring (Cache String)
  | .paused flags, .bootstrap answer load _ =>
      match lib.evaluateAll defaults answer with
      | some fresh => .running fresh
      | none => if load.getD [] = [] then .paused flags else .running flags
  | .running flags, .event wire _ => .running (lib.apply wire flags)
  | .running flags, .halt => .paused flags
  | q, _ => q

end

/-! ## JavaScript -/

namespace Js

/-- What a store keeps, once it has been called. -/
def keptAfter (kept : Cache (Option String)) (effects : List Effect) : Cache (Option String) :=
  effects.foldl (fun kept e =>
    match e with
    | .save entries => entries
    | _ => kept) kept

def Effect.saves : Effect → Bool
  | .save _ => true
  | _ => false

def Effect.writes : Effect → Bool
  | .write => true
  | _ => false

/-- The cache has been replaced, and has not been saved since. Re-hydrations
    replace it without saving it. What the store has loaded is not saved
    either, but is there. -/
def unsavedAfter (unsaved : Bool) (o : Observed) : Bool :=
  match o.event with
  | .rehydrationBody _ _ => unsaved || o.effects.any Effect.writes
  | .loaded (some (_ :: _)) => false
  | _ => unsaved && !o.effects.any Effect.saves

/-- What is observed of a process with a client, and the client at its end. -/
abbrev Life := List Observed × CachedClient

def Life.kept (kept : Cache (Option String)) (life : Life) : Cache (Option String) :=
  life.1.foldl (fun kept o => keptAfter kept o.effects) kept

def Life.unsaved (life : Life) : Bool := life.1.foldl unsavedAfter false

/-- The life of a client, given what the store keeps at its start. The store
    loads that, if anything. -/
def Life.Lived (timeout : Nat) (kept : Cache (Option String)) (life : Life) : Prop :=
  Steps (Observes timeout) {} life.1 life.2 ∧
    ∀ o ∈ life.1, ∀ entries, o.event = .loaded (some entries) → restoreCache entries = kept

/-- Lives one after another, with one store. -/
def Lives (timeout : Nat) : Cache (Option String) → List Life → Prop
  | _, [] => True
  | kept, life :: lives => life.Lived timeout kept ∧ Lives timeout (life.kept kept) lives

end Js

end Cuttlegate.Sdk
