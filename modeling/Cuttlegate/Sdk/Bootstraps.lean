import Cuttlegate.Sdk.PlainClients

/-!
# The Bootstraps of Go and Python

How the cached clients of Go and Python get their first flags. Both ask the
plain client for all flags, and the store when that fails.

In Go a client can be bootstrapped again: the flags are replaced and the stream
of the earlier bootstrap is stopped, but only once there are new flags. In
Python the bootstrap is part of the constructor, so there is nothing before it,
and an exception of the store is raised in place of the one that led there.

What is saved to the store is left out: an error on the way is ignored.

## Main definitions

* `Sdk.Entries`, `Sdk.ofEntries`: What a store loads, and the cache it makes.
* `Sdk.Bootstrapped`: What a bootstrap reports and leaves behind.
* `Sdk.Go.CachedClient.bootstrap`, `Sdk.Python.bootstrap`: The bootstraps.
* `Sdk.Python.CachedClient`: The reads of the Python client, with a server that
  gives its plain client the same answer each time.
-/

namespace Cuttlegate.Sdk

/-- A map that a store loads. -/
abbrev Entries (Value : Type) := List (String × EvalResult Value)

/-- The cache of a map that a store loads. -/
def ofEntries {Value : Type} (entries : Entries Value) : Cache Value :=
  Feed.fill (·.1) (·.2) entries

/-- What a bootstrap reports and leaves behind: the error, whether the store was
    asked, the cache, and whether a stream is running. -/
structure Bootstrapped (Err Value : Type) where
  raised : Option Err
  asked : Bool
  cache : Cache Value
  streaming : Bool

namespace Go

/-- A cached client: its cache, and whether a stream is running. -/
structure CachedClient where
  cache : Cache String := fun _ => none
  streaming : Bool := false

/-- Ask for all flags, and the store when that fails. -/
def CachedClient.bootstrap (defaults : List (String × FlagDefault))
    (load : Option (Entries String)) (s : CachedClient) (reply : Reply) :
    Bootstrapped ClientErr String :=
  match evaluateAll defaults reply with
  | .ok results => { raised := none, asked := false, cache := results, streaming := true }
  | .error evalErr =>
      match load with
      | none =>
          { raised := some evalErr, asked := true, cache := s.cache, streaming := s.streaming }
      | some loaded =>
          if loaded.length = 0 then
            { raised := some evalErr, asked := true, cache := s.cache, streaming := s.streaming }
          else { raised := none, asked := true, cache := ofEntries loaded, streaming := true }

end Go

namespace Python

/-- What the constructor raises: what the request raised, or what the store
    did. -/
inductive Escaped where
  | request (raised : Raised)
  | store
  deriving DecidableEq, Repr

/-- Ask for all flags, and the store when that fails. -/
def bootstrap (defaults : List (String × Go.FlagDefault)) (load : Option (Entries String))
    (answer : Answer) : Bootstrapped Escaped String :=
  match evaluateAll defaults answer with
  | .ok results => { raised := none, asked := false, cache := results, streaming := true }
  | .error exc =>
      match load with
      | none =>
          { raised := some .store, asked := true, cache := fun _ => none, streaming := false }
      | some stored =>
          if stored.length > 0 then
            { raised := none, asked := true, cache := ofEntries stored, streaming := true }
          else
            { raised := some (.request exc), asked := true, cache := fun _ => none
              streaming := false }

/-! ### Reading the cached client -/

/-- A read of the record for a key, and of the plain client for a key that is
    not there. -/
def read {α : Type} (field : EvalResult String → α) (inner : String → Except Raised α)
    (cache : Cache String) (key : String) : Except Raised α :=
  match cache key with
  | some result => .ok (field result)
  | none => inner key

namespace CachedClient

variable (defaults : List (String × Go.FlagDefault)) (answer : Answer) (cache : Cache String)
  (key : String)

def bool : Except Raised Bool := read (·.enabled) (Python.bool defaults answer) cache key

def string : Except Raised String := read (·.variant) (Python.string defaults answer) cache key

/-- The record is copied. -/
def evaluate : Except Raised (EvalResult String) :=
  read (fun result => result) (Python.evaluate defaults answer) cache key

end CachedClient

end Python

end Cuttlegate.Sdk
