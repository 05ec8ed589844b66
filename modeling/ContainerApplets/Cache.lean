import ContainerApplets.Fragment.Decode
import ContainerApplets.Merge
import ContainerApplets.Registry
import ContainerApplets.Timestamp

/-!
The cache holds the texts of all registered sources, so that variables are still replaced at each
invocation. It is refreshed as a whole: only sources that can be read, and that merge, replace it.
-/

namespace ContainerApplets

structure CachedFragment where
  origin : String
  content : String
  deriving DecidableEq, Inhabited

structure Cache where
  updatedAt : Option Timestamp
  fragments : List CachedFragment
  deriving DecidableEq

namespace Cache

def empty : Cache := ⟨none, []⟩

instance : Inhabited Cache := ⟨empty⟩

/-! ### The stored document -/

def text (cache : Cache) : String :=
  Yaml.Written.document (
    (cache.updatedAt.toList.map fun time => ("updated_at", .text time.text)) ++
    [("fragments", .records (cache.fragments.map fun fragment =>
      [("origin", fragment.origin), ("content", fragment.content)]))])

open Yaml in
def readFragment (node : Node) : Except Fault CachedFragment := do
  let found ← Stored.fields ["origin", "content"] node
  let origin ← Stored.asText (← Stored.required found "origin")
  let content ← Stored.asText (← Stored.required found "content")
  return ⟨origin, content⟩

open Yaml in
def readTime (node : Node) : Except Fault (Option Timestamp) := do
  match ← Stored.asOptional node with
  | none => return none
  | some node =>
      match Timestamp.ofText? (← Stored.asText node) with
      | some time => return some time
      | none => throw (.unexpected "a point in time")

open Yaml in
def ofText (text : String) : Except Fault Cache := do
  let found ← Stored.fields ["updated_at", "fragments"] (← Stored.ofText text)
  let updatedAt ← match found.lookup "updated_at" with
    | some node => readTime node
    | none => pure none
  let fragments ← match found.lookup "fragments" with
    | some node => (← Stored.asList node).mapM readFragment
    | none => pure []
  return ⟨updatedAt, fragments⟩

def load (files : Files) (path : String) : Outcome Cache :=
  loadStored "cache" empty ofText files path

/-! ### Fragments -/

def fragmentOf (lookup : Environment) (cached : CachedFragment) : Outcome Fragment :=
  Outcome.within ("Cached fragment " ++ cached.origin ++ " is invalid")
    (Outcome.ofResult (Fragment.ofText cached.origin lookup cached.content))

def toFragments (cache : Cache) (lookup : Environment) : Outcome (List Fragment) :=
  cache.fragments.mapM (fragmentOf lookup)

def fetchSource (network : Network) (lookup : Environment) (files : Files) (source : Source) :
    Except Failure CachedFragment := do
  return ⟨source.origin, ← source.fetch network lookup files⟩

/-- A new cache of all sources of a registry, in its order. -/
def refresh (registry : Registry) (network : Network) (lookup : Environment) (files : Files)
    (now : Timestamp) : Outcome Cache := do
  let fragments ← Outcome.ofResult (registry.sources.mapM (fetchSource network lookup files))
  let cache : Cache := ⟨some now, fragments⟩
  discard (Outcome.within "Registry sources do not merge"
    (Outcome.ofResult (merge (← cache.toFragments lookup))))
  return cache

end Cache

end ContainerApplets
