/-!
Why a text is not a document that can be read.
-/

namespace ContainerApplets.Yaml

inductive Fault
  | forbidden
  | lexical
  /-- A token stands where it cannot stand. -/
  | structural
  | unknownAnchor
  | duplicateKey
  | severalDocuments
  /-- Collections inside collections, more than the limit. -/
  | tooDeep
  /-- Anchored nodes are repeated more often than the limit. -/
  | tooManyRepeats
  /-- An integer that has no place in 64 bits. -/
  | integerRange
  /-- A scalar does not have the type that its tag demands. -/
  | forcedType
  /-- A node does not have the form that its place demands. -/
  | unexpected (wanted : String)
  deriving DecidableEq, Inhabited

namespace Fault

def message : Fault → String
  | .forbidden => "control characters are not allowed"
  | .lexical => "found a character that starts no token"
  | .structural => "found a token out of place"
  | .unknownAnchor => "unknown anchor"
  | .duplicateKey => "duplicate entry in a mapping"
  | .severalDocuments => "more than one document"
  | .tooDeep => "recursion limit exceeded"
  | .tooManyRepeats => "repetition limit exceeded"
  | .integerRange => "integer out of range"
  | .forcedType => "a scalar does not match its tag"
  | .unexpected wanted => "expected " ++ wanted

end Fault

end ContainerApplets.Yaml
