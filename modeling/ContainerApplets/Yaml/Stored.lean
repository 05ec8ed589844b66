import ContainerApplets.Yaml.Document

/-!
Records read straight from the nodes of a document. A scalar in the place of a text is taken with
its source text, whatever it looks like; nothing at all is an empty list or an empty record.
-/

namespace ContainerApplets.Yaml.Stored

/-- A plain scalar without text, or no document. -/
def isNothing : Node → Bool
  | .scalar _ _ text isPlain => text.isEmpty && isPlain
  | _ => false

def asText : Node → Except Fault String
  | .scalar _ _ text _ => .ok text
  | _ => .error (.unexpected "a string")

def asList (node : Node) : Except Fault (List Node) :=
  match node with
  | .list _ _ items => .ok items
  | _ => if isNothing node then .ok [] else .error (.unexpected "a sequence")

/-- A null leaves the value out. The tag of null admits nothing else. -/
def asOptional (node : Node) : Except Fault (Option Node) :=
  match node with
  | .scalar _ tag text true =>
      if tag = some (Scalar.standardTag "null") then
        if Scalar.isNull text.toList then .ok none else .error .forcedType
      else if text.isEmpty || Scalar.isNull text.toList then .ok none
      else .ok (some node)
  | _ => .ok (some node)

/-- One of some names; as a tag of the document's own it stands on a null. -/
def asChoice {Value : Type} (choices : List (String × Value)) (node : Node) : Except Fault Value :=
  let choose := fun (name : String) => match choices.lookup name with
    | some value => .ok value
    | none => .error (Fault.unexpected "a known variant")
  match node with
  | .scalar _ tag text isPlain =>
      match tag.filter Scalar.isLocalTag with
      | some tag =>
          if isPlain && (text.isEmpty || Scalar.isNull text.toList) then choose (tagName tag)
          else .error (.unexpected "a unit variant")
      | none => choose text
  | _ => .error (.unexpected "a variant")

/-- The fields of a record by their names, all of them known and none twice. -/
def fields (known : List String) (node : Node) : Except Fault (List (String × Node)) :=
  match node with
  | .map _ _ entries =>
      entries.foldlM (fun found entry => do
        let name ← asText entry.1
        if !known.contains name then throw (.unexpected "a known field")
        if (found.lookup name).isSome then throw .duplicateKey
        return found ++ [(name, entry.2)]) []
  | _ => if isNothing node then .ok [] else .error (.unexpected "a mapping")

def required (found : List (String × Node)) (name : String) : Except Fault Node :=
  match found.lookup name with
  | some node => .ok node
  | none => .error (.unexpected ("field " ++ name))

/-- The document of a text; without one it is nothing. -/
def ofText (text : String) : Except Fault Node := do
  return (← document? text).getD .absent

end ContainerApplets.Yaml.Stored
