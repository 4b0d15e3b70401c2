import CommunityGraph.Settings.Value

/-! Values with named fields. Every field is given at most once. In a mapping a field has its name;
in values whose kinds are decided by their looks, fields also go by their places. -/
namespace CommunityGraph.Settings

structure Shape where
  names : List String
  strict : Bool
  optional : Bool
  deriving DecidableEq, Repr

abbrev Fields (ν : Type) := List (String × ν)

namespace Shape
variable {ν : Type}

def collect? (shape : Shape) (nameOf : ν → Option (Option String)) :
    List (ν × ν) → Option (Fields ν)
  | [] => some []
  | (key, value) :: entries => do
      let name ← nameOf key
      let rest ← collect? shape nameOf entries
      match name with
      | none => if shape.strict then none else some rest
      | some name =>
          if rest.any fun (other, _) => other = name then none else some ((name, value) :: rest)

def knownName (shape : Shape) (name : String) : Option String :=
  if name ∈ shape.names then some name else none

def fields? (shape : Shape) (node : Node) : Option (Fields Node) :=
  node.entries?.bind (shape.collect? fun key => key.text?.map shape.knownName)

def resolvedName? (shape : Shape) : Value → Option (Option String)
  | .text name => some (shape.knownName name)
  | .natural place => some shape.names[place]?
  | _ => none

def resolvedFields? (shape : Shape) : Value → Option (Fields Value)
  | .mapping entries => shape.collect? shape.resolvedName? entries
  | .list items =>
      if shape.names.length < items.length then none
      else if items.length < shape.names.length && !shape.optional then none
      else some (shape.names.zip items)
  | _ => none

def pruned (shape : Shape) (node : Node) : Node :=
  match shape.strict, node with
  | false, .mapping tag entries =>
      .mapping tag (entries.map fun (key, value) =>
        (key, if (key.text?.bind shape.knownName).isSome then value else .absent))
  | _, node => node

end Shape

def Fields.getD {ν α : Type} (fields : Fields ν) (name : String) (read : ν → Option α)
    (usual : α) : Option α :=
  match fields.lookup name with
  | none => some usual
  | some value => read value

def Fields.get {ν α : Type} (fields : Fields ν) (name : String) (read : ν → Option α) : Option α :=
  (fields.lookup name).bind read

end CommunityGraph.Settings
