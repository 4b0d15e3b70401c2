/-! Files in a directory: their paths as lists of names, and the bytes of each file. -/
namespace CommunityGraph

structure FileTree where
  files : List (List String × List UInt8)
  deriving Repr

namespace FileTree

def isDirectory (t : FileTree) (names : List String) : Bool :=
  names = [] || t.files.any fun (file, _) => names.length < file.length && names.isPrefixOf file

/-- Follows a path from the directory `reached`, which is kept innermost name first. Every name but
the last has to lead to a directory, and the path may not leave the outermost one. -/
def follow (t : FileTree) (reached : List String) : List String → Option (List String)
  | [] => some reached.reverse
  | name :: names =>
      if !t.isDirectory reached.reverse then none
      else if name = "" ∨ name = "." then t.follow reached names
      else if name = ".." then
        match reached with
        | [] => none
        | _ :: outer => t.follow outer names
      else t.follow (name :: reached) names

def locate (t : FileTree) (path : String) : Option (List String) :=
  if path = "" ∨ path.startsWith "/" then none else t.follow [] (path.splitOn "/")

def ofList (files : List (String × List UInt8)) : FileTree :=
  ⟨files.map fun (path, bytes) => (path.splitOn "/", bytes)⟩

def read (t : FileTree) (path : String) : Option (List UInt8) :=
  (t.locate path).bind fun names => t.files.lookup names

def canWrite (t : FileTree) (path : String) : Bool :=
  match t.locate path with
  | none => false
  | some names => !t.isDirectory names

def write (t : FileTree) (path : String) (bytes : List UInt8) : FileTree :=
  match t.locate path with
  | none => t
  | some names => ⟨(names, bytes) :: t.files⟩

end FileTree
end CommunityGraph
