import TokenListing.Text.Pieces

set_option autoImplicit false

/-!
Files by their paths. A path is walked component by component, from the root if it starts with a
slash and from the working directory if not; each component but the last must be a directory, and
what the walk comes to must be a file. Paths and their components have a greatest length, counted in
bytes.
-/

namespace TokenListing.Command

/-- Why the system gives no file. -/
inductive SystemError where
  | notFound
  | notDirectory
  | isDirectory
  | nameTooLong
  | other (text : String)
  deriving DecidableEq, Repr

def SystemError.text : SystemError → String
  | .notFound => "No such file or directory (os error 2)"
  | .notDirectory => "Not a directory (os error 20)"
  | .isDirectory => "Is a directory (os error 21)"
  | .nameTooLong => "File name too long (os error 36)"
  | .other text => text

/-- The components of a path. A slash at the end leaves an empty one behind it. -/
def components (path : List Char) : List (List Char) :=
  Text.pieces '/' path

/-- An empty component and a single dot stay in the directory. -/
def staysPut (name : List Char) : Bool :=
  name == [] || name == ['.']

/-- The greatest number of bytes in a path. -/
def pathLimit : Nat := 4095

/-- The greatest number of bytes in a component. -/
def nameLimit : Nat := 255

inductive Node where
  | file (content : ByteArray)
  | directory

/-- What lies in a directory and below it, by its path from there. -/
structure Folder where
  entries : List (List (List Char) × Node)

namespace Folder

/-- The entries that come with a node at the end of a path: each directory on the way, and the node
itself. -/
def trail (node : Node) (here : List (List Char)) : List (List Char) → List (List (List Char) × Node)
  | [] => []
  | name :: rest =>
    if staysPut name then trail node here rest
    else if name = ['.', '.'] then trail node here.dropLast rest
    else
      let next := here ++ [name]
      if rest = [] then [(next, node)] else (next, .directory) :: trail node next rest

/-- Of two nodes at one path the later one stays. -/
def ofList (entries : List (String × Node)) : Folder :=
  ⟨(entries.flatMap fun e => trail e.2 [] (components e.1.toList)).reverse⟩

def find? (f : Folder) (path : List (List Char)) : Option Node :=
  f.entries.lookup path

end Folder

/-- The two places from which paths are walked. -/
structure FileTree where
  working : Folder
  root : Folder

namespace FileTree

/-- Where a walk stands: in the working directory or below it, at the root or below it, or in a
directory of which no more is known. -/
inductive Spot where
  | working (below : List (List Char))
  | root (below : List (List Char))
  | outside
  deriving DecidableEq, Repr

namespace Spot

/-- The root is its own parent. -/
def parent : Spot → Spot
  | .working [] => .outside
  | .working (name :: names) => .working (name :: names).dropLast
  | .root names => .root names.dropLast
  | .outside => .outside

def enter (spot : Spot) (name : List Char) : Spot :=
  match spot with
  | .working names => .working (names ++ [name])
  | .root names => .root (names ++ [name])
  | .outside => .outside

end Spot

def find? (t : FileTree) : Spot → Option Node
  | .working names => t.working.find? names
  | .root names => t.root.find? names
  | .outside => none

def walk (t : FileTree) (spot : Spot) : List (List Char) → Except SystemError ByteArray
  | [] => .error .isDirectory
  | name :: rest =>
    if staysPut name then t.walk spot rest
    else if name = ['.', '.'] then t.walk spot.parent rest
    else if nameLimit < (String.ofList name).utf8ByteSize then .error .nameTooLong
    else
      match t.find? (spot.enter name) with
      | none => .error .notFound
      | some .directory => t.walk (spot.enter name) rest
      | some (.file content) => if rest = [] then .ok content else .error .notDirectory

/-- The content of the file at a path. -/
def read (t : FileTree) (path : String) : Except SystemError ByteArray :=
  if pathLimit < path.utf8ByteSize then .error .nameTooLong
  else
    match path.toList with
    | '/' :: rest => t.walk (.root []) (components rest)
    | cs => t.walk (.working []) (components cs)

end FileTree

end TokenListing.Command
