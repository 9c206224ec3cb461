import SignalAccess.Machine.Basic
/-!
# File trees

A file tree holds directories, files and symbolic links under absolute paths. Walking a path follows
every link in front of the last element; a link is as long a way as its target, and a walk through
more than forty links is refused. So is an element that no directory could hold because it is too
long; a path as a whole has a limit of its own, which does not apply while it is made canonical
element by element. Relative paths start at the root.
-/
namespace SignalAccess

/-- What a path names. -/
inductive FileNode where
  | directory
  | file (bytes : Bytes)
  | link (target : Text)
  deriving DecidableEq, Repr

/-- The nodes of a tree under the elements of their paths. The root is a directory and needs no
entry. -/
structure FileTree where
  nodes : List (List Text × FileNode)
  deriving DecidableEq, Repr

namespace FileTree

/-- The tree that is a single empty directory. -/
def empty : FileTree := ⟨[]⟩

/-- What stands at a path of elements. -/
def node? (tree : FileTree) (place : List Text) : Option FileNode :=
  if place.isEmpty then some .directory else tree.nodes.lookup place

/-- The tree with a node, and with directories above it where nothing stood. -/
def insert (tree : FileTree) (place : List Text) (node : FileNode) : FileTree :=
  let above := (List.range place.length).map place.take
  let missing := above.filter fun parent => (tree.node? parent).isNone
  ⟨(place, node) :: missing.map (fun parent => (parent, .directory)) ++ tree.nodes⟩

/-- The most links that a walk follows. -/
def maxLinks : Nat := 40

/-- The most bytes of an element of a path. -/
def maxElement : Nat := 255

/-- The most bytes of a path. -/
def maxPath : Nat := 4095

/-- Walk `rest` from the directory at `place`, following at most `links` links; the place where the
walk ends. The last element is followed as well. -/
def walk (tree : FileTree) (links : Nat) (place : List Text) :
    List Text → Except Int32 (List Text)
  | [] => .ok place
  | element :: rest =>
    if element.isEmpty ∨ element = ['.'] then walk tree links place rest
    else if element = ['.', '.'] then walk tree links place.dropLast rest
    else if maxElement < element.byteLength then .error SystemCode.nameTooLong
    else
      match tree.node? (place ++ [element]) with
      | none => .error SystemCode.notFound
      | some .directory => walk tree links (place ++ [element]) rest
      | some (.file _) =>
        if rest.isEmpty then .ok (place ++ [element]) else .error SystemCode.notADirectory
      | some (.link target) =>
        match links with
        | 0 => .error SystemCode.tooManyLinks
        | links + 1 =>
          let start := if target.head? = some '/' then [] else place
          walk tree links start (Text.splitOn '/' target ++ rest)
termination_by elements => (links, elements.length)

/-- The place that a path leads to. -/
def place? (tree : FileTree) (path : Text) : Except Int32 (List Text) :=
  if path.isEmpty then .error SystemCode.notFound
  else walk tree maxLinks [] (Text.splitOn '/' path)

/-- The bytes of the file that a path leads to. -/
def open? (tree : FileTree) (path : Text) : Except Int32 Bytes :=
  if maxPath < path.byteLength then .error SystemCode.nameTooLong
  else do
    match tree.node? (← tree.place? path) with
    | some (.file bytes) => .ok bytes
    | some .directory => .error SystemCode.isADirectory
    | _ => .error SystemCode.notFound

/-- The contents of the file that a path leads to. No path holds the character zero. -/
def contents (tree : FileTree) (path : Text) : Except SystemFault Bytes :=
  if path.contains '\x00' then
    .error (.described "file name contained an unexpected NUL byte".toList)
  else (tree.open? path).mapError .numbered

/-- The path of the place that a path leads to. -/
def canonical? (tree : FileTree) (path : Text) : Option Text :=
  match tree.place? path with
  | .ok place => some ('/' :: Text.joinBy ['/'] place)
  | .error _ => none

/-- The target of the link that a path names, without following that link. -/
def linkTarget? (tree : FileTree) (path : Text) : Option Text :=
  let (above, name) := (path.breakAtLast '/').getD ([], path)
  match tree.place? (above ++ ['/']) with
  | .error _ => none
  | .ok place =>
    match tree.node? (place ++ [name]) with
    | some (.link target) => if path.byteLength ≤ maxPath then some target else none
    | _ => none

/-- The tree with a node at a path, whose elements are those between its slashes. -/
def insertAt (tree : FileTree) (path : Text) (node : FileNode) : FileTree :=
  tree.insert path.elements node

end FileTree

end SignalAccess
