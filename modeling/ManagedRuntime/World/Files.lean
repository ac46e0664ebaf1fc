/-!
File paths and the files that a program can see. Joining an absolute path replaces what stands
before it. A path is followed one component after the other from the working directory, the root of
a tree of files. Of what lies outside the tree only directories above it are known.
-/
namespace ManagedRuntime

namespace Path

def isAbsolute (p : String) : Bool := p.toList.head? = some '/'

def join (dir p : String) : String :=
  if isAbsolute p then p
  else if dir.isEmpty || dir.toList.getLast? = some '/' then dir ++ p
  else dir ++ "/" ++ p

def splitChars (sep : Char) : List Char → List (List Char)
  | [] => [[]]
  | c :: cs =>
    match splitChars sep cs with
    | [] => [[c]]
    | w :: ws => if c = sep then [] :: w :: ws else (c :: w) :: ws

/-- Components of a path; an empty one stands where a slash follows another or ends the path. -/
def components (p : String) : List String := (splitChars '/' p.toList).map String.ofList

def maxBytes : Nat := 4095

/-- The paths joined by colons; nothing if one of them holds a colon itself. -/
def joinList (ps : List String) : String :=
  if ps.any (·.toList.contains ':') then "" else ":".intercalate ps

end Path

/-- Files by the components of their paths from the root of the tree. -/
structure FileTree where
  files : List (List String × ByteArray)

inductive Place where
  | inside (components : List String)
  | above
  deriving DecidableEq, Repr

namespace FileTree

def empty : FileTree := ⟨[]⟩

def ofList (files : List (String × ByteArray)) : FileTree :=
  ⟨files.map fun f => ((Path.components f.1).filter fun c => c ≠ "" ∧ c ≠ ".", f.2)⟩

def hasDirectory (t : FileTree) : Place → Bool
  | .above => true
  | .inside dir =>
    dir.isEmpty || t.files.any fun f => dir.length < f.1.length && f.1.take dir.length == dir

def follow (t : FileTree) (place : Place) (component : String) : Option Place :=
  if t.hasDirectory place then
    if component = "" ∨ component = "." then some place
    else
      match place with
      | .above => if component = ".." then some .above else none
      | .inside dir =>
        if component ≠ ".." then some (.inside (dir ++ [component]))
        else if dir.isEmpty then some .above
        else some (.inside dir.dropLast)
  else none

/-- The place that a path names, none if it leads through something that is no directory. -/
def locate (t : FileTree) (p : String) : Option Place :=
  if p.isEmpty || p.utf8ByteSize > Path.maxBytes then none
  else
    let start := if Path.isAbsolute p then .above else .inside []
    (Path.components p).foldlM t.follow start

def fileAt (t : FileTree) : Place → Option ByteArray
  | .above => none
  | .inside cs => t.files.lookup cs

def read? (t : FileTree) (p : String) : Option ByteArray := (t.locate p).bind t.fileAt

def contains (t : FileTree) (p : String) : Bool :=
  (t.locate p).any fun place => t.hasDirectory place || (t.fileAt place).isSome

end FileTree
end ManagedRuntime
