/-
  A FILE TREE: which files there are, what bytes they hold, and which folders.

  A place is named by the parts that lead to it from the root, and holds a file, a folder or
  nothing.  A folder is there when it was put there or when something lies below it.  There are
  two ways along a path.  `walk` goes step by step, as opening a file does: two dots lead back,
  every step has to start in a folder, and no part may be longer than the name of a file can be.
  `simplify` cancels two dots against the part before, whatever there is.
-/
import SmallScheme.Path

namespace SmallScheme

/-- A tree of files and folders. -/
structure FileTree where
  folders : List (List String)
  files : List (List String × List UInt8)

namespace FileTree

/-- What is found at a place. -/
inductive Node where
  | file (bytes : List UInt8)
  | folder
  deriving Repr

/-- What is at the place. -/
def node? (tree : FileTree) (place : List String) : Option Node :=
  match tree.files.lookup place with
  | some bytes => some (.file bytes)
  | none =>
    if place = [] || tree.folders.any place.isPrefixOf
        || tree.files.any (fun (file, _) => place.isPrefixOf file) then some .folder
    else none

/-- Why a file cannot be read. -/
inductive ReadError where
  | missing
  | isFolder
  | belowFile
  | nameTooLong
  deriving DecidableEq, Repr

/-- The most bytes that the name of a file may have. -/
def maxName : Nat := 255

/-- From how many bytes on a path is too long, whatever it leads to. -/
def maxPath : Nat := 4096

/-- Where the parts lead from a place. -/
def walk (tree : FileTree) :
    (place : List String) → (parts : List String) → Except ReadError (List String)
  | place, [] => .ok place
  | place, part :: parts =>
    match tree.node? place with
    | some .folder =>
      if maxName < part.utf8ByteSize then .error .nameTooLong
      else tree.walk (if part = ".." then place.dropLast else place ++ [part]) parts
    | some (.file _) => .error .belowFile
    | none => .error .missing

/-- The parts with every two dots cancelled against the part before them, from a place. -/
def simplify : (place : List String) → (parts : List String) → List String
  | place, [] => place
  | place, part :: parts =>
    simplify (if part = ".." then place.dropLast else place ++ [part]) parts

/-- What the parts lead to from a place. -/
def find (tree : FileTree) (place parts : List String) : Except ReadError Node :=
  match tree.walk place parts with
  | .error why => .error why
  | .ok place =>
    match tree.node? place with
    | some node => .ok node
    | none => .error .missing

end FileTree

end SmallScheme
