/-
  PATHS of files.

  A path is written with slashes.  Empty parts and parts that are a single dot do not count; a
  part of two dots stays, for only the file tree knows what it leads to.  A path that begins with
  one slash is absolute, and so is one that begins with exactly two, which are then kept; three
  or more are as good as one.
-/
namespace SmallScheme

/-- Where a path starts. -/
inductive Path.Anchor where
  | relative
  | root
  | doubleRoot
  deriving DecidableEq, Repr

/-- A path: where it starts, and its parts. -/
structure Path where
  anchor : Path.Anchor
  parts : List String
  deriving DecidableEq, Repr

namespace Path

/-- The texts between the occurrences of `mark`. -/
def splitAt (mark : Char) : List Char → List (List Char)
  | [] => [[]]
  | c :: cs =>
    if c = mark then [] :: splitAt mark cs
    else
      match splitAt mark cs with
      | [] => [[c]]
      | s :: rest => (c :: s) :: rest

/-- The anchor that a text begins with. -/
def anchorOf (cs : List Char) : Anchor :=
  match (cs.takeWhile (· == '/')).length with
  | 0 => .relative
  | 2 => .doubleRoot
  | _ => .root

/-- The path that a text writes. -/
def ofString (s : String) : Path :=
  let cs := s.toList
  let parts := (splitAt '/' cs).filter fun part => part ≠ [] ∧ part ≠ ['.']
  ⟨anchorOf cs, parts.map String.ofList⟩

/-- Is the path absolute? -/
def isAbsolute (p : Path) : Bool := p.anchor ≠ .relative

/-- Is there a null character in the path?  No file has such a path. -/
def hasNull (p : Path) : Bool := p.parts.any fun part => part.toList.contains '\x00'

/-- The second path seen from the first; an absolute path is the same from everywhere. -/
def join (p q : Path) : Path := if q.isAbsolute then q else ⟨p.anchor, p.parts ++ q.parts⟩

/-- How the anchor is written. -/
def Anchor.text : Anchor → String
  | .relative => ""
  | .root => "/"
  | .doubleRoot => "//"

/-- How the path is written; a path without anchor and parts is a dot. -/
def text (p : Path) : String :=
  match p.anchor, p.parts with
  | .relative, [] => "."
  | anchor, parts => anchor.text ++ "/".intercalate parts

/-- An absolute path stays what it is, whatever it is seen from. -/
theorem join_absolute {p q : Path} (h : q.isAbsolute = true) : p.join q = q := by
  simp [join, h]

end Path

end SmallScheme
