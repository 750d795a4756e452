/-
  REQUIREMENTS: the modules that a program may ask for.

  The operand of `require` is a literal, and no form makes expressions out of data.  So every
  module that a program can ask for is named in a list `(require "name")` somewhere in its text,
  or in the text of a module that it asks for.  Such a list may also be mere data, or never be
  evaluated; the names here are all that may be needed, not those that will be.
-/
import SmallScheme.Loader

namespace SmallScheme

mutual

/-- The names in all lists `(require "name")` inside a value. -/
def Value.requirements : Value → List String
  | .list _ vs =>
    match vs with
    | [.symbol "require", .str name] => [name]
    | vs => Value.allRequirements vs
  | .dotted _ vs v => Value.allRequirements vs ++ v.requirements
  | _ => []

/-- The names in all such lists inside values. -/
def Value.allRequirements : List Value → List String
  | [] => []
  | v :: vs => v.requirements ++ Value.allRequirements vs

end

/-- The names of the modules that a text may ask for. -/
def Script.requirements (script : Script) : List String := Value.allRequirements script.forms

/-- The paths at which a module may be found. -/
def Loader.candidates (loader : Loader) (name : String) : List Path :=
  match Loader.modulePath name with
  | .ok path => if path.isAbsolute then [path] else loader.roots.map fun root => root.join path
  | .error _ => []

/-- The paths at which the modules may be found that a text may ask for. -/
def Loader.candidatesOf (loader : Loader) (room : Nat) (source : String) : List Path :=
  (Script.ofText room source).requirements.flatMap loader.candidates

/-- The tree with a file, and with all folders on the way to it. -/
def Loader.addFile (loader : Loader) (path : Path) (bytes : List UInt8) : Loader :=
  let start := loader.start path
  let stops := (List.range path.parts.length).map fun n =>
    FileTree.simplify start (path.parts.take n)
  let file := FileTree.simplify start path.parts
  { loader with
    tree := ⟨stops ++ loader.tree.folders, (file, bytes) :: loader.tree.files⟩ }

/-- The tree with a folder. -/
def Loader.addFolder (loader : Loader) (path : Path) : Loader :=
  let folder := FileTree.simplify (loader.start path) path.parts
  { loader with tree := ⟨folder :: loader.tree.folders, loader.tree.files⟩ }

end SmallScheme
