/-!
# Paths

A path is what it is anchored at and the names that lead on from there. The text
of a path may hold empty names and the name `.`, which lead nowhere and are left
out; `..` is kept, since it leads back only if what is before it is a directory.
Two slashes in front are an anchor of their own, three or more count as one.

A location is where a path leads once every `..` is taken. There are no links on
our disks, so a place has one location, and many paths.
-/

namespace Changefeed

/-! ## Locations -/

/-- Where something is on a disk: the names that lead to it from the root or from the working
directory. Names `..` in front lead above the working directory. -/
structure Location where
  rooted : Bool
  names : List String
deriving DecidableEq, Repr

namespace Location

/-- Whether a location is there on every disk: the root, the working directory and those above. -/
def isFixed (l : Location) : Bool := l.names.all (· = "..")

/-- Where a name leads from a location; `..` leads back, and at the root nowhere. -/
def enter (l : Location) (name : String) : Location :=
  if name ≠ ".." then { l with names := l.names ++ [name] }
  else if !l.isFixed then { l with names := l.names.dropLast }
  else if l.rooted then l
  else { l with names := l.names ++ [name] }

/-- Whether a location is another one or lies below it. -/
def isWithin (l base : Location) : Bool :=
  l.rooted = base.rooted && base.names.isPrefixOf l.names

/-- A location after what is at `source` was moved to `target`. -/
def moved (l source target : Location) : Location :=
  if l.isWithin source then
    { target with names := target.names ++ l.names.drop source.names.length }
  else l

end Location

/-! ## Paths -/

/-- What a path is anchored at. -/
inductive Anchor where
  /-- The working directory. -/
  | here
  /-- The root. -/
  | root
  /-- The root, written with two slashes. -/
  | doubled
deriving DecidableEq, Repr

/-- The text of an anchor. -/
def Anchor.text : Anchor → String
  | .here => ""
  | .root => "/"
  | .doubled => "//"

/-- A path. -/
structure Path where
  anchor : Anchor
  names : List String
deriving DecidableEq, Repr

namespace Path

/-- The parts of a text between slashes. -/
def segments : List Char → List (List Char)
  | [] => [[]]
  | '/' :: cs => [] :: segments cs
  | c :: cs =>
    match segments cs with
    | [] => [[c]]
    | s :: rest => (c :: s) :: rest

/-- The anchor of a text. -/
def anchorOf : List Char → Anchor
  | '/' :: '/' :: '/' :: _ => .root
  | '/' :: '/' :: _ => .doubled
  | '/' :: _ => .root
  | _ => .here

/-- Whether a name leads anywhere. -/
def leads (name : List Char) : Bool := name ≠ [] && name ≠ ['.']

/-- The path that a text denotes. -/
def ofText (s : String) : Path :=
  ⟨anchorOf s.toList, ((segments s.toList).filter leads).map String.ofList⟩

/-- The text of a path; the working directory is written as a point. -/
def text (p : Path) : String :=
  if p.anchor = .here ∧ p.names = [] then "." else p.anchor.text ++ "/".intercalate p.names

/-- The last name of a path. -/
def name (p : Path) : String := p.names.getLastD ""

/-- The path without its last name. -/
def parent (p : Path) : Path := { p with names := p.names.dropLast }

/-- The path as far as its first `n` names. -/
def upTo (p : Path) (n : Nat) : Path := { p with names := p.names.take n }

/-- A path with one more name. -/
def child (p : Path) (name : String) : Path := { p with names := p.names ++ [name] }

/-- Whether a path holds the null character, which no name may hold. -/
def hasNull (p : Path) : Bool := p.names.any fun name => name.toList.contains '\x00'

/-- Where a path starts. -/
def start (p : Path) : Location := ⟨p.anchor ≠ .here, []⟩

/-- The path to the same place on a disk on which everything is a directory: every `..` is taken
together with the name before it. -/
def normal (p : Path) : Path := { p with names := (p.names.foldl Location.enter p.start).names }

instance : ToString Path := ⟨text⟩

end Path

end Changefeed
