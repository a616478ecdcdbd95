import StoryCatalog.Text.CodePoint

/-!
# Paths

A path is a list of names under a root, or relative to an unnamed place. Empty names and single
dots are dropped when a path is read; two dots are kept until the path is resolved.
-/

namespace StoryCatalog

/-- A path: its root (`/`, `//` or empty) and the names below it. -/
structure Path where
  root : Text
  names : List Text
  deriving DecidableEq, Repr, Inhabited

/-- A home directory is not known. -/
inductive HomeFault where
  | unknown
  deriving DecidableEq, Repr

/-- The wording of the fault. -/
def HomeFault.message (_ : HomeFault) : Text := "Could not determine home directory."

/-- The home directories: that of the user who runs the program, and those of the users whose names
are known. -/
structure Homes where
  own : Path
  ofUser : Text → Option Path

namespace Homes

/-- Only the own home directory is known. -/
def ofPath (own : Path) : Homes := ⟨own, fun _ ↦ none⟩

instance : Coe Path Homes := ⟨ofPath⟩

/-- The home directory that a tilde and a name stand for, the own one without a name. -/
def find? (homes : Homes) (user : Text) : Option Path :=
  if user.isEmpty then some homes.own else homes.ofUser user

end Homes

namespace Path

private def slash : CodePoint := CodePoint.ofChar '/'

/-- The path that a text denotes. Two slashes at the start are a root of their own, more are one. -/
def ofText (t : Text) : Path :=
  let slashes := (t.takeWhile (· == slash)).length
  { root := if slashes = 0 then [] else if slashes = 2 then [slash, slash] else [slash]
    names := (Text.splitOn slash t).filter fun name ↦ !name.isEmpty && name != ("." : Text) }

/-- The path that a string denotes. -/
def ofString (s : String) : Path := ofText s

/-- The text of a path; the empty relative path is a dot. -/
def text (p : Path) : Text :=
  if p.root.isEmpty && p.names.isEmpty then "." else p.root ++ Text.join [slash] p.names

/-- Whether a path begins at a root. -/
def isAbsolute (p : Path) : Bool := !p.root.isEmpty

/-- A path taken relative to another one. -/
def join (base p : Path) : Path :=
  if p.isAbsolute then p else ⟨base.root, base.names ++ p.names⟩

/-- The path of a name inside a directory. -/
def child (p : Path) (name : Text) : Path := p.join (ofText name)

/-- The last name, empty for a path without names. -/
def name (p : Path) : Text := p.names.getLast?.getD []

/-- The path without its last name. -/
def parent (p : Path) : Path := ⟨p.root, p.names.dropLast⟩

/-- What follows the last dot of the last name, with the dot; nothing if the dot is its first or
its last code point. -/
def suffix (p : Path) : Text :=
  let dot := CodePoint.ofChar '.'
  let name := p.name
  let ending := (name.reverse.takeWhile (· != dot)).reverse
  if ending.isEmpty || name.length ≤ ending.length + 1 then [] else dot :: ending

/-- Names with each pair of a name and two dots behind it taken away. -/
def cancelDots (names : List Text) : List Text :=
  names.foldl (fun kept name ↦ if name = (".." : Text) then kept.dropLast else kept ++ [name]) []

/-- The absolute path that a path denotes in a working directory. -/
def resolve (working p : Path) : Path :=
  let whole := working.join p
  ⟨[slash], cancelDots whole.names⟩

/-- A path with a home directory in the place of a tilde, or of a tilde and the name of a user. -/
def expandHome (p : Path) (homes : Homes) : Except HomeFault Path :=
  match p.root, p.names with
  | [], first :: rest =>
    if Text.startsWith first "~" then
      match homes.find? (first.drop 1) with
      | some home => .ok (home.join ⟨[], rest⟩)
      | none => .error .unknown
    else .ok p
  | _, _ => .ok p

/-- The names of a path below a directory. -/
def below? (p directory : Path) : Option (List Text) :=
  if p.root = directory.root && directory.names.isPrefixOf p.names then
    some (p.names.drop directory.names.length)
  else none

/-- Whether a path comes before another one, name by name. -/
def isBefore (p q : Path) : Bool :=
  let rec go : List Text → List Text → Bool
    | [], [] => false
    | [], _ :: _ => true
    | _ :: _, [] => false
    | a :: s, b :: t => Text.isBefore a b || (a == b && go s t)
  go p.names q.names

end Path

end StoryCatalog
