import StoryCatalog.Json.Reader
import StoryCatalog.Path
import StoryCatalog.Text.Utf8

/-!
# Files

A tree of directories and files, with the time of each file's last change, and what can be done with
a path in it. A path is followed name by name, so every name before the last has to be a directory.
Main statements: a file just written is read back (`read_write`), and the other files stay as they
are (`node?_put_of_ne`).
-/

namespace StoryCatalog

/-- What a path may lead to. -/
inductive Node where
  | directory
  | file (content : Bytes) (modified : Binary64)
  deriving Inhabited

/-- A tree of files: what stands under the names that lead to it from the root, and the directory
that relative paths start from. -/
structure FileSystem where
  working : Path
  nodes : List (List Text × Node)
  deriving Inhabited

/-- Why a path cannot be used. -/
inductive FileFault where
  | notFound
  | notDirectory
  | isDirectory
  | alreadyExists
  deriving DecidableEq, Repr

namespace FileFault

/-- The wording of a fault for a path. -/
def message (path : Path) (fault : FileFault) : Text :=
  let wording : Text :=
    match fault with
    | .notFound => "[Errno 2] No such file or directory: "
    | .notDirectory => "[Errno 20] Not a directory: "
    | .isDirectory => "[Errno 21] Is a directory: "
    | .alreadyExists => "[Errno 17] File exists: "
  wording ++ path.text.quoted

end FileFault

namespace FileSystem

/-- What stands under names in a list of nodes. -/
def lookup (nodes : List (List Text × Node)) (names : List Text) : Option Node :=
  match nodes with
  | [] => none
  | (key, node) :: rest => if key = names then some node else lookup rest names

/-- What stands under names; the root is a directory. -/
def node? (fs : FileSystem) (names : List Text) : Option Node :=
  if names.isEmpty then some .directory else lookup fs.nodes names

/-- The nodes with one of them put under names. -/
def putNode (nodes : List (List Text × Node)) (names : List Text) (node : Node) :
    List (List Text × Node) :=
  match nodes with
  | [] => [(names, node)]
  | (key, old) :: rest =>
    if key = names then (names, node) :: rest else (key, old) :: putNode rest names node

/-- The tree with a node put under names. -/
def put (fs : FileSystem) (names : List Text) (node : Node) : FileSystem :=
  { fs with nodes := putNode fs.nodes names node }

/-- A node just put in is found. -/
theorem lookup_putNode_self (nodes : List (List Text × Node)) (names : List Text) (node : Node) :
    lookup (putNode nodes names node) names = some node := by
  induction nodes with
  | nil => simp [putNode, lookup]
  | cons entry rest ih =>
    obtain ⟨key, old⟩ := entry
    by_cases h : key = names <;> simp [putNode, lookup, h, ih]

/-- Putting a node in leaves the others as they are. -/
theorem lookup_putNode_of_ne (nodes : List (List Text × Node)) {names other : List Text}
    (node : Node) (h : names ≠ other) :
    lookup (putNode nodes names node) other = lookup nodes other := by
  induction nodes with
  | nil => simp [putNode, lookup, h]
  | cons entry rest ih =>
    obtain ⟨key, old⟩ := entry
    by_cases hk : key = names
    · subst hk
      simp [putNode, lookup, h]
    · simp [putNode, lookup, hk, ih]

/-- Putting a node in leaves what stands under other names as it is. -/
theorem node?_put_of_ne (fs : FileSystem) {names other : List Text} (node : Node)
    (h : names ≠ other) : (fs.put names node).node? other = fs.node? other := by
  simp [node?, put, lookup_putNode_of_ne fs.nodes node h]

/-- The names that further names lead to from a directory. -/
def walk (fs : FileSystem) (directory : List Text) : List Text → Except FileFault (List Text)
  | [] => .ok directory
  | name :: rest =>
    match fs.node? directory with
    | some .directory =>
      if name = (".." : Text) then fs.walk directory.dropLast rest
      else fs.walk (directory ++ [name]) rest
    | some (.file ..) => .error .notDirectory
    | none => .error .notFound

/-- The names that a path leads to; only the last may lead to nothing. -/
def locate (fs : FileSystem) (p : Path) : Except FileFault (List Text) :=
  fs.walk [] (fs.working.join p).names

/-- What a path leads to. -/
def find (fs : FileSystem) (p : Path) : Except FileFault Node := do
  match fs.node? (← fs.locate p) with
  | some node => return node
  | none => .error .notFound

/-- Whether a path leads to a file. -/
def isFile (fs : FileSystem) (p : Path) : Bool :=
  match fs.find p with
  | .ok (.file ..) => true
  | _ => false

/-- Whether a path leads to a directory. -/
def isDirectory (fs : FileSystem) (p : Path) : Bool :=
  match fs.find p with
  | .ok .directory => true
  | _ => false

/-- The content of the file that a path leads to. -/
def read (fs : FileSystem) (p : Path) : Except FileFault Bytes := do
  match ← fs.find p with
  | .file content _ => return content
  | .directory => .error .isDirectory

/-- The time of the last change of the file that a path leads to. -/
def modified? (fs : FileSystem) (p : Path) : Option Binary64 :=
  match fs.find p with
  | .ok (.file _ time) => some time
  | _ => none

/-- The tree with a file at a path, in place of one that was there. -/
def write (fs : FileSystem) (p : Path) (content : Bytes) (time : Binary64) :
    Except FileFault FileSystem := do
  let names ← fs.locate p
  match fs.node? names with
  | some .directory => .error .isDirectory
  | _ => return fs.put names (.file content time)

/-- The tree with the file at a path changed at a given time. -/
def setModified (fs : FileSystem) (p : Path) (time : Binary64) : Except FileFault FileSystem := do
  let names ← fs.locate p
  match fs.node? names with
  | some (.file content _) => return fs.put names (.file content time)
  | some .directory => return fs
  | none => .error .notFound

/-- The tree without the file at a path. -/
def delete (fs : FileSystem) (p : Path) : Except FileFault FileSystem := do
  let names ← fs.locate p
  match fs.node? names with
  | some (.file ..) => return { fs with nodes := fs.nodes.filter (·.1 != names) }
  | some .directory => .error .isDirectory
  | none => .error .notFound

/-- The tree with all directories that further names lead through from a directory. -/
def makeFrom (fs : FileSystem) (directory : List Text) :
    List Text → Except FileFault FileSystem
  | [] => .ok fs
  | name :: rest =>
    if name = (".." : Text) then fs.makeFrom directory.dropLast rest
    else
      let inner := directory ++ [name]
      match fs.node? inner with
      | some .directory => fs.makeFrom inner rest
      | some (.file ..) => .error (if rest.isEmpty then .alreadyExists else .notDirectory)
      | none => (fs.put inner .directory).makeFrom inner rest

/-- The tree with a directory at a path, and with all directories on the way to it. -/
def makeDirectory (fs : FileSystem) (p : Path) : Except FileFault FileSystem :=
  fs.makeFrom [] (fs.working.join p).names

/-- A file just written is read back. -/
theorem read_write {fs fs' : FileSystem} {p : Path} {content : Bytes} {time : Binary64}
    {names : List Text} (hlocate : fs'.locate p = .ok names) (hnames : names ≠ [])
    (h : fs' = fs.put names (.file content time)) : fs'.read p = .ok content := by
  have hnode : fs'.node? names = some (.file content time) := by
    subst h
    simp [node?, put, lookup_putNode_self, hnames]
  simp [read, find, hlocate, hnode, bind, Except.bind, pure, Except.pure]

/-- The names of the files below a directory, from it on. -/
def filesBelow (fs : FileSystem) (directory : List Text) : List (List Text) :=
  fs.nodes.filterMap fun (names, node) ↦
    match node with
    | .file .. =>
      if directory.isPrefixOf names then some (names.drop directory.length) else none
    | .directory => none

/-- Why a file gives no text. -/
inductive TextFault where
  | file (fault : FileFault)
  | encoding (fault : DecodeFault)

/-- The wording of a fault for a path. -/
def TextFault.message (path : Path) : TextFault → Text
  | .file fault => fault.message path
  | .encoding fault => fault.message

/-- The text of a file in UTF-8, with line feeds for all line breaks. -/
def readText (fs : FileSystem) (p : Path) : Except TextFault Text :=
  match fs.read p with
  | .error fault => .error (.file fault)
  | .ok content =>
    match Utf8.decode content with
    | .error fault => .error (.encoding fault)
    | .ok t => .ok (Utf8.unifyLineBreaks t)

/-- Why a file gives no JSON value. -/
inductive DocumentFault where
  | text (fault : TextFault)
  | json (fault : Json.ReadError)

/-- The JSON value of a file. -/
def readJson (fs : FileSystem) (p : Path) : Except DocumentFault Json :=
  match fs.readText p with
  | .error fault => .error (.text fault)
  | .ok t =>
    match Json.read t with
    | .error fault => .error (.json fault)
    | .ok value => .ok value

end FileSystem

end StoryCatalog
