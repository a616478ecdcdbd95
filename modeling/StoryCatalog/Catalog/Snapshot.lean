import StoryCatalog.Catalog.Basic
import StoryCatalog.Files

/-!
# Snapshots

A snapshot is a catalog in a file, as indented JSON in UTF-8. It is first written whole under a name
that no file of the directory has, and then takes the place of the file at its path, so a reader
meets the old document or the new one and never a part. `read?` gives nothing for a file that holds
no catalog. Main statement: the name of the unfinished file is new (`freshName_not_mem`).
-/

namespace StoryCatalog

namespace Snapshot

/-- The catalog that a file holds. -/
def read? (fs : FileSystem) (now : Timestamp) (p : Path) : Option Catalog :=
  if fs.isFile p then
    match fs.readJson p with
    | .error _ => none
    | .ok value => (Catalog.ofJson now value).toOption
  else none

/-- The spaces by which a level of a snapshot is indented. -/
def indent : Nat := 2

/-- Why a catalog is not saved. -/
inductive SaveFault where
  | file (fault : FileFault)
  | number
  | encoding (fault : EncodeFault)
  | disk

/-- The step of a save at which the disk gives up, if it does. -/
inductive Trouble where
  | none
  | creating
  | writing
  | replacing
  deriving DecidableEq, Repr

/-- The wording of a fault of the file at a path. -/
def SaveFault.message (p : Path) : SaveFault → Text
  | .file fault => fault.message p
  | .number => TooManyDigits.message .tooManyDigits
  | .encoding fault => fault.message
  | .disk => "[Errno 5] Input/output error"

/-- The bytes of a snapshot. -/
def bytes (c : Catalog) : Except SaveFault Bytes :=
  match c.document (.indented indent) with
  | .error _ => .error .number
  | .ok document =>
    match Utf8.encode document with
    | .error fault => .error (.encoding fault)
    | .ok content => .ok content

/-- A name made from another one that is longer than all of some names. -/
def freshName (used : List Text) (name : Text) : Text :=
  let longest := used.foldr (fun t length ↦ max t.length length) 0
  Text.concat [".", name, ".", List.replicate (longest + 1) (CodePoint.ofChar 'x'), ".tmp"]

theorem length_le_longest {used : List Text} {t : Text} (h : t ∈ used) :
    t.length ≤ used.foldr (fun t length ↦ max t.length length) 0 := by
  induction used with
  | nil => simp at h
  | cons head rest ih =>
    rw [List.foldr_cons]
    rcases List.mem_cons.mp h with rfl | hrest
    · exact Nat.le_max_left ..
    · exact Nat.le_trans (ih hrest) (Nat.le_max_right ..)

/-- A fresh name is none of the names in use. -/
theorem freshName_not_mem (used : List Text) (name : Text) : freshName used name ∉ used := by
  intro h
  have hlength := length_le_longest h
  have hlong : (freshName used name).length
      ≥ used.foldr (fun t length ↦ max t.length length) 0 + 1 := by
    simp [freshName, Text.concat]; omega
  omega

/-- The names that nodes have in a directory. -/
def namesIn (fs : FileSystem) (directory : List Text) : List Text :=
  fs.nodes.filterMap fun (names, _) ↦
    if names.dropLast = directory then names.getLast? else none

/-- The tree without what stands under names. -/
def remove (fs : FileSystem) (names : List Text) : FileSystem :=
  { fs with nodes := fs.nodes.filter (·.1 != names) }

/-- Puts the file under one list of names in the place of what stands at a path. -/
def rename (fs : FileSystem) (old : List Text) (p : Path) : Except FileFault FileSystem := do
  let new ← fs.locate p
  match fs.node? new, fs.node? old with
  | some .directory, _ => .error .isDirectory
  | _, some node => return (remove fs old).put new node
  | _, none => .error .notFound

/-- Saves a catalog at a path: the tree afterwards, and why the catalog was not saved. The file that
is written first does not outlive a save, whether it succeeds or not. -/
def save (fs : FileSystem) (time : Binary64) (trouble : Trouble) (p : Path) (c : Catalog) :
    FileSystem × Except SaveFault Unit :=
  match fs.makeDirectory p.parent with
  | .error fault => (fs, .error (.file fault))
  | .ok fs =>
    if trouble = .creating then (fs, .error .disk) else
    match fs.locate p.parent with
    | .error fault => (fs, .error (.file fault))
    | .ok directory =>
      let unfinished := directory ++ [freshName (namesIn fs directory) p.name]
      match bytes c with
      | .error fault => (remove (fs.put unfinished (.file [] time)) unfinished, .error fault)
      | .ok content =>
        if trouble = .writing then
          (remove (fs.put unfinished (.file [] time)) unfinished, .error .disk)
        else
          let written := fs.put unfinished (.file content time)
          if trouble = .replacing then (remove written unfinished, .error .disk)
          else
            match rename written unfinished p with
            | .error fault => (remove written unfinished, .error (.file fault))
            | .ok saved => (saved, .ok ())

end Snapshot

end StoryCatalog
