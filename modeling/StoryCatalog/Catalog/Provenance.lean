import StoryCatalog.Json.Basic

/-!
# Provenance

Which source a catalog was extracted from.
-/

namespace StoryCatalog

/-- The sources of catalogs. -/
inductive Provenance where
  | sourceFiles
  | builtStorybook
  | runningStorybook
  | storybookIndex
  | unknown
  deriving DecidableEq, Repr, Inhabited

namespace Provenance

/-- The name of a source in documents. -/
def name : Provenance → Text
  | .sourceFiles => "source-files"
  | .builtStorybook => "built-storybook"
  | .runningStorybook => "running-storybook-deep"
  | .storybookIndex => "storybook-index-basic"
  | .unknown => "unknown"

/-- Every source. -/
def all : List Provenance :=
  [.sourceFiles, .builtStorybook, .runningStorybook, .storybookIndex, .unknown]

/-- The source with a name; an unknown one for any other value. -/
def ofJson : Json → Provenance
  | .string t => (all.find? (·.name == t)).getD .unknown
  | _ => .unknown

/-- Whether the records of a source carry arguments and argument types. -/
def isDeep : Provenance → Bool
  | .sourceFiles => true
  | .runningStorybook => true
  | _ => false

/-- A source is found again by its name. -/
@[simp] theorem ofJson_name (p : Provenance) : ofJson (.string p.name) = p := by
  cases p <;> decide

end Provenance

end StoryCatalog
