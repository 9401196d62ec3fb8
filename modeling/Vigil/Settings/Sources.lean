import Vigil.Settings.Fault
import Vigil.Toml.Document
import Vigil.Value.Merge

/-!
# Where settings come from

Settings stand in two files, one that all projects share and one of the project. The second is laid
over the first, so a project overrides single settings and not whole sections.
-/

namespace Vigil.Settings

/-- What stands at a place. Only a file counts. -/
inductive Source where
  | missing
  | file (content : ByteArray)
  deriving Inhabited

/-- The table of a file; no file counts as an empty one. -/
def Source.read (place : Place) : Source → Except Fault Fields
  | missing => .ok []
  | file content =>
      match Toml.ofBytes content with
      | .ok fields => .ok fields
      | .error .notText => .error (.notText place)
      | .error .malformed => .error (.malformed place)
      | .error (.defect d) => .error (.defect d)

/-- The sections that settings always have. -/
def sections : List String := ["eks", "wait", "log"]

/-- One table over the other, with empty sections for those that are missing. -/
def combine (shared project : Fields) : Fields :=
  sections.foldl (fun fields section_ => Fields.putIfMissing fields section_ (.table []))
    (Fields.merge shared project)

/-- The table of both files. The shared file is read first. -/
def load (shared project : Source) : Except Fault Fields := do
  let sharedFields ← shared.read .shared
  let projectFields ← project.read .project
  return combine sharedFields projectFields

end Vigil.Settings
