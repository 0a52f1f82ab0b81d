import Playbook.File.Tree
import Playbook.Step.Services

/-!
# The file service of a tree

Steps read and write the files of a file tree. Writing makes the directories on the way.
-/

namespace Playbook

/-- What has come of a file, as it comes of a step. -/
def FileProblem.lift {α : Type} (path : String) (result : Except FileProblem α) :
    Except StepError α :=
  result.mapError (.file path)

/-- The files of a tree. -/
def FileService.local : FileService FileTree where
  read path := fun tree ↦ (FileProblem.lift path (tree.read path), tree)
  write path text := fun tree ↦
    let (result, tree) := tree.save path text.toUTF8
    (FileProblem.lift path result, tree)
  isFile path := fun tree ↦ (tree.isFile path, tree)

/-- The services of a tree with seeded data and a clock that stands still. -/
def Services.local (now : Moment) : Services FileTree where
  data := .seeded
  now := return now
  files := .local

end Playbook
