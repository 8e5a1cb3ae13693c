import EventHorizon.Library.Table

/-!
# Trees of files

A tree of files is a table of its nodes, the directories and the files, under the names that lead to
them from the root. A path is followed name by name through directories, and `..` leads to the
directory above. There are no links.
-/

namespace EventHorizon

/-- A directory, or a file with its content. -/
inductive FileNode (δ : Type*)
  | dir
  | file (content : δ)

/-- The nodes of a tree. -/
abbrev FileTree (δ : Type*) := Table (List String) (FileNode δ)

/-- The names of a path between its slashes, without the empty ones and `.`. -/
def pathNames (path : List Char) : List String :=
  ((path.splitOn '/').filter fun name ↦ name ≠ [] && name ≠ ['.']).map String.ofList

namespace FileTree

variable {δ : Type*} (t : FileTree δ)

def isDir (path : List String) : Bool :=
  match t.get? path with
  | some .dir => true
  | _ => false

/-- The directory that the names lead to. -/
def walk : List String → List String → Option (List String)
  | dir, [] => if isDir t dir = true then some dir else none
  | dir, name :: names =>
    if isDir t dir = true then walk (if name = ".." then dir.dropLast else dir ++ [name]) names
    else none

/-- The file that the names lead to, or would lead to: its directory is there, and it is not a
directory itself. -/
def fileAt (dir : List String) (names : List String) : Option (List String) :=
  match names.getLast? with
  | none => none
  | some name =>
    if name = ".." then none
    else
      (walk t dir names.dropLast).bind fun parent ↦
        if isDir t (parent ++ [name]) = true then none else some (parent ++ [name])

variable {t} {t' : FileTree δ} {dir names : List String}

/-- Only the directories matter to where a path leads. -/
theorem walk_congr (h : ∀ path, isDir t path = isDir t' path) :
    walk t dir names = walk t' dir names := by
  induction names generalizing dir with
  | nil => rw [walk, walk, h]
  | cons name names ih => rw [walk, walk, h, ih]

theorem fileAt_congr (h : ∀ path, isDir t path = isDir t' path) :
    fileAt t dir names = fileAt t' dir names := by
  simp only [fileAt, walk_congr h, h]

/-- A file in place of a file. -/
theorem isDir_put_file {path path' : List String} {content : δ} (h : isDir t path = false) :
    isDir (t.put path (.file content)) path' = isDir t path' := by
  rw [isDir, Table.get?_put]
  by_cases hpath : path' = path
  · rw [if_pos hpath, hpath, h]
  · rw [if_neg hpath, isDir]

end FileTree

end EventHorizon
