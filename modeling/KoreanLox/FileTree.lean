/-!
# Files and directories

A path names a file by the directories that lead to it. It is walked name by name, from the
working directory or, if it begins with a slash, from the outermost one. The first name that
cannot be followed decides why the file cannot be read: names lead on from directories only, so a
name after a file is an error of its own, also if it is empty because the path ends in a slash.
-/

namespace KoreanLox

/-- Why a file cannot be read. -/
inductive FileProblem where
  /-- There is no such file. -/
  | missing
  /-- It may not be read. -/
  | denied
  /-- A name on the way is one of a file. -/
  | notADirectory
  /-- It is a directory. -/
  | directory
  /-- A name on the way, or the whole path, is too long. -/
  | nameTooLong
  /-- It is not UTF-8. -/
  | invalidText
  /-- Anything else, in words. -/
  | other (message : String)
  deriving DecidableEq, Repr

/-- The wording of a problem. -/
def FileProblem.message : FileProblem → String
  | .missing => "No such file or directory (os error 2)"
  | .denied => "Permission denied (os error 13)"
  | .notADirectory => "Not a directory (os error 20)"
  | .directory => "Is a directory (os error 21)"
  | .nameTooLong => "File name too long (os error 36)"
  | .invalidText => "stream did not contain valid UTF-8"
  | .other message => message

/-- A file with its bytes, or a directory with what it holds by name. -/
inductive FileTree where
  /-- A file. -/
  | file (bytes : List UInt8)
  /-- A directory. -/
  | directory (entries : List (String × FileTree))

namespace FileTree

/-- The greatest number of bytes of a name. -/
def nameLimit : Nat := 255

/-- The greatest number of bytes of a path. -/
def pathLimit : Nat := 4095

/-- What names lead to from a place, the directories above that place being given, the nearest
first. Two dots lead upward, and from the outermost directory back to itself. -/
def walk (above : List FileTree) : FileTree → List String → Except FileProblem FileTree
  | place, [] => .ok place
  | .file _, _ :: _ => .error .notADirectory
  | .directory entries, name :: rest =>
    let place := .directory entries
    if name = "" ∨ name = "." then walk above place rest
    else if name = ".." then
      match above with
      | [] => walk [] place rest
      | parent :: outer => walk outer parent rest
    else if nameLimit < name.utf8ByteSize then .error .nameTooLong
    else
      match entries.lookup name with
      | none => .error .missing
      | some next => walk (place :: above) next rest

/-- The names that lead to a path from the outermost directory, given those of the working
directory. -/
def names (working : List String) (path : String) : List String :=
  if path.startsWith "/" then path.splitOn "/" else working ++ path.splitOn "/"

/-- The bytes of the file that a path names. -/
def read (root : FileTree) (working : List String) (path : String) :
    Except FileProblem (List UInt8) :=
  if path.isEmpty then .error .missing
  else if pathLimit < path.utf8ByteSize then .error .nameTooLong
  else
    match walk [] root (names working path) with
    | .error problem => .error problem
    | .ok (.directory _) => .error .directory
    | .ok (.file bytes) => .ok bytes

/-- One place lies in another one, or is that place. -/
inductive Holds : FileTree → FileTree → Prop where
  | here (place : FileTree) : Holds place place
  | inside {entries : List (String × FileTree)} {name : String} {next place : FileTree}
    (listed : (name, next) ∈ entries) (deeper : Holds next place) :
    Holds (.directory entries) place

/-- What lies in an entry of a directory that lies in a place lies in this place. -/
theorem Holds.entry {root next : FileTree} {entries : List (String × FileTree)} {name : String}
    (holds : Holds root (.directory entries)) (found : entries.lookup name = some next) :
    Holds root next := by
  generalize same : FileTree.directory entries = place at holds
  induction holds with
  | here place =>
    subst same
    obtain ⟨before, after, rfl, -⟩ := List.lookup_eq_some_iff.mp found
    exact .inside (List.mem_append_right before List.mem_cons_self) (.here next)
  | inside listed deeper ih => exact .inside listed (ih same)

/-- Names lead from a place to places in the tree only, also upward. -/
theorem holds_of_walk {root place found : FileTree} {above : List FileTree} {names : List String}
    (holds : ∀ other ∈ place :: above, Holds root other)
    (walked : walk above place names = .ok found) : Holds root found := by
  induction names generalizing place above with
  | nil =>
    obtain rfl : place = found := by cases place <;> exact Except.ok.inj walked
    exact holds _ List.mem_cons_self
  | cons name rest ih =>
    cases place with
    | file bytes => simp [walk] at walked
    | directory entries =>
      simp only [walk] at walked
      split at walked
      next => exact ih holds walked
      split at walked
      next =>
        cases above with
        | nil => exact ih holds walked
        | cons parent outer =>
          exact ih (fun other listed => holds other (List.mem_cons_of_mem _ listed)) walked
      split at walked
      next => cases walked
      split at walked
      next => cases walked
      next next listed =>
        have inside := (holds _ List.mem_cons_self).entry listed
        exact ih (List.forall_mem_cons.mpr ⟨inside, holds⟩) walked

/-- The bytes that are read are those of a file of the tree, whatever the path. -/
theorem holds_of_read {root : FileTree} {working : List String} {path : String}
    {bytes : List UInt8} (read : root.read working path = .ok bytes) :
    Holds root (.file bytes) := by
  unfold FileTree.read at read
  split at read
  next => cases read
  split at read
  next => cases read
  split at read
  next => cases read
  next => cases read
  next found walked =>
    obtain rfl := Except.ok.inj read
    exact holds_of_walk (by simpa using Holds.here root) walked

end FileTree

end KoreanLox
