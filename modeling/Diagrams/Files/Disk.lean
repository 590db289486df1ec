import Diagrams.Files.Path
import Diagrams.Text.Quoted

/-!
# Disks

* `Kind` — what can be at a path.
* `Obstacle`, `FileError` — why a file or folder cannot be used, with its message.
* `Disk` — whatever keeps files and folders, with what can be done with it.

Of a disk only its answers are known. Links, rights and room are its own matter: it may refuse
whatever it is asked for. All files hold text.
-/

namespace Diagrams.Files

/-- What can be at a path. -/
inductive Kind where
  | file
  | folder
  deriving DecidableEq, Repr

/-- Why a file or folder cannot be used. -/
inductive Obstacle where
  /-- Nothing is there. -/
  | missing
  /-- A folder is where a file is wanted. -/
  | isFolder
  /-- A file is where a folder is wanted. -/
  | notFolder
  /-- Something is there already. -/
  | present
  /-- A name or the whole path is longer than a system takes. -/
  | longName
  /-- A text is larger than a file can be. -/
  | tooLarge
  /-- Whatever else a system reports, by its number and by words on one line. -/
  | other (number : Nat) (words : String) (h : '\n' ∉ words.toList)
  /-- A name holds the null character. No system is asked about such a path. -/
  | nullName
  /-- Links lead round in a circle, so that a path leads to no place. -/
  | loop
  deriving DecidableEq, Repr

namespace Obstacle

/-- The number of an obstacle and its words, by which systems tell it. -/
def title? : Obstacle → Option (Nat × String)
  | missing => some (2, "No such file or directory")
  | isFolder => some (21, "Is a directory")
  | notFolder => some (20, "Not a directory")
  | present => some (17, "File exists")
  | longName => some (36, "File name too long")
  | tooLarge => some (27, "File too large")
  | other number words _ => some (number, words)
  | nullName | loop => none

/-- Whether a system tells the obstacle. -/
def isTold (o : Obstacle) : Bool := o.title?.isSome

end Obstacle

/-- An obstacle met with a path. -/
structure FileError where
  /-- The obstacle. -/
  obstacle : Obstacle
  /-- The path. -/
  path : Path
  deriving DecidableEq, Repr

/-- What is told about the error. -/
def FileError.message? (e : FileError) : Option String :=
  e.obstacle.title?.map fun title =>
    "[Errno " ++ toString title.1 ++ "] " ++ title.2 ++ ": " ++ Text.quoted e.path.text

/-- Whether the error is one that may be met with a path: it is told, or a null character in the
path is to blame. -/
def FileError.IsOf (e : FileError) (p : Path) : Prop :=
  e.obstacle.isTold = true ∨ e.obstacle = .nullName ∧ p.hasNull = true

/-- Whatever keeps files and folders. -/
class Disk (σ : Type) where
  /-- What is at a path. -/
  look : σ → Path → Except FileError (Option Kind)
  /-- The text of a file. -/
  read : σ → Path → Except FileError String
  /-- A new folder in a folder that is there. -/
  addFolder : σ → Path → Except FileError σ
  /-- A text in a file, whether it was there before or not. -/
  write : σ → Path → String → Except FileError σ
  /-- The path from the root to the place of a path, for a path from the given working folder. -/
  resolve : Path → σ → Path → Except FileError Path
  /-- Nothing is at a path with a null character. -/
  look_of_hasNull : ∀ {files p}, p.hasNull = true → look files p = .ok none
  /-- That nobody can tell what is at a path is told. -/
  isTold_of_look : ∀ {files p e}, look files p = .error e → e.obstacle.isTold = true
  /-- Why a file is not read. -/
  isOf_of_read : ∀ {files p e}, read files p = .error e → e.IsOf p
  /-- Why a folder is not made. -/
  isOf_of_addFolder : ∀ {files p e}, addFolder files p = .error e → e.IsOf p
  /-- Why a file is not written. -/
  isOf_of_write : ∀ {files p text e}, write files p text = .error e → e.IsOf p
  /-- Why nobody knows where a path leads. -/
  isOf_of_resolve : ∀ {home files p e}, resolve home files p = .error e →
    e.IsOf p ∨ e.obstacle = .loop

end Diagrams.Files
