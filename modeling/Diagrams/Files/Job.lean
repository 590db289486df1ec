import Diagrams.Files.Disk

/-!
# Jobs

A job is what a command does with its surroundings, one step after another.

* `Job` — the steps: looking at paths, reading, adding folders, writing, finding out where a path
  leads, and the three streams.
* `Job.makeFolder` — a folder together with all folders above it.
* `Surroundings`, `Job.run` — files and streams, and what a job does to them.
* `Job.run_bind` — a job followed by another does what the first does and then what the second does.

The steps are data, so the same job can be carried out on every disk.
-/

namespace Diagrams.Files

/-- Steps with the surroundings that end in a result. -/
inductive Job (α : Type) where
  /-- Nothing more is done. -/
  | done (result : α)
  /-- Finds out what is at a path. -/
  | look (p : Path) (next : Except FileError (Option Kind) → Job α)
  /-- Reads a file. -/
  | read (p : Path) (next : Except FileError String → Job α)
  /-- Makes a folder in a folder that is there. -/
  | addFolder (p : Path) (next : Except FileError Unit → Job α)
  /-- Writes a file. -/
  | write (p : Path) (text : String) (next : Except FileError Unit → Job α)
  /-- Finds out where a path leads, from the given working folder. -/
  | resolve (home p : Path) (next : Except FileError Path → Job α)
  /-- Reads all input. -/
  | input (next : String → Job α)
  /-- Puts text on the output. -/
  | print (text : String) (next : Job α)
  /-- Puts text on the stream for messages. -/
  | tell (text : String) (next : Job α)

namespace Job

variable {α β : Type}

/-- A job, and then another one that depends on its result. -/
def bind : Job α → (α → Job β) → Job β
  | done a, f => f a
  | look p next, f => look p fun k => bind (next k) f
  | read p next, f => read p fun r => bind (next r) f
  | addFolder p next, f => addFolder p fun r => bind (next r) f
  | write p text next, f => write p text fun r => bind (next r) f
  | resolve home p next, f => resolve home p fun r => bind (next r) f
  | input next, f => input fun s => bind (next s) f
  | print text next, f => print text (bind next f)
  | tell text next, f => tell text (bind next f)

instance : Monad Job where
  pure := done
  bind := bind

end Job

/-- Files and streams. -/
structure Surroundings (σ : Type) where
  /-- The files. -/
  files : σ
  /-- The input. -/
  input : String := ""
  /-- What is on the output. -/
  output : String := ""
  /-- The messages. -/
  messages : String := ""
  deriving DecidableEq, Repr

variable {σ : Type}

namespace Surroundings

/-- The surroundings after a change of the files that may fail, and whether it did. -/
def change (s : Surroundings σ) (r : Except FileError σ) : Except FileError Unit × Surroundings σ :=
  match r with
  | .ok files => (.ok (), { s with files })
  | .error e => (.error e, s)

end Surroundings

namespace Job

variable {α β : Type} [Disk σ]

/-- The result of a job, and the surroundings afterwards. -/
def run : Job α → Surroundings σ → α × Surroundings σ
  | done a, s => (a, s)
  | look p next, s => run (next (Disk.look s.files p)) s
  | read p next, s => run (next (Disk.read s.files p)) s
  | addFolder p next, s =>
    let r := s.change (Disk.addFolder s.files p)
    run (next r.1) r.2
  | write p text next, s =>
    let r := s.change (Disk.write s.files p text)
    run (next r.1) r.2
  | resolve home p next, s => run (next (Disk.resolve home s.files p)) s
  | input next, s => run (next s.input) { s with input := "" }
  | print text next, s => run next { s with output := s.output ++ text }
  | tell text next, s => run next { s with messages := s.messages ++ text }

/-- A job followed by another does what the first does and then what the second does. -/
theorem run_bind (j : Job α) (f : α → Job β) (s : Surroundings σ) :
    (j >>= f).run s = (f (j.run s).1).run (j.run s).2 := by
  show (j.bind f).run s = _
  induction j generalizing s with
  | done a => rfl
  | look p next ih => exact ih _ _
  | read p next ih => exact ih _ _
  | addFolder p next ih => exact ih _ _
  | write p text next ih => exact ih _ _
  | resolve home p next ih => exact ih _ _
  | input next ih => exact ih _ _
  | print text next ih => exact ih _
  | tell text next ih => exact ih _

/-- What comes of making a folder: it is no failure when the folder is there already. -/
def acceptFolder (p : Path) : Except FileError Unit → Job (Except FileError Unit)
  | .ok () => done (.ok ())
  | .error e => look p fun
    | .ok (some .folder) => done (.ok ())
    | .ok _ => done (.error e)
    | .error e => done (.error e)

/-- Makes the folder with the given steps, in reverse, and the folders above it when one is missing.
-/
def makeFolders (start : Start) : List String → Job (Except FileError Unit)
  | [] => addFolder { start } (acceptFolder { start })
  | s :: above =>
    let p : Path := ⟨start, (s :: above).reverse⟩
    addFolder p fun
      | .error ⟨.missing, _⟩ => do
        match ← makeFolders start above with
        | .ok () => addFolder p (acceptFolder p)
        | .error e => done (.error e)
      | r => acceptFolder p r

/-- Makes a folder and all folders above it, unless they are there. -/
def makeFolder (p : Path) : Job (Except FileError Unit) := makeFolders p.start p.steps.reverse

end Job

end Diagrams.Files
