import Diagrams.CommandLine.Task
import Diagrams.Proofs.Files.Job
import Diagrams.Proofs.Files.Tree

/-!
# What tasks do

* `Task.after` — the result of a task and the surroundings that it leaves.
* `Task.after_bind_ok` — a task goes on where the one before it ended.
* `Task.Saved` — apart from messages, the outcome of a task is that of saving a text.

**Main statement** (`Task.Saved.read`): after a task that saves a text and has ended well, the file
holds the text.
-/

namespace Diagrams.CommandLine

open Files

namespace Task

section

variable {σ α β : Type} [Disk σ] {w w' : Surroundings σ}

/-- The result of a task, and the surroundings afterwards. -/
def after (t : Task α) (w : Surroundings σ) : Except Problem α × Surroundings σ := t.run.run w

/-- Nothing comes of doing nothing. -/
@[simp] theorem after_pure (a : α) (w : Surroundings σ) : after (pure a) w = (.ok a, w) := rfl

/-- A task goes on where the one before it ended, with its result. -/
theorem after_bind_ok {t : Task α} {a : α} (h : after t w = (.ok a, w')) (f : α → Task β) :
    after (t >>= f) w = after (f a) w' := by
  unfold after at h ⊢
  rw [ExceptT.run_bind, Job.run_bind, h]

/-- Nothing more is done after a problem. -/
theorem after_bind_error {t : Task α} {e : Problem} (h : after t w = (.error e, w'))
    (f : α → Task β) : after (t >>= f) w = (.error e, w') := by
  unfold after at h ⊢
  rw [ExceptT.run_bind, Job.run_bind, h]
  rfl

/-- Tasks can be put together in any order. -/
theorem after_bind_assoc {γ : Type} (t : Task α) (f : α → Task β) (g : β → Task γ)
    (w : Surroundings σ) : after (t >>= f >>= g) w = after (t >>= fun a => f a >>= g) w := by
  rcases ht : after t w with ⟨r, w₁⟩
  cases r with
  | error e => rw [after_bind_error (after_bind_error ht f), after_bind_error ht]
  | ok a =>
    rw [after_bind_ok ht]
    rcases hf : after (f a) w₁ with ⟨r, w₂⟩
    have hboth : after (t >>= f) w = (r, w₂) := (after_bind_ok ht f).trans hf
    cases r with
    | error e => rw [after_bind_error hboth, after_bind_error hf]
    | ok b => rw [after_bind_ok hboth, after_bind_ok hf]

/-- A result that is no error is the result of the task. -/
theorem after_ofExcept {ε : Type} {problem : ε → Problem} {r : Except ε α} {a : α} (h : r = .ok a)
    (w : Surroundings σ) : after (ofExcept problem r) w = (.ok a, w) := by
  rw [h]
  rfl

/-- A name that is given is taken. -/
theorem after_named (file : String) (w : Surroundings σ) :
    after (named (some file)) w = (.ok file, w) := rfl

end

/-- A text as it is received from a file: its line ends are newlines. -/
def received (text : String) : String := String.ofList (Text.readNewlines text.toList)

/-! ### Files -/

section

variable {α : Type} {w w' : Surroundings Tree} {p : Path} {text : String}

/-- A file that can be read is there. -/
theorem after_look (h : w.files.read p = .ok text) : after (look p) w = (.ok (some .file), w) := by
  show ((w.files.kind? p).mapError Problem.file, w) = _
  rw [Tree.kind?_of_read h]
  rfl

/-- A file that can be read gives its text, with newlines at the ends of its lines. -/
theorem after_readFile (h : w.files.read p = .ok text) :
    after (readFile p) w = (.ok (received text), w) := by
  show (((w.files.read p).mapError Problem.file).map _, w) = _
  rw [h]
  rfl

/-- A text that was saved is in the file, and the path has a name that a file can have. -/
theorem read_of_saveFile (h : after (saveFile p text) w = (.ok (), w')) :
    w'.files.read p = .ok text ∧ p.hasNull = false := by
  rcases hfolder : after (makeFolder p.parent) w with ⟨r, w₁⟩
  cases r with
  | error e =>
    have herror := after_bind_error hfolder fun _ => writeFile p text
    rw [saveFile, herror] at h
    cases h
  | ok _ =>
    have hwrite := after_bind_ok hfolder fun _ => writeFile p text
    rw [saveFile, hwrite] at h
    change ((w₁.change (w₁.files.write p text)).1.mapError Problem.file,
      (w₁.change (w₁.files.write p text)).2) = _ at h
    cases hresult : w₁.files.write p text with
    | error e =>
      rw [hresult] at h
      cases h
    | ok files =>
      rw [hresult] at h
      cases h
      exact ⟨Tree.read_of_write hresult, Tree.hasNull_of_write hresult⟩

/-- A file is written in a folder that is there. -/
theorem after_saveFile {files : Tree} (hfolder : after (makeFolder p.parent) w = (.ok (), w))
    (hwrite : w.files.write p text = .ok files) :
    after (saveFile p text) w = (.ok (), { w with files := files }) := by
  rw [saveFile, after_bind_ok hfolder]
  show ((w.change (w.files.write p text)).1.mapError Problem.file,
    (w.change (w.files.write p text)).2) = _
  rw [hwrite]
  rfl

/-- It makes no difference whether a text is found before or after its folder is made. -/
theorem after_makeFolder_writeFile {ε : Type} {problem : ε → Problem} {r : Except ε String}
    (h : r = .ok text) (rest : Task α) :
    after (do
      makeFolder p.parent
      let text ← ofExcept problem r
      writeFile p text
      rest) w = after (saveFile p text >>= fun _ => rest) w := by
  rcases hfolder : after (makeFolder p.parent) w with ⟨result, w₁⟩
  cases result with
  | error e =>
    have hsave : after (saveFile p text) w = (.error e, w₁) :=
      after_bind_error hfolder fun _ => writeFile p text
    rw [after_bind_error hfolder, after_bind_error hsave]
  | ok _ =>
    rw [after_bind_ok hfolder, after_bind_ok (after_ofExcept h w₁)]
    rcases hwrite : after (writeFile p text) w₁ with ⟨written, w₂⟩
    have hsave : after (saveFile p text) w = (written, w₂) :=
      (after_bind_ok hfolder fun _ => writeFile p text).trans hwrite
    cases written with
    | error e => rw [after_bind_error hwrite, after_bind_error hsave]
    | ok _ => rw [after_bind_ok hwrite, after_bind_ok hsave]

end

/-! ### Tasks that only tell something -/

section

variable {σ α β : Type} [Disk σ]

/-- All that the task does is to tell something. -/
def Tells (σ : Type) [Disk σ] (t : Task α) (a : α) : Prop :=
  ∃ line, ∀ w : Surroundings σ, after t w = (.ok a, told w line)

/-- Doing nothing only tells. -/
theorem tells_pure (a : α) : Tells σ (pure a) a :=
  ⟨"", fun w => by rw [told_empty, after_pure]⟩

/-- Telling a line only tells. -/
theorem tells_tellLine (text : String) : Tells σ (tellLine text) () :=
  ⟨text ++ "\n", fun _ => rfl⟩

/-- Tasks that only tell do so one after the other. -/
theorem Tells.bind {t : Task α} {a : α} {f : α → Task β} {b : β} (ht : Tells σ t a)
    (hf : Tells σ (f a) b) : Tells σ (t >>= f) b := by
  obtain ⟨first, hfirst⟩ := ht
  obtain ⟨second, hsecond⟩ := hf
  refine ⟨first ++ second, fun w => ?_⟩
  rw [after_bind_ok (hfirst w), hsecond, told_told]

end

/-! ### Tasks that save a text -/

section

variable {w w' : Surroundings Tree} {p : Path} {text : String}

/-- Apart from messages, the outcome of a task is that of saving a text: exit code zero when the
text could be saved, and otherwise the problem that stood in the way. -/
def Saved (w : Surroundings Tree) (p : Path) (text : String)
    (r : Except Problem Nat × Surroundings Tree) :
    Prop :=
  ∃ before behind : String,
    r = match after (saveFile p text) (told w before) with
      | (.ok (), w') => (.ok 0, told w' behind)
      | (.error e, w') => (.error e, w')

/-- After a task that saves a text and has ended well, the file holds the text. -/
theorem Saved.read {code : Nat} (h : Saved w p text (.ok code, w')) :
    w'.files.read p = .ok text := by
  obtain ⟨before, behind, h⟩ := h
  split at h
  · rename_i hsave
    cases h
    exact (read_of_saveFile hsave).1
  · cases h

/-- A task that saves a text and then tells something. -/
theorem saved_bind {rest : Task Nat} (hrest : p.hasNull = false → Tells Tree rest 0) :
    Saved w p text (after (saveFile p text >>= fun _ => rest) w) := by
  rcases hsave : after (saveFile p text) w with ⟨r, w'⟩
  cases r with
  | error e =>
    refine ⟨"", "", ?_⟩
    rw [told_empty, after_bind_error hsave, hsave]
  | ok _ =>
    obtain ⟨behind, hbehind⟩ := hrest (read_of_saveFile hsave).2
    refine ⟨"", behind, ?_⟩
    rw [told_empty, after_bind_ok hsave, hsave, hbehind]

/-- Something may be told before. -/
theorem Saved.of_told {line : String} {r : Except Problem Nat × Surroundings Tree}
    (h : Saved (told w line) p text r) : Saved w p text r := by
  obtain ⟨before, behind, h⟩ := h
  refine ⟨line ++ before, behind, ?_⟩
  rw [h, told_told]

end

end Task

end Diagrams.CommandLine
