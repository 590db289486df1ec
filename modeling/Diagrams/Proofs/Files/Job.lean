import Diagrams.Files.Job
import Diagrams.Proofs.Files.Path

/-!
# What jobs do not do

* `told` — the surroundings with more messages.
* `Job.run_messages` — no job looks at the messages.
* `Job.OnlyTells` — a job changes nothing but the messages, and its result depends on the files
  alone. Jobs that look and read are such jobs, and so is one after the other
  (`Job.OnlyTells.bind`).
* `Job.isOf_of_makeFolder` — whatever keeps a folder from being made is told, except for a null
  character in its path.
-/

namespace Diagrams.Files

variable {σ : Type}

/-- The surroundings with more messages. -/
def told (w : Surroundings σ) (text : String) : Surroundings σ :=
  { w with messages := w.messages ++ text }

/-- Telling something leaves the files as they are. -/
@[simp] theorem files_told (w : Surroundings σ) (text : String) : (told w text).files = w.files :=
  rfl

/-- Telling nothing changes nothing. -/
@[simp] theorem told_empty (w : Surroundings σ) : told w "" = w := by
  rw [told, String.append_empty]

/-- What is told in two parts could be told at once. -/
@[simp] theorem told_told (w : Surroundings σ) (first second : String) :
    told (told w first) second = told w (first ++ second) := by
  simp only [told, String.append_assoc]

namespace Job

variable {α β : Type} [Disk σ]

/-- No job looks at the messages: with other ones before it, it does the same. -/
theorem run_messages (j : Job α) (w : Surroundings σ) (m : String) :
    ∃ m', j.run { w with messages := m } = ((j.run w).1, { (j.run w).2 with messages := m' }) := by
  induction j generalizing w m with
  | done a => exact ⟨m, rfl⟩
  | look p next ih => exact ih _ w m
  | read p next ih => exact ih _ w m
  | addFolder p next ih =>
    rw [run, run]
    cases Disk.addFolder w.files p with
    | error e => exact ih _ w m
    | ok files => exact ih _ { w with files } m
  | write p text next ih =>
    rw [run, run]
    cases Disk.write w.files p text with
    | error e => exact ih _ w m
    | ok files => exact ih _ { w with files } m
  | resolve home p next ih => exact ih _ w m
  | input next ih => exact ih _ { w with input := "" } m
  | print text next ih => exact ih { w with output := w.output ++ text } m
  | tell text next ih => exact ih { w with messages := w.messages ++ text } (m ++ text)

/-- The job changes nothing but the messages, and what it does depends on the files alone. -/
def OnlyTells (σ : Type) [Disk σ] (j : Job α) : Prop :=
  ∀ files, ∃ r m, ∀ w : Surroundings σ, w.files = files → j.run w = (r, told w m)

/-- Doing nothing only tells. -/
theorem onlyTells_done (a : α) : (done a).OnlyTells σ :=
  fun _ => ⟨a, "", fun w _ => by rw [told_empty, run]⟩

/-- Looking at a path only tells, when this is so of what follows. -/
theorem onlyTells_look {p : Path} {next : Except FileError (Option Kind) → Job α}
    (h : ∀ k, (next k).OnlyTells σ) : (look p next).OnlyTells σ := by
  intro files
  obtain ⟨r, m, hr⟩ := h (Disk.look files p) files
  refine ⟨r, m, ?_⟩
  rintro w rfl
  exact hr w rfl

/-- Reading a file only tells, when this is so of what follows. -/
theorem onlyTells_read {p : Path} {next : Except FileError String → Job α}
    (h : ∀ text, (next text).OnlyTells σ) : (read p next).OnlyTells σ := by
  intro files
  obtain ⟨r, m, hr⟩ := h (Disk.read files p) files
  refine ⟨r, m, ?_⟩
  rintro w rfl
  exact hr w rfl

/-- Telling a text only tells, when this is so of what follows. -/
theorem onlyTells_tell {j : Job α} (text : String) (h : j.OnlyTells σ) :
    (tell text j).OnlyTells σ := by
  intro files
  obtain ⟨r, m, hr⟩ := h files
  refine ⟨r, text ++ m, fun w hw => ?_⟩
  rw [← told_told]
  exact hr (told w text) hw

/-- Jobs that only tell do so one after the other. -/
theorem OnlyTells.bind {j : Job α} {f : α → Job β} (hj : j.OnlyTells σ)
    (hf : ∀ a, (f a).OnlyTells σ) : (j >>= f).OnlyTells σ := by
  intro files
  obtain ⟨a, m, ha⟩ := hj files
  obtain ⟨r, m', hr⟩ := hf a files
  refine ⟨r, m ++ m', fun w hw => ?_⟩
  rw [run_bind, ha w hw, ← told_told]
  exact hr (told w m) hw

/-! ### Folders -/

variable {p : Path} {w : Surroundings σ} {e : FileError}

/-- What stands in the way of a folder that was to be made is accepted, told on, or met with its
path. -/
theorem isOf_of_acceptFolder {r : Except FileError Unit} (hr : ∀ e, r = .error e → e.IsOf p)
    (h : ((acceptFolder p r).run w).1 = .error e) : e.IsOf p := by
  cases r with
  | ok u => cases h
  | error found =>
    rw [acceptFolder, run] at h
    split at h
    · cases h
    · cases h
      exact hr e rfl
    · rename_i hlook
      cases h
      exact .inl (Disk.isTold_of_look hlook)

/-- What keeps the disk from making a folder is told on. -/
theorem isOf_of_change (h : (w.change (Disk.addFolder w.files p)).1 = .error e) : e.IsOf p := by
  cases hadd : Disk.addFolder w.files p with
  | ok files =>
    rw [hadd] at h
    cases h
  | error met =>
    rw [hadd] at h
    cases h
    exact Disk.isOf_of_addFolder hadd

/-- What keeps a folder from being added is reported of its path. -/
theorem isOf_of_addFolder (h : ((addFolder p (acceptFolder p)).run w).1 = .error e) :
    e.IsOf p := by
  rw [run] at h
  exact isOf_of_acceptFolder (fun _ => isOf_of_change) h

end Job

end Diagrams.Files
