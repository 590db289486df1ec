import Diagrams.Proofs.CommandLine.Endings
import Diagrams.Proofs.Reading.Header
import Diagrams.Proofs.Text.Pieces

/-!
# Inputs that cannot be converted

**Main statement** (`Command.run_unusable`): a command that converts an input which cannot be read,
or in which no line counts, changes no file and puts nothing on the output. When the settings are
loaded and the place of a missing input is known, it ends with exit code one, and what it tells last
is one line that starts with `Error:`. Only a missing input whose path has a newline in it takes
more lines to tell (`Command.unusable_not_on_one_line`).

* `Unusable` — the inputs, `InputProblem` — what comes of them.
* `after_readDiagram_unusable` — such a problem is met before anything is done but to tell that the
  input is read. All three commands that convert start with this step
  (`Command.perform_eq_of_source?`).
-/

namespace Diagrams

open Files

/-! ### Texts of one line -/

namespace Text

/-- Digits stand on one line. -/
theorem newline_notMem_hexDigits (width n : Nat) : '\n' ∉ hexDigits width n := by
  have hdigit : ∀ k < 16, Nat.digitChar k ≠ '\n' := by decide
  induction width generalizing n with
  | zero => simp [hexDigits]
  | succ width ih =>
    simp only [hexDigits, List.mem_append, List.mem_singleton, not_or]
    exact ⟨ih (n / 16), (hdigit (n % 16) (Nat.mod_lt n (by decide))).symm⟩

/-- A quoted character stands on one line, whatever it is. -/
theorem newline_notMem_quotedChar {quote : Char} (hquote : quote ≠ '\n') (c : Char) :
    '\n' ∉ quotedChar quote c := by
  unfold quotedChar
  split
  · rename_i h
    rcases h with rfl | rfl
    · simp [hquote.symm]
    · decide
  split
  · decide
  rename_i hc
  split
  · decide
  split
  · decide
  split
  · simpa using Ne.symm hc
  split
  · simp [newline_notMem_hexDigits]
  split <;> simp [newline_notMem_hexDigits]

/-- A text in quotes is on one line. -/
theorem newline_notMem_quoted (s : String) : '\n' ∉ (quoted s).toList := by
  unfold quoted quoteFor
  dsimp only
  split <;> simp [newline_notMem_quotedChar]

end Text

/-- The digits of a number are on one line. -/
theorem Text.newline_notMem_digits (n : Nat) : '\n' ∉ Nat.toDigits 10 n := fun h =>
  absurd (Nat.isDigit_of_mem_toDigits (by decide) (by decide) h) (by decide)

/-- The words of an obstacle are on one line. -/
theorem Files.Obstacle.newline_notMem_title {o : Obstacle} {title : Nat × String}
    (h : o.title? = some title) : '\n' ∉ title.2.toList := by
  cases o with
  | other number words hwords =>
    cases h
    exact hwords
  | nullName | loop => cases h
  | _ =>
    cases h
    decide

/-- What is told about a file is on one line. -/
theorem Files.FileError.exists_message {e : FileError} (h : e.obstacle.isTold = true) :
    ∃ message, e.message? = some message ∧ '\n' ∉ message.toList := by
  obtain ⟨title, htitle⟩ := Option.isSome_iff_exists.mp h
  refine ⟨_, congrArg (Option.map _) htitle, ?_⟩
  simp [Obstacle.newline_notMem_title htitle, Text.newline_notMem_quoted,
    Text.newline_notMem_digits]

namespace CommandLine

open CommandLine.Task

variable {σ : Type} [Disk σ] {s : Session} {w : Surroundings σ} {home : Path} {file : String}
  {e : Problem} {quiet : Bool}

/-! ### Inputs -/

/-- The input gives no text in which a line counts: it is a file that cannot be read, or nothing is
in it but empty lines and comments. -/
def Unusable (w : Surroundings σ) (file : String) : Prop :=
  if file = stream then ¬Source.HasContent (received w.input)
  else ∀ text, Disk.read w.files (Path.ofText file) = .ok text →
    ¬Source.HasContent (received text)

/-- A file that cannot be read is of no use. -/
theorem unusable_of_error {found : FileError} (hfile : file ≠ stream)
    (hread : Disk.read w.files (Path.ofText file) = .error found) : Unusable w file := by
  rw [Unusable, if_neg hfile, hread]
  simp

/-- If nothing is at the path of the input, the place of the path is known nevertheless. -/
def IsPlaced (home : Path) (w : Surroundings σ) (file : String) : Prop :=
  Disk.look w.files (Path.ofText file) = .ok none →
    ∃ place, Disk.resolve home w.files (Path.ofText file) = .ok place

/-- What stands in the way of converting an input. -/
inductive InputProblem (home : Path) (w : Surroundings σ) (file : String) : Problem → Prop where
  /-- Nothing is there, and nobody knows where the path leads. -/
  | lost {e : FileError} (hlook : Disk.look w.files (Path.ofText file) = .ok none)
    (he : Disk.resolve home w.files (Path.ofText file) = .error e) :
    InputProblem home w file (.file e)
  /-- Nothing is there. -/
  | missing {place : Path} (h : Disk.resolve home w.files (Path.ofText file) = .ok place) :
    InputProblem home w file (.noInput place)
  /-- What is there is not read. -/
  | unreadable {e : FileError} (he : e.obstacle.isTold = true) :
    InputProblem home w file (.file e)
  /-- No line counts. -/
  | empty : InputProblem home w file (.source .empty)

/-- When the place of the input is known, the problem is told. That takes one line, unless it is a
path with a newline in it. -/
theorem InputProblem.told (h : InputProblem home w file e) (hplaced : IsPlaced home w file) :
    ∃ message, e.told? = some message ∧ ('\n' ∈ message.toList →
      ∃ place, Disk.resolve home w.files (Path.ofText file) = .ok place ∧
        message = "File not found: " ++ place.text) := by
  cases h with
  | lost hlook he =>
    obtain ⟨place, hplace⟩ := hplaced hlook
    rw [he] at hplace
    cases hplace
  | missing hplace => exact ⟨_, rfl, fun _ => ⟨_, hplace, rfl⟩⟩
  | unreadable he =>
    obtain ⟨message, hmessage, hline⟩ := FileError.exists_message he
    exact ⟨message, hmessage, fun hn => absurd hn hline⟩
  | empty => exact ⟨_, rfl, fun hn => absurd hn (by decide)⟩

/-- An input of which nothing is found is a problem. -/
theorem after_readInput_of_none (hfile : file ≠ stream)
    (hlook : Disk.look w.files (Path.ofText file) = .ok none) :
    ∃ e, after (readInput s file) w = (.error e, w) ∧ InputProblem s.home w file e := by
  have hafter : after (look (Path.ofText file)) w =
      ((Disk.look w.files (Path.ofText file)).mapError .file, w) := rfl
  have hplace : after (resolve s (Path.ofText file)) w =
      ((Disk.resolve s.home w.files (Path.ofText file)).mapError .file, w) := rfl
  rw [hlook] at hafter
  rw [readInput, if_neg hfile, after_bind_ok hafter]
  cases hresolve : Disk.resolve s.home w.files (Path.ofText file) with
  | error met =>
    rw [hresolve] at hplace
    exact ⟨_, after_bind_error hplace _, .lost hlook hresolve⟩
  | ok place =>
    rw [hresolve] at hplace
    exact ⟨_, after_bind_ok hplace _, .missing hresolve⟩

/-- An input of which something is found is read, and what is found is not touched. -/
theorem after_readInput_of_some {kind : Kind} (hfile : file ≠ stream)
    (hlook : Disk.look w.files (Path.ofText file) = .ok (some kind)) :
    after (readInput s file) w =
      (((Disk.read w.files (Path.ofText file)).mapError .file).map received, w) := by
  have hafter : after (look (Path.ofText file)) w =
      ((Disk.look w.files (Path.ofText file)).mapError .file, w) := rfl
  rw [hlook] at hafter
  rw [readInput, if_neg hfile, after_bind_ok hafter]
  rfl

/-- An input that cannot be converted is a problem, or a text is read in which no line counts. No
file is touched. -/
theorem after_readInput_unusable (h : Unusable w file) :
    (∃ e, after (readInput s file) w = (.error e, w) ∧ InputProblem s.home w file e) ∨
      ∃ text input, after (readInput s file) w = (.ok text, { w with input }) ∧
        ¬Source.HasContent text := by
  unfold Unusable at h
  split at h
  · rename_i hfile
    subst hfile
    exact .inr ⟨_, _, rfl, h⟩
  · rename_i hfile
    cases hlook : Disk.look w.files (Path.ofText file) with
    | error met =>
      have hafter : after (look (Path.ofText file)) w =
          ((Disk.look w.files (Path.ofText file)).mapError .file, w) := rfl
      rw [hlook] at hafter
      rw [readInput, if_neg hfile]
      exact .inl ⟨_, after_bind_error hafter _, .unreadable (Disk.isTold_of_look hlook)⟩
    | ok kind =>
      cases kind with
      | none => exact .inl (after_readInput_of_none hfile hlook)
      | some kind =>
        have hafter := after_readInput_of_some (s := s) hfile hlook
        cases hread : Disk.read w.files (Path.ofText file) with
        | error found =>
          rw [hread] at hafter
          refine .inl ⟨_, hafter, .unreadable ((Disk.isOf_of_read hread).resolve_right ?_)⟩
          -- something is there, so no null character is in the path
          rintro ⟨-, hnull⟩
          rw [Disk.look_of_hasNull hnull] at hlook
          cases hlook
        | ok text =>
          rw [hread] at hafter
          exact .inr ⟨received text, w.input, hafter, h text hread⟩

/-- What is told while the input is read. -/
def IsProgress (quiet : Bool) (progress : String) : Prop :=
  progress = "" ∨ quiet = false ∧ progress = "Parsing Mermaid diagram...\n"

/-- An input that cannot be converted is a problem before anything else is done. -/
theorem after_readDiagram_unusable (h : Unusable w file) (quiet : Bool) :
    ∃ e progress input, after (readDiagram s file quiet) w =
        (.error e, told { w with input } progress) ∧
      IsProgress quiet progress ∧ InputProblem s.home w file e := by
  rcases after_readInput_unusable (s := s) h with ⟨e, he, hproblem⟩ | ⟨text, input, htext, hempty⟩
  · exact ⟨e, "", w.input, (after_bind_error he _).trans (by rw [told_empty]), .inl rfl, hproblem⟩
  · have hparse : ∀ w' : Surroundings σ, after (ofExcept .source (Diagram.parse text)) w' =
        (.error (.source .empty), w') := by
      intro w'
      rw [Diagram.parse_eq_empty hempty]
      rfl
    obtain ⟨progress, hprogress, hinform⟩ : ∃ progress, IsProgress quiet progress ∧
        after (inform quiet "Parsing Mermaid diagram...") { w with input } =
          (.ok (), told { w with input } progress) := by
      cases quiet with
      | true => exact ⟨"", .inl rfl, by rw [told_empty]; rfl⟩
      | false => exact ⟨_, .inr ⟨rfl, rfl⟩, rfl⟩
    refine ⟨_, progress, input, ?_, hprogress, .empty⟩
    rw [readDiagram, after_bind_ok htext, after_bind_ok hinform]
    exact after_bind_error (hparse _) _

/-! ### Commands -/

/-- The input of a command that converts it, and whether it does so in silence. -/
def Command.source? : Command → Option (String × Bool)
  | toDrawio file _ _ quiet | toMarkdown file _ quiet | convert file _ _ quiet => some (file, quiet)
  | validate .. => none

/-- Such a command reads its input before anything else. -/
theorem Command.perform_eq_of_source? {c : Command} (h : c.source? = some (file, quiet))
    (s : Session) :
    ∃ rest : String × Diagram → Task Nat, c.perform s = readDiagram s file quiet >>= rest := by
  cases c with
  | toDrawio | toMarkdown | convert =>
    cases h
    exact ⟨_, rfl⟩
  | validate => simp [source?] at h

/-- So it does nothing more when its input cannot be converted. -/
theorem Command.after_perform_unusable {c : Command} (hsource : c.source? = some (file, quiet))
    (hinput : Unusable w file) (s : Session) :
    ∃ e progress input, after (c.perform s) w = (.error e, told { w with input } progress) ∧
      IsProgress quiet progress ∧ InputProblem s.home w file e := by
  obtain ⟨rest, hperform⟩ := Command.perform_eq_of_source? hsource s
  obtain ⟨e, progress, input, hafter, htold⟩ := after_readDiagram_unusable (s := s) hinput quiet
  refine ⟨e, progress, input, ?_, htold⟩
  rw [hperform]
  exact after_bind_error hafter rest

/-- How a task with a problem ends changes nothing but the messages. -/
theorem run_finish_error (e : Problem) (w : Surroundings σ) :
    ∃ m, ((finish (.error e)).run w).2 = told w m := by
  rw [finish]
  split
  · exact ⟨_, rfl⟩
  · exact ⟨"", (told_empty w).symm⟩

/-- **Main statement.** A command that converts an input which cannot be read, or in which no line
counts, leaves all files and the output as they are. With settings that are loaded, and if the place
of an input that is not there is known, its exit code is one. What it tells is what there is to tell
about the settings, the progress, and the error, on one line unless that is the path of a missing
input with a newline in it. -/
theorem Command.run_unusable {args : List String} {c : Command} (s : Session)
    (hread : Command.read s.manner args = .ok (some c)) (hsource : c.source? = some (file, quiet))
    (hinput : Unusable w file) :
    let loaded := (loadEnvironment s.reader s.home {} s.env).run w
    let ending := ((Command.run s args).run w).1
    let w' := ((Command.run s args).run w).2
    w'.files = w.files ∧ w'.output = w.output ∧
    (s.HasSettings w → IsPlaced s.home w file →
      ending = .exit 1 ∧ ∃ before progress message, loaded.2 = told w before ∧
        IsProgress quiet progress ∧
        w'.messages = w.messages ++ (before ++ (progress ++ ("Error: " ++ message ++ "\n"))) ∧
        ('\n' ∈ message.toList →
          ∃ place, Disk.resolve s.home w.files (Path.ofText file) = .ok place ∧
            message = "File not found: " ++ place.text)) := by
  intro loaded ending w'
  obtain ⟨r, before, hr⟩ := onlyTells_loadEnvironment s.reader s.home {} s.env w.files
  have hloaded : loaded = (r, told w before) := hr w rfl
  have hrun : (Command.run s args).run w = (ending, w') := rfl
  rw [Command.run, Job.run_bind, hr w rfl] at hrun
  cases r with
  | error e =>
    obtain ⟨hending, hw⟩ := Prod.mk.inj hrun
    have hsettings : ¬s.HasSettings w := by
      rintro ⟨found, hfound⟩
      rw [hr w rfl] at hfound
      cases hfound
    rw [← hw]
    exact ⟨rfl, rfl, fun h => absurd h hsettings⟩
  | ok r =>
    obtain ⟨found, env⟩ := r
    have hunusable : Unusable (told w before) file := hinput
    obtain ⟨e, progress, input, hafter, hprogress, hproblem⟩ :=
      Command.after_perform_unusable hsource hunusable { s with env }
    simp only [hread] at hrun
    rw [Job.run_bind] at hrun
    rw [after] at hafter
    rw [hafter] at hrun
    obtain ⟨m, hm⟩ := run_finish_error e (told { told w before with input } progress)
    have hw : w' = told (told { told w before with input } progress) m :=
      (congrArg Prod.snd hrun).symm.trans hm
    refine ⟨by rw [hw]; rfl, by rw [hw]; rfl, fun _ hplaced => ?_⟩
    obtain ⟨message, htold, hline⟩ := hproblem.told hplaced
    simp only [finish, htold] at hrun
    obtain ⟨hending, hw⟩ := Prod.mk.inj hrun
    refine ⟨hending.symm, before, progress, message, congrArg Prod.snd hloaded, hprogress, ?_, hline⟩
    rw [← hw]
    simp [told, String.append_assoc]

/-- A missing input is told before the folder for what is converted is made. -/
theorem Command.run_unusable_missing :
    let r := (Command.run noon ["convert", "b.mmd", "-d", "out", "-q"]).run sheet
    r.1 = .exit 1 ∧ r.2.files = sheet.files ∧ r.2.output = "" ∧
      ∃ message, r.2.messages = "Error: " ++ message ++ "\n" := by
  have hread : Command.read noon.manner ["convert", "b.mmd", "-d", "out", "-q"] =
      .ok (some (.convert "b.mmd" (some "out") none true)) := by decide +kernel
  have hinput : Unusable sheet "b.mmd" := unusable_of_error (by decide) rfl
  obtain ⟨hfiles, houtput, htold⟩ := Command.run_unusable noon hread rfl hinput
  obtain ⟨hending, before, progress, message, hbefore, hprogress, hmessages, -⟩ :=
    htold ⟨_, rfl⟩ fun _ => ⟨_, rfl⟩
  obtain rfl := hprogress.resolve_right (by simp)
  obtain rfl : "" = before := congrArg Surroundings.messages hbefore
  exact ⟨hending, hfiles, houtput, message, by simpa [sheet] using hmessages⟩

/-- A newline in the name of a missing input starts another line of the message. -/
theorem Command.unusable_not_on_one_line :
    Unusable sheet "b\nError: c" ∧
      (Command.run noon ["to-drawio", "b\nError: c"]).run sheet =
        (.exit 1, told sheet "Error: File not found: /b\nError: c\n") := by
  refine ⟨unusable_of_error (by decide) rfl, ?_⟩
  decide +kernel

end CommandLine

end Diagrams
