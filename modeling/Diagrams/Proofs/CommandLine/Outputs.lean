import Diagrams.CommandLine.Perform
import Diagrams.Proofs.CommandLine.Stages
import Diagrams.Proofs.Files.Job
import Diagrams.Proofs.Files.Path

/-!
# What the commands leave

Apart from its messages, a command that meets no problem leaves one state, which is given here for
each command and for both sources: a file and the input.

* `Task.Leaves` — a task ends with a result and leaves the surroundings in a state, whatever is told
  meanwhile. Since no task looks at the messages (`Job.run_messages`), tasks can be put together
  (`Task.Leaves.bind`).
* `Gives` — a source gives a text.
* `Delivered` — a text goes to a file of the working folder or to the output.
* `Command.leaves_toDrawio`, `Command.leaves_toMarkdown`, `Command.leaves_convert`,
  `Command.leaves_validate` — the commands.
* `Command.Ends`, `Command.ends_of_leaves` — a command line that is carried out, with the settings
  loaded first.
-/

namespace Diagrams

open Files

namespace CommandLine

namespace Task

variable {σ α β : Type} [Disk σ] {t : Task α} {a : α} {w w' w'' : Surroundings σ}

/-- The task ends with the result and leaves the surroundings as they are given, apart from the
messages. -/
def Leaves (t : Task α) (w : Surroundings σ) (a : α) (w' : Surroundings σ) : Prop :=
  ∃ m, after t w = (.ok a, { w' with messages := m })

/-- What is known to come after a task is what it leaves. -/
theorem leaves_of_after (h : after t w = (.ok a, w')) : Leaves t w a w' := ⟨w'.messages, h⟩

/-- A task that does nothing leaves everything as it is. -/
theorem leaves_pure (a : α) (w : Surroundings σ) : Leaves (pure a) w a w := ⟨w.messages, rfl⟩

/-- A task that only tells something leaves everything as it is. -/
theorem Tells.leaves (h : Tells σ t a) (w : Surroundings σ) : Leaves t w a w := by
  obtain ⟨line, h⟩ := h
  exact ⟨w.messages ++ line, h w⟩

/-- A task goes on where the one before it left the surroundings. -/
theorem Leaves.bind {f : α → Task β} {b : β} (ht : Leaves t w a w') (hf : Leaves (f a) w' b w'') :
    Leaves (t >>= f) w b w'' := by
  obtain ⟨m, ht⟩ := ht
  obtain ⟨m', hf⟩ := hf
  -- the second task starts with the messages of the first one, which makes no difference
  obtain ⟨m'', hrun⟩ := Job.run_messages (f a).run w' m
  rw [after] at hf
  rw [hf] at hrun
  exact ⟨m'', (after_bind_ok ht f).trans hrun⟩

/-- The task meets a problem and leaves the surroundings as they are given, apart from the
messages. -/
def Fails (t : Task α) (w : Surroundings σ) (e : Problem) (w' : Surroundings σ) : Prop :=
  ∃ m, after t w = (.error e, { w' with messages := m })

/-- What is known to come after a task that meets a problem is what it leaves. -/
theorem fails_of_after {e : Problem} (h : after t w = (.error e, w')) : Fails t w e w' :=
  ⟨w'.messages, h⟩

/-- Nothing more is done after a problem. -/
theorem Fails.bind {e : Problem} (h : Fails t w e w') (f : α → Task β) :
    Fails (t >>= f) w e w' := by
  obtain ⟨m, h⟩ := h
  exact ⟨m, after_bind_error h f⟩

/-- A problem may be met where the task before left the surroundings. -/
theorem Leaves.bind_fails {f : α → Task β} {e : Problem} (ht : Leaves t w a w')
    (hf : Fails (f a) w' e w'') : Fails (t >>= f) w e w'' := by
  obtain ⟨m, ht⟩ := ht
  obtain ⟨m', hf⟩ := hf
  obtain ⟨m'', hrun⟩ := Job.run_messages (f a).run w' m
  rw [after] at hf
  rw [hf] at hrun
  exact ⟨m'', (after_bind_ok ht f).trans hrun⟩

end Task

open CommandLine.Task

variable {s : Session} {w w' w'' : Surroundings Tree} {file code : String}

/-! ### Sources -/

/-- The source gives the text, and leaves the surroundings as they are given. -/
def Gives (w : Surroundings Tree) (file code : String) (w' : Surroundings Tree) : Prop :=
  ∀ s : Session, after (readInput s file) w = (.ok code, w')

/-- Without carriage returns a text is received as it is. -/
theorem received_of_notMem (h : '\r' ∉ code.toList) : received code = code := by
  rw [received, Text.readNewlines_of_notMem h, String.ofList_toList]

/-- A file gives its text. -/
theorem gives_file (hfile : file ≠ stream) (hread : w.files.read (Path.ofText file) = .ok code)
    (hcode : '\r' ∉ code.toList) : Gives w file code w := by
  intro s
  have hlook : after (Task.look (Path.ofText file)) w = (.ok (some .file), w) := after_look hread
  have htext := after_readFile hread
  rw [received_of_notMem hcode] at htext
  rw [readInput, if_neg hfile, after_bind_ok hlook]
  exact htext

/-- The input gives its text and is then empty. -/
theorem gives_stream (hinput : w.input = code) (hcode : '\r' ∉ code.toList) :
    Gives w stream code { w with input := "" } := by
  intro s
  have htext : after Task.readStream w = (.ok (received w.input), { w with input := "" }) := rfl
  rw [hinput, received_of_notMem hcode] at htext
  rw [readInput, if_pos rfl]
  exact htext

/-! ### Outputs -/

/-- What the outputs for a source are named after. -/
def baseOf (file : String) : String :=
  if file = stream then "diagram" else (Path.ofText file).stem

/-- The path of the drawing that belongs to a source. -/
def drawingOf (file : String) : Path := ⟨.here, [baseOf file ++ ".drawio"]⟩

/-- The path of the page that belongs to a source. -/
def pageOf (file : String) : Path := ⟨.here, [baseOf file ++ "-docs.md"]⟩

/-- The name after which outputs are named is a single step of a path. -/
theorem slash_notMem_baseOf (file : String) : '/' ∉ (baseOf file).toList := by
  unfold baseOf
  split
  · decide
  · exact Path.notMem_stem file

/-- The name of an output is a path of one step. -/
theorem ofText_output (file : String) {ending : String} (hslash : '/' ∉ ending.toList)
    (hlength : 3 ≤ ending.toList.length) :
    Path.ofText (baseOf file ++ ending) = ⟨.here, [baseOf file ++ ending]⟩ ∧
      3 ≤ (baseOf file ++ ending).toList.length := by
  have hsum : 3 ≤ (baseOf file ++ ending).toList.length := by
    rw [String.toList_append, List.length_append]
    exact Nat.le_add_left_of_le hlength
  refine ⟨Path.ofText_of_notMem ?_ (Path.stays_and_up hsum).1, hsum⟩
  rw [String.toList_append, List.mem_append, not_or]
  exact ⟨slash_notMem_baseOf file, hslash⟩

/-- What is left when a text is delivered: to the output when no file is named, and otherwise to the
file of that name in the working folder. -/
def Delivered (w : Surroundings Tree) (text : String) : Option String → Surroundings Tree → Prop
  | none, w' => w' = { w with output := w.output ++ closed text }
  | some name, w' =>
    ∃ files, w.files.write ⟨.here, [name]⟩ text = .ok files ∧ w' = { w with files }

/-- A file of the working folder is written; its folder is there. -/
theorem after_saveFile_name {name text : String} {files : Tree}
    (h : w.files.write ⟨.here, [name]⟩ text = .ok files) :
    after (Task.saveFile ⟨.here, [name]⟩ text) w = (.ok (), { w with files }) :=
  after_saveFile rfl h

/-- Delivering a text leaves nothing else. -/
theorem leaves_deliver {text : String} {output : Option String}
    (houtput : ∀ name ∈ output, Path.ofText name = ⟨.here, [name]⟩ ∧ 3 ≤ name.toList.length)
    (h : Delivered w text output w') (quiet : Bool) :
    Leaves (deliver s quiet text none output) w () w' := by
  cases output with
  | none =>
    obtain rfl := h
    have hwrite : after (writeOutput text none) w =
        (.ok none, { w with output := w.output ++ closed text }) := rfl
    exact (leaves_of_after hwrite).bind (leaves_pure () _)
  | some name =>
    obtain ⟨files, hwrite, rfl⟩ := h
    obtain ⟨hpath, hlength⟩ := houtput name rfl
    have hfile : name ≠ "" ∧ name ≠ stream := by
      constructor
      · rintro rfl
        exact absurd hlength (by decide)
      · rintro rfl
        exact absurd hlength (by decide)
    have hsave := after_saveFile_name hwrite
    have hnull := (read_of_saveFile hsave).2
    have hwritten : Leaves (writeOutput text (some name)) w (some ⟨.here, [name]⟩)
        { w with files } := by
      rw [writeOutput_file hfile, hpath]
      exact (leaves_of_after hsave).bind (leaves_pure (some _) _)
    exact hwritten.bind (((tells_resolve hnull).bind (tells_inform quiet _)).leaves _)

/-- The default output is named after the source. -/
theorem defaultOutput_eq (file suffix ending : String) :
    defaultOutput file suffix ending =
      if file = stream then none else some (baseOf file ++ (suffix ++ "." ++ ending)) := by
  unfold defaultOutput baseOf
  split
  · rfl
  · rw [String.append_assoc, String.append_assoc, String.append_assoc]

/-- What is made of the input goes to the output. -/
theorem delivered_stream (w : Surroundings Tree) (text suffix ending : String) :
    Delivered w text (defaultOutput stream suffix ending)
      { w with output := w.output ++ closed text } := by
  rw [defaultOutput_eq, if_pos rfl]
  rfl

/-- What is made of a file and written under the name that belongs to it is delivered. -/
theorem delivered_file {text suffix ending : String} {files : Tree} (hfile : file ≠ stream)
    (h : w.files.write ⟨.here, [baseOf file ++ (suffix ++ "." ++ ending)]⟩ text = .ok files) :
    Delivered w text (defaultOutput file suffix ending) { w with files } := by
  rw [defaultOutput_eq, if_neg hfile]
  exact ⟨files, h, rfl⟩

/-- The default output is a file of the working folder, if it is a file. -/
theorem ofText_of_mem_defaultOutput (file : String) {suffix ending : String}
    (hslash : '/' ∉ (suffix ++ "." ++ ending).toList)
    (hlength : 3 ≤ (suffix ++ "." ++ ending).toList.length) :
    ∀ name ∈ defaultOutput file suffix ending,
      Path.ofText name = ⟨.here, [name]⟩ ∧ 3 ≤ name.toList.length := by
  intro name hname
  rw [defaultOutput_eq] at hname
  split at hname
  · cases hname
  · cases hname
    exact ofText_output file hslash hlength

/-! ### Commands -/

variable {d : Diagram} {name : Option String} {title xml md : String}

/-- A source that gives a text is read as its diagram. -/
theorem leaves_readDiagram (hgives : Gives w file code w') (hparse : Diagram.parse code = .ok d)
    (quiet : Bool) : Leaves (readDiagram s file quiet) w (code, d) w' := by
  obtain ⟨line, h⟩ := after_readDiagram (hgives s) hparse quiet
  exact ⟨_, h⟩

/-- Telling of progress leaves everything as it is. -/
theorem leaves_inform (quiet : Bool) (line : String) (w : Surroundings Tree) :
    Leaves (inform quiet line) w () w :=
  (tells_inform quiet line).leaves w

/-- A file that can be written is written. -/
theorem leaves_writeFile {p : Path} {text : String} {files : Tree}
    (h : w.files.write p text = .ok files) :
    Leaves (Task.writeFile p text) w () { w with files } := by
  refine leaves_of_after ?_
  show ((w.change (w.files.write p text)).1.mapError Problem.file,
    (w.change (w.files.write p text)).2) = _
  rw [h]
  rfl

/-- The drawing is delivered. -/
theorem Command.leaves_toDrawio (hgives : Gives w file code w')
    (hparse : Diagram.parse code = .ok d) (htitle : titleFor s.env name = .ok title)
    (hxml : d.drawing (some title) s.stamp = .ok xml)
    (h : Delivered w' xml (defaultOutput file "" "drawio") w'') (quiet : Bool) :
    Leaves ((toDrawio file none name quiet).perform s) w 0 w'' := by
  have houtput : ∀ name ∈ defaultOutput file "" "drawio", _ :=
    ofText_of_mem_defaultOutput file (by decide) (by decide)
  refine (leaves_readDiagram hgives hparse quiet).bind ?_
  refine (leaves_inform quiet _ w').bind ?_
  refine (leaves_of_after (after_draw_of_title htitle hxml w')).bind ?_
  exact (leaves_deliver houtput h quiet).bind (leaves_pure 0 w'')

/-- The page is delivered. -/
theorem Command.leaves_toMarkdown (hgives : Gives w file code w')
    (hparse : Diagram.parse code = .ok d) (hmd : d.documentation code = .ok md)
    (h : Delivered w' md (defaultOutput file "-docs" "md") w'') (quiet : Bool) :
    Leaves ((toMarkdown file none quiet).perform s) w 0 w'' := by
  have houtput : ∀ name ∈ defaultOutput file "-docs" "md", _ :=
    ofText_of_mem_defaultOutput file (by decide) (by decide)
  refine (leaves_readDiagram hgives hparse quiet).bind ?_
  refine (leaves_inform quiet _ w').bind ?_
  refine (leaves_of_after (after_ofExcept hmd w')).bind ?_
  exact (leaves_deliver houtput h quiet).bind (leaves_pure 0 w'')

/-- The drawing is written, and then the page. -/
theorem Command.leaves_convert (hgives : Gives w file code w')
    (hparse : Diagram.parse code = .ok d) (htitle : titleFor s.env name = .ok title)
    (hxml : d.drawing (some title) s.stamp = .ok xml) (hmd : d.documentation code = .ok md)
    {drawn both : Tree} (hdrawing : w'.files.write (drawingOf file) xml = .ok drawn)
    (hpage : drawn.write (pageOf file) md = .ok both) (quiet : Bool) :
    Leaves ((convert file (some ".") name quiet).perform s) w 0
      { w' with files := both } := by
  have hfolder : after (Task.makeFolder (Path.ofText ".")) w' = (.ok (), w') := rfl
  refine (leaves_readDiagram hgives hparse quiet).bind ?_
  refine (leaves_of_after (after_named "." w')).bind ?_
  refine (leaves_of_after hfolder).bind ?_
  refine (leaves_inform quiet _ w').bind ?_
  refine (leaves_of_after (after_draw_of_title htitle hxml w')).bind ?_
  refine (leaves_writeFile hdrawing).bind ?_
  refine (leaves_inform quiet _ _).bind ?_
  refine (leaves_inform quiet _ _).bind ?_
  refine (leaves_of_after (after_ofExcept hmd _)).bind ?_
  refine (leaves_writeFile hpage).bind ?_
  exact (leaves_inform quiet _ _).bind (leaves_pure 0 _)

/-! ### Commands that draw nothing -/

/-- A drawing that cannot be made stops its command, and nothing is delivered. -/
theorem Command.fails_toDrawio (hgives : Gives w file code w') (hparse : Diagram.parse code = .ok d)
    {e : Problem} (hdraw : after (draw s d name) w' = (.error e, w')) (output : Option String)
    (quiet : Bool) : Fails ((toDrawio file output name quiet).perform s) w e w' := by
  refine (leaves_readDiagram hgives hparse quiet).bind_fails ?_
  refine (leaves_inform quiet _ w').bind_fails ?_
  exact (fails_of_after hdraw).bind _

/-- A drawing that cannot be made stops the conversion, and no page is written either. -/
theorem Command.fails_convert (hgives : Gives w file code w') (hparse : Diagram.parse code = .ok d)
    {e : Problem} (hdraw : after (draw s d name) w' = (.error e, w')) (quiet : Bool) :
    Fails ((convert file (some ".") name quiet).perform s) w e w' := by
  have hfolder : after (Task.makeFolder (Path.ofText ".")) w' = (.ok (), w') := rfl
  refine (leaves_readDiagram hgives hparse quiet).bind_fails ?_
  refine (leaves_of_after (after_named "." w')).bind_fails ?_
  refine (leaves_of_after hfolder).bind_fails ?_
  refine (leaves_inform quiet _ w').bind_fails ?_
  exact (fails_of_after hdraw).bind _

/-- The review is printed, and its outcome is the exit code. -/
theorem Command.leaves_validate (hgives : Gives w file code w') (quiet : Bool) :
    Leaves ((validate file none true quiet).perform s) w (reviewCode (Check.review (.str code)))
      { w' with output := w'.output ++ ((Check.review (.str code)).toJson.indented ++ "\n") } := by
  refine (leaves_of_after (hgives s)).bind ?_
  have hprint : after (Task.printLine (Check.review (.str code)).toJson.indented) w' =
    (.ok (), { w' with output :=
      w'.output ++ ((Check.review (.str code)).toJson.indented ++ "\n") }) := rfl
  exact (leaves_of_after hprint).bind (leaves_pure _ _)

/-! ### Command lines -/

section

variable {σ : Type} [Disk σ] {w w' : Surroundings σ}

/-- The settings file, if there is one, can be used. -/
def Session.HasSettings (s : Session) (w : Surroundings σ) : Prop :=
  ∃ r, ((loadEnvironment s.reader s.home {} s.env).run w).1 = .ok r

/-- Apart from the messages, the command line ends with the exit code and leaves the surroundings as
they are given. -/
def Command.Ends (s : Session) (args : List String) (w : Surroundings σ) (exit : Nat)
    (w' : Surroundings σ) : Prop :=
  ∃ m, (Command.run s args).run w = (.exit exit, { w' with messages := m })

/-- Apart from the messages, the command line is stopped by a problem and leaves the surroundings as
they are given. -/
def Command.Stops (s : Session) (args : List String) (w : Surroundings σ) (e : Problem)
    (w' : Surroundings σ) : Prop :=
  ∃ m, (Command.run s args).run w = (.stopped e, { w' with messages := m })

/-- Looking for the first file that is there only tells. -/
theorem onlyTells_firstPresent (ps : List Path) : (firstPresent ps).OnlyTells σ := by
  induction ps with
  | nil => exact Job.onlyTells_done _
  | cons p ps ih =>
    apply Job.onlyTells_look
    intro k
    split
    · exact Job.onlyTells_done _
    · exact ih
    · exact Job.onlyTells_done _

/-- Loading the settings changes no file. -/
theorem onlyTells_loadEnvironment (reader : SettingsReader) (home folder : Path)
    (env : Environment) : (loadEnvironment reader home folder env).OnlyTells σ := by
  apply (onlyTells_firstPresent _).bind
  intro found
  split
  · exact Job.onlyTells_done _
  · exact Job.onlyTells_done _
  · apply Job.onlyTells_read
    intro file
    exact Job.onlyTells_tell _ (Job.onlyTells_done _)

/-- Whichever file is loaded, by whatever reader, a variable that is set keeps its value. -/
theorem get?_of_loadEnvironment {reader : SettingsReader} {home folder : Path}
    {env loaded : Environment} {p : Option Path}
    (h : ((loadEnvironment reader home folder env).run w).1 = .ok (p, loaded))
    {name value : String} (hvalue : env.get? name = some value) :
    loaded.get? name = some value := by
  rw [loadEnvironment, Job.run_bind] at h
  cases hfound : ((nearestSettings home folder).run w).1 with
  | error e =>
    rw [hfound] at h
    cases h
  | ok found =>
    rw [hfound] at h
    cases found with
    | none =>
      cases h
      exact hvalue
    | some file =>
      obtain ⟨messages, r, hread⟩ : ∃ messages r, reader.load
          (Disk.read ((nearestSettings home folder).run w).2.files file) env = (messages, r) :=
        ⟨_, _, rfl⟩
      have hloaded : (r.mapError LoadError.unread).map (fun env => (some file, env)) =
          .ok (p, loaded) := by
        rw [← h]
        simp only [Job.run, addSettings, hread]
      cases r with
      | error reason => cases hloaded
      | ok extended =>
        cases hloaded
        exact reader.keeps hread hvalue

/-- Settings that can be used are loaded with whatever else is around the files. -/
theorem Session.HasSettings.run (h : s.HasSettings w) (hfiles : w'.files = w.files) :
    ∃ p env m, (loadEnvironment s.reader s.home {} s.env).run w' = (.ok (p, env), told w' m) := by
  obtain ⟨⟨p, env⟩, hload⟩ := h
  obtain ⟨r, m, hr⟩ := onlyTells_loadEnvironment s.reader s.home {} s.env w.files
  rw [hr w rfl] at hload
  obtain rfl : r = .ok (p, env) := hload
  exact ⟨p, env, m, hr w' hfiles⟩

/-- What can be used among the same files can be used. -/
theorem Session.HasSettings.congr (h : s.HasSettings w) (hfiles : w'.files = w.files) :
    s.HasSettings w' := by
  obtain ⟨p, env, m, hload⟩ := h.run hfiles
  exact ⟨(p, env), congrArg Prod.fst hload⟩

/-- What a command line does once it is known what comes of loading the settings. -/
theorem Command.run_eq (s : Session) (args : List String) (w : Surroundings σ) :
    ∃ m, (Command.run s args).run w =
      match ((loadEnvironment s.reader s.home {} s.env).run w).1 with
      | .error e => (.stopped (.settings e), told w m)
      | .ok (_, env) =>
        match Command.read s.manner args with
        | .error stop => (stop.ending, told w m)
        | .ok none => (.usage 0, told w m)
        | .ok (some c) =>
          (finish (after (c.perform { s with env }) (told w m)).1).run
            (after (c.perform { s with env }) (told w m)).2 := by
  obtain ⟨r, m, hr⟩ := onlyTells_loadEnvironment s.reader s.home {} s.env w.files
  refine ⟨m, ?_⟩
  rw [Command.run, Job.run_bind, hr w rfl]
  rcases r with e | ⟨found, env⟩
  · rfl
  · dsimp only
    rcases Command.read s.manner args with stop | _ | c
    · rfl
    · rfl
    · rw [Job.run_bind]
      rfl

/-- A command line comes to the end of its command in the environment that is loaded. -/
theorem Command.run_of_load {args : List String} {c : Command} {p : Option Path} {env : Environment}
    {r : Except Problem Nat} {m : String}
    (hload : ((loadEnvironment s.reader s.home {} s.env).run w).1 = .ok (p, env))
    (hargs : Command.read s.manner args = .ok (some c))
    (h : after (c.perform { s with env }) w = (r, { w' with messages := m })) :
    ∃ m', (Command.run s args).run w = (finish r).run { w' with messages := m' } := by
  obtain ⟨m', hrun⟩ := Command.run_eq s args w
  rw [hload, hargs] at hrun
  obtain ⟨m'', htold⟩ := Job.run_messages (c.perform { s with env }).run w (w.messages ++ m')
  rw [after] at h
  rw [h] at htold
  have hafter : after (c.perform { s with env }) (told w m') =
      (r, { w' with messages := m'' }) := htold
  refine ⟨m'', ?_⟩
  rw [hrun]
  dsimp only
  rw [hafter]

/-- A command line ends as its command does in the environment that is loaded. -/
theorem Command.ends_of_load {args : List String} {c : Command} {exit : Nat} {p : Option Path}
    {env : Environment}
    (hload : ((loadEnvironment s.reader s.home {} s.env).run w).1 = .ok (p, env))
    (hargs : Command.read s.manner args = .ok (some c))
    (h : Leaves (c.perform { s with env }) w exit w') : Command.Ends s args w exit w' := by
  obtain ⟨m, hperform⟩ := h
  exact run_of_load hload hargs hperform

/-- A command line ends as its command does, if this is so in every environment. -/
theorem Command.ends_of_leaves {args : List String} {c : Command} {exit : Nat}
    (hsettings : s.HasSettings w) (hargs : Command.read s.manner args = .ok (some c))
    (h : ∀ env, Leaves (c.perform { s with env }) w exit w') : Command.Ends s args w exit w' := by
  obtain ⟨⟨p, env⟩, hload⟩ := hsettings
  exact ends_of_load hload hargs (h env)

/-- A command line is stopped by a problem of its command that is not told. -/
theorem Command.stops_of_fails {args : List String} {c : Command} {e : Problem}
    (hsettings : s.HasSettings w) (hargs : Command.read s.manner args = .ok (some c))
    (he : e.told? = none) (h : ∀ env, Fails (c.perform { s with env }) w e w') :
    Command.Stops s args w e w' := by
  obtain ⟨⟨p, env⟩, hload⟩ := hsettings
  obtain ⟨m, hperform⟩ := h env
  obtain ⟨m', hrun⟩ := run_of_load hload hargs hperform
  refine ⟨m', hrun.trans ?_⟩
  simp only [finish, he]
  rfl

end

end CommandLine

end Diagrams
