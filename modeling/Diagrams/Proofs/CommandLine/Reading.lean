import Diagrams.CommandLine.Command
import Diagrams.Proofs.Outcome
import Diagrams.Proofs.Text.Pieces

/-!
# Reading the commands

What a command line says on which the command stands with a file and at most one option.

* `Grammar.word?_attached` — a long option is known by its name, whatever value is attached to it.
* `Grammar.readAll_file`, `Grammar.readAll_value`, `Grammar.readAll_flag` — a file alone, a file
  with a value, and a file with an option that takes none.
* `Command.read_toDrawio`, `Command.read_convert`, `Command.read_toMarkdown`,
  `Command.read_validate` — the commands.

What is left of a value depends on the manner of reading (`Manner.value?_of_ne`): of two dashes
nothing may be left, and the option is then there without a value.
-/

namespace Diagrams.CommandLine

open Text

/-- Whatever the manner is, a value other than two dashes is left as it is. -/
theorem Manner.value?_of_ne {value : String} (h : value ≠ "--") (m : Manner) :
    m.value? value = some value :=
  if_neg fun hdashes => h hdashes.2

namespace Grammar

variable {g : Grammar} {m : Manner} {o : Opt} {file arg value : String}

/-- The option is found by its long name, and no option has an equality sign in its name. -/
def Knows (g : Grammar) (o : Opt) : Prop :=
  g.fullForm? (longForm o) = some (o, false) ∧ ∀ o' ∈ g.all, '=' ∉ longForm o'

instance (g : Grammar) (o : Opt) : Decidable (g.Knows o) :=
  inferInstanceAs (Decidable (_ ∧ _))

/-- A text is cut at its first equality sign. -/
theorem atEquals_append {name : List Char} (h : '=' ∉ name) (value : List Char) :
    atEquals (name ++ '=' :: value) = (name, some value) := by
  rw [atEquals, dropWhile_bne_append h, takeWhile_bne_append h]

/-- What is found by its long name is an option. -/
theorem mem_all_of_fullForm? {cs : List Char} (h : g.fullForm? cs = some (o, false)) :
    o ∈ g.all := by
  unfold fullForm? at h
  split at h
  · rename_i hfind
    cases h
    exact List.mem_of_find?_eq_some hfind
  · split at h
    · obtain ⟨o', -, ho'⟩ := Option.map_eq_some_iff.mp h
      cases ho'
    · cases h

/-- Nothing with an equality sign is an option in full. -/
theorem fullForm?_attached (hall : ∀ o' ∈ g.all, '=' ∉ longForm o') (o : Opt) (value : List Char) :
    g.fullForm? (longForm o ++ '=' :: value) = none := by
  have hfind : g.all.find? (fun o' => longForm o' == longForm o ++ '=' :: value) = none := by
    rw [List.find?_eq_none]
    intro o' ho' heq
    apply hall o' ho'
    rw [beq_iff_eq.mp heq]
    exact List.mem_append_right _ List.mem_cons_self
  unfold fullForm?
  rw [hfind]
  unfold longForm
  cases o.long.toList with
  | nil => rfl
  | cons c cs => rfl

/-- A long option is known by its name, whatever value is attached to it. -/
theorem word?_attached (h : g.Knows o) (harg : arg.toList = longForm o ++ '=' :: value.toList) :
    g.word? arg = some (.option o false (some ⟨value.toList, true⟩)) := by
  obtain ⟨hname, hall⟩ := h
  have hfull := fullForm?_attached hall o value.toList
  have hcut := atEquals_append (hall o (mem_all_of_fullForm? hname)) value.toList
  rw [← harg] at hfull hcut
  obtain ⟨c, rest, hcs⟩ : ∃ c rest, arg.toList = '-' :: c :: rest := ⟨_, _, harg⟩
  rw [hcs] at hfull hcut
  simp only [word?, hcs, hfull, dashed?, hcut, hname]

/-- A file alone. -/
theorem readAll_file (hoperand : g.takesOperand = true) (hrequired : g.required = [])
    (hfile : g.word? file = some (.operand file)) (hmark : file ≠ "--") :
    g.readAll m [file] = .ok { operand := some file } := by
  simp [readAll, read, words?, hfile, hmark, take, isComplete, hoperand, hrequired]

/-- A file with a value. -/
theorem readAll_value (hoperand : g.takesOperand = true) (hrequired : g.required = [])
    (hfile : g.word? file = some (.operand file)) (hmark : file ≠ "--") (harg : arg ≠ "--")
    (hword : g.word? arg = some (.option o false (some ⟨value.toList, true⟩)))
    (hvalue : o.takesValue = true) :
    g.readAll m [file, arg] =
      .ok { operand := some file, values := [(o.long, m.value? value)] } := by
  have hparts : g.parts? m o false (some ⟨value.toList, true⟩) =
      some { last := some (o, some value.toList) } := by
    cases value.toList <;> simp [parts?, cluster?, hvalue]
  simp [readAll, read, words?, hfile, hmark, harg, hword, take, hoperand, hparts, isComplete,
    hrequired, Arguments.addFlags, Arguments.addValue, Table.insert]

/-- A file with an option that takes no value. -/
theorem readAll_flag (hoperand : g.takesOperand = true) (hrequired : g.required = [])
    (hfile : g.word? file = some (.operand file)) (hmark : file ≠ "--") (harg : arg ≠ "--")
    (hword : g.word? arg = some (.option o false none)) (hvalue : o.takesValue = false)
    (hhelp : o ≠ helpOption) :
    g.readAll m [file, arg] = .ok { operand := some file, flags := [o.long] } := by
  simp [readAll, read, words?, hfile, hmark, harg, hword, take, hoperand, parts?, isComplete,
    hrequired, hvalue, hhelp, Arguments.addFlags]

end Grammar

namespace Command

variable {file : String}

/-- A text that every command takes for a file: it does not look like an option. -/
def TakesFile (file : String) : Prop := ∀ c ∈ table, c.2.1.word? file = some (.operand file)

instance (file : String) : Decidable (TakesFile file) :=
  inferInstanceAs (Decidable (∀ c ∈ table, _))

/-- Two dashes are no file. -/
theorem TakesFile.ne_mark (h : TakesFile file) : file ≠ "--" := by
  rintro rfl
  revert h
  decide

variable {m : Manner} {name : String} {g : Grammar} {meaning : Arguments → Command}

/-- Every command has a name of its own and takes a file, and no option has to be there. -/
theorem table_spec : ∀ c ∈ table, c.1 ≠ "--" ∧ ({} : Grammar).word? c.1 = some (.operand c.1) ∧
    c.2.1.takesOperand = true ∧ c.2.1.required = [] := by
  simp only [table, List.forall_mem_cons]
  decide

/-- A command is read with its own grammar. -/
theorem read_of_get? (hget : table.get? name = some (g, meaning)) {args : List String}
    {a : Arguments} (hargs : g.readAll m args = .ok a) :
    read m (name :: args) = .ok (some (meaning a)) := by
  obtain ⟨hmark, hname, -⟩ := table_spec _ (Table.mem_of_get? hget)
  have hsplit : splitName m false (name :: args) = .ok (false, some (name, args)) := by
    rw [splitName, if_neg hmark]
    simp only [hname]
  simp [read, readCommand, hsplit, hget, hargs]

/-- A command with nothing but its file. -/
theorem read_file (h : TakesFile file) (hget : table.get? name = some (g, meaning)) :
    read m [name, file] = .ok (some (meaning { operand := some file })) := by
  obtain ⟨-, -, hoperand, hrequired⟩ := table_spec _ (Table.mem_of_get? hget)
  have hfile := h _ (Table.mem_of_get? hget)
  exact read_of_get? hget (Grammar.readAll_file hoperand hrequired hfile h.ne_mark)

/-- A command with its file and a title. -/
theorem read_name (h : TakesFile file) (hget : table.get? name = some (g, meaning))
    (hknows : g.Knows nameOption) (title : String) :
    read m [name, file, "--name=" ++ title] =
      .ok (some (meaning { operand := some file,
                           values := [("name", m.value? title)] })) := by
  obtain ⟨-, -, hoperand, hrequired⟩ := table_spec _ (Table.mem_of_get? hget)
  have hfile := h _ (Table.mem_of_get? hget)
  have harg : "--name=" ++ title ≠ "--" := by
    intro h
    have hlength := congrArg (fun s => s.toList.length) h
    simp at hlength
  have hword : g.word? ("--name=" ++ title) =
      some (.option nameOption false (some ⟨title.toList, true⟩)) :=
    Grammar.word?_attached hknows String.toList_append
  exact read_of_get? hget
    (Grammar.readAll_value hoperand hrequired hfile h.ne_mark harg hword rfl)

/-- The line that draws a file under a title. -/
theorem read_toDrawio (h : TakesFile file) (title : String) :
    read m ["to-drawio", file, "--name=" ++ title] =
      .ok (some (.toDrawio file none (m.value? title) false)) := by
  have hget : table.get? "to-drawio" = some _ := rfl
  exact read_name h hget (by decide) title

/-- The line that converts a file under a title, into the working folder. -/
theorem read_convert (h : TakesFile file) (title : String) :
    read m ["convert", file, "--name=" ++ title] =
      .ok (some (.convert file (some ".") (m.value? title) false)) := by
  have hget : table.get? "convert" = some _ := rfl
  exact read_name h hget (by decide) title

/-- The line that documents a file. -/
theorem read_toMarkdown (h : TakesFile file) :
    read m ["to-markdown", file] = .ok (some (.toMarkdown file none false)) := by
  have hget : table.get? "to-markdown" = some _ := rfl
  exact read_file h hget

/-- The line that reviews a file and asks for the record. -/
theorem read_validate (h : TakesFile file) :
    read m ["validate", file, "--json"] = .ok (some (.validate file none true false)) := by
  have hget : table.get? "validate" = some _ := rfl
  obtain ⟨-, -, hoperand, hrequired⟩ := table_spec _ (Table.mem_of_get? hget)
  have hfile := h _ (Table.mem_of_get? hget)
  exact read_of_get? hget (Grammar.readAll_flag (o := jsonOption) hoperand hrequired hfile
    h.ne_mark (by decide) rfl rfl (by decide))

end Command

end Diagrams.CommandLine
