import Diagrams.Table
import Diagrams.Text.Digit
import Diagrams.Text.Lines

/-!
# The grammar of command lines

* `Opt`, `Grammar` — options, and what a command line may hold.
* `Manner` — the two manners in which command lines are read.
* `Word`, `Grammar.word?` — the role of one argument: an operand, an option, a mark or a stranger.
* `Arguments`, `Grammar.read` — what a command line says.
* `Stop` — why a command line is not carried out.

A long option may be shortened as long as it is the only one with that start. Short options may
stand together, the last one with its value. After two dashes every argument is an operand.
-/

namespace Diagrams.CommandLine

/-- An option. -/
structure Opt where
  /-- The long name, written after two dashes. -/
  long : String
  /-- The short name, written after one dash. -/
  short : Option Char := none
  /-- Whether a value belongs to it. -/
  takesValue : Bool := false
  deriving DecidableEq, Repr

/-- The option that asks for help; every grammar has it. -/
def helpOption : Opt := { long := "help", short := some 'h' }

/-- What a command line may hold. -/
structure Grammar where
  /-- The options besides the one for help. -/
  options : List Opt := []
  /-- Whether there is one operand, which then must be there. -/
  takesOperand : Bool := false
  /-- The options that must be there. -/
  required : List String := []
  deriving DecidableEq, Repr

/-- A manner of reading command lines. Readers of older and of newer make differ in what they leave
of two dashes, and in what they let stand behind short options. -/
inductive Manner where
  /-- Two dashes that are attached to an option leave it without a value. An equality sign is a
  character like any other among short options, except behind the first one. -/
  | lenient
  /-- Two dashes can be a value. An equality sign behind a short option sets a value, so none may
  stand behind an option that takes none. -/
  | strict
  deriving DecidableEq, Repr

/-- What is left of the value of an option. -/
def Manner.value? (m : Manner) (value : String) : Option String :=
  if m = .lenient ∧ value = "--" then none else some value

/-- Why a command line is not carried out. -/
inductive Stop where
  /-- It asks for help. -/
  | help
  /-- It does not fit the grammar. -/
  | refused
  deriving DecidableEq, Repr

/-- The text attached to an option. -/
structure Attachment where
  /-- The text. -/
  text : List Char
  /-- Whether an equality sign stands before it. -/
  isSet : Bool
  deriving DecidableEq, Repr

/-- The role of an argument. -/
inductive Word where
  /-- An argument of its own, or a value. -/
  | operand (text : String)
  /-- Two dashes. -/
  | mark
  /-- An option by its long or short name, with the text attached to it. -/
  | option (o : Opt) (isShort : Bool) (attached : Option Attachment)
  /-- What looks like an option and is none. -/
  | stranger
  deriving DecidableEq, Repr

namespace Grammar

/-- All options. -/
def all (g : Grammar) : List Opt := helpOption :: g.options

/-- The written form of a long name. -/
def longForm (o : Opt) : List Char := '-' :: '-' :: o.long.toList

/-- The option with the short name. -/
def short? (g : Grammar) (c : Char) : Option Opt := g.all.find? fun o => o.short == some c

/-- The option written in full, and whether by its short name. -/
def fullForm? (g : Grammar) (cs : List Char) : Option (Opt × Bool) :=
  match g.all.find? fun o => longForm o == cs with
  | some o => some (o, false)
  | none =>
    match cs with
    | ['-', c] => (g.short? c).map fun o => (o, true)
    | _ => none

/-- The text before the first equality sign, and the text after it if there is one. -/
def atEquals (cs : List Char) : List Char × Option (List Char) :=
  match cs.dropWhile (· != '=') with
  | [] => (cs, none)
  | _ :: value => (cs.takeWhile (· != '='), some value)

/-- Whether the text after a dash is a number: digits, or a point with digits after it and perhaps
before it. -/
def isNumber (cs : List Char) : Bool :=
  let isDecimal (c : Char) : Bool := (Text.decimalDigit? c).isSome
  let cs := Text.chomp cs
  match cs.dropWhile isDecimal with
  | [] => cs != []
  | c :: places => c == '.' && places != [] && places.all isDecimal

/-- The role of a text that starts with a dash and is no option in full: an option with its value, a
shortened option, several short ones, a number, a text with blanks, or none of these. A start that
several long options share has no role. -/
def dashed? (g : Grammar) (cs : List Char) : Option Word :=
  let (name, value) := atEquals cs
  match value, g.fullForm? name with
  | some v, some (o, isShort) => some (.option o isShort (some ⟨v, true⟩))
  | _, _ =>
    let matching := match cs with
      | '-' :: '-' :: _ => (g.all.filter fun o => name.isPrefixOf (longForm o)).map fun o =>
          Word.option o false (value.map (⟨·, true⟩))
      | '-' :: c :: rest => (g.short? c).toList.map fun o => Word.option o true (some ⟨rest, false⟩)
      | _ => []
    match matching with
    | [w] => some w
    | _ :: _ :: _ => none
    | [] =>
      if isNumber (cs.drop 1) || cs.contains ' ' then some (.operand (String.ofList cs))
      else some .stranger

/-- The role of an argument. -/
def word? (g : Grammar) (arg : String) : Option Word :=
  match arg.toList with
  | '-' :: c :: rest =>
    match g.fullForm? ('-' :: c :: rest) with
    | some (o, isShort) => some (.option o isShort none)
    | none => g.dashed? ('-' :: c :: rest)
  | _ => some (.operand arg)

/-- The roles of all arguments. -/
def words? (g : Grammar) : List String → Option (List Word)
  | [] => some []
  | arg :: rest =>
    if arg = "--" then some (.mark :: rest.map .operand)
    else do return (← g.word? arg) :: (← words? g rest)

end Grammar

/-- What a command line says. -/
structure Arguments where
  /-- The operand. -/
  operand : Option String := none
  /-- The values of options, by their long names. An option may be there and yet have lost its
  value. -/
  values : Table (Option String) := []
  /-- The long names of the options without values. -/
  flags : List String := []
  /-- Whether there is anything that the grammar does not know. -/
  hasStrangers : Bool := false
  deriving DecidableEq, Repr

namespace Arguments

/-- Whether an option is there. -/
def has (a : Arguments) (name : String) : Bool := a.flags.contains name || a.values.contains name

/-- The arguments with options without values. The option for help stops. -/
def addFlags (a : Arguments) : List Opt → Except Stop Arguments
  | [] => .ok a
  | o :: rest =>
    if o = helpOption then .error .help
    else addFlags { a with flags := o.long :: a.flags } rest

/-- The arguments with the value of an option; a later value takes the place of an earlier one. -/
def addValue (a : Arguments) (m : Manner) (o : Opt) (value : String) : Arguments :=
  { a with values := a.values.insert o.long (m.value? value) }

end Arguments

/-- Options that stand together in one argument. -/
structure Cluster where
  /-- Those before the last one. They have no values. -/
  flags : List Opt := []
  /-- The last one with the value attached to it; none when a stranger stands there. -/
  last : Option (Opt × Option (List Char))
  deriving DecidableEq, Repr

namespace Grammar

/-- What the text attached to a short option stands for: its value, or further short options. -/
def cluster? (g : Grammar) (m : Manner) (o : Opt) (isSet : Bool) : List Char → Option Cluster
  | [] => if o.takesValue then some { last := some (o, some []) } else none
  | c :: rest =>
    if o.takesValue then some { last := some (o, some (c :: rest)) }
    else if m = .strict ∧ (isSet ∨ c = '-') then none
    else
      match g.short? c with
      | none => if m = .strict then some { flags := [o], last := none } else none
      | some next => do
        let tail ← match rest with
          | [] => some { last := some (next, none) }
          | '=' :: value =>
            if m = .strict then cluster? g m next true value
            else cluster? g m next false ('=' :: value)
          | rest => cluster? g m next false rest
        return { tail with flags := o :: tail.flags }

/-- What the text attached to an option stands for. Only short options stand together. -/
def parts? (g : Grammar) (m : Manner) (o : Opt) (isShort : Bool) :
    Option Attachment → Option Cluster
  | none => some { last := some (o, none) }
  | some a => if o.takesValue || isShort then g.cluster? m o a.isSet a.text else none

/-- What the words say, added to what was said before. -/
def take (g : Grammar) (m : Manner) (a : Arguments) : List Word → Except Stop Arguments
  | [] => .ok a
  | .operand text :: rest =>
    if g.takesOperand && a.operand.isNone then
      match rest with
      | .mark :: rest => take g m { a with operand := some text } rest
      | rest => take g m { a with operand := some text } rest
    else take g m { a with hasStrangers := true } rest
  | .mark :: rest =>
    match rest with
    | .operand text :: rest =>
      if g.takesOperand && a.operand.isNone then take g m { a with operand := some text } rest
      else take g m { a with hasStrangers := true } rest
    | rest => take g m { a with hasStrangers := true } rest
  | .stranger :: rest => take g m { a with hasStrangers := true } rest
  | .option o isShort attached :: rest =>
    match g.parts? m o isShort attached with
    | none => .error .refused
    | some ⟨flags, none⟩ => do
      take g m { ← a.addFlags flags with hasStrangers := true } rest
    | some ⟨flags, some (last, some value)⟩ => do
      take g m ((← a.addFlags flags).addValue m last (String.ofList value)) rest
    | some ⟨flags, some (last, none)⟩ =>
      if last.takesValue then
        match rest with
        | .operand value :: rest => do take g m ((← a.addFlags flags).addValue m last value) rest
        | _ => .error .refused
      else do take g m (← a.addFlags (flags ++ [last])) rest
termination_by ws => ws.length

/-- Whether all that must be there is there. -/
def isComplete (g : Grammar) (a : Arguments) : Bool :=
  (!g.takesOperand || a.operand.isSome) && g.required.all a.has

/-- What a command line says. Strangers are left for the caller to refuse. -/
def read (g : Grammar) (m : Manner) (args : List String) : Except Stop Arguments :=
  match g.words? args with
  | none => .error .refused
  | some words => do
    let a ← g.take m {} words
    if g.isComplete a then .ok a else .error .refused

/-- The same with strangers refused. -/
def readAll (g : Grammar) (m : Manner) (args : List String) : Except Stop Arguments := do
  let a ← g.read m args
  if a.hasStrangers then .error .refused else .ok a

end Grammar

/-- What stands before the name of a command: whether there are strangers, and the name with the
arguments after it. -/
def splitName (m : Manner) (hasStrangers : Bool) :
    List String → Except Stop (Bool × Option (String × List String))
  | [] => .ok (hasStrangers, none)
  | arg :: rest =>
    if arg = "--" then .error .refused
    else
      match ({} : Grammar).word? arg with
      | some (.operand name) => .ok (hasStrangers, some (name, rest))
      | some (.option o isShort attached) =>
        match ({} : Grammar).parts? m o isShort attached with
        | some _ => .error .help
        | none => .error .refused
      | some .stranger => splitName m true rest
      | some .mark | none => .error .refused

/-- The command that a command line names, read with that command's grammar and meaning. There is
none when nothing is named. -/
def readCommand {α : Type} (m : Manner) (commands : Table (Grammar × (Arguments → α)))
    (args : List String) : Except Stop (Option α) := do
  match ← splitName m false args with
  | (hasStrangers, none) => if hasStrangers then .error .refused else .ok none
  | (hasStrangers, some (name, rest)) =>
    match commands.get? name with
    | none => .error .refused
    | some (g, meaning) =>
      let a ← g.readAll m rest
      if hasStrangers then .error .refused else .ok (some (meaning a))

end Diagrams.CommandLine
