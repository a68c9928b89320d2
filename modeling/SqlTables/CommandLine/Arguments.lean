import SqlTables.CommandLine.Usage
import SqlTables.Similarity

/-!
# Options and words

The arguments of a command are options and words. `Arguments.read` tells them apart: an option
begins with a hyphen, and its value is attached to it or is the next argument. After `--` all
arguments are words.
-/

namespace SqlTables

/-- An option as it is written. -/
structure OptionForm (α : Type) where
  option : α
  long : String
  short : Option Char := none
  takesValue : Bool := true
deriving DecidableEq

/-- The options of a command with their values, in order, and its words. -/
structure Arguments (α : Type) where
  options : List (α × Option String) := []
  words : List String := []
deriving DecidableEq

namespace Arguments

variable {α : Type}

/-- The options that one argument holds: those that are complete, and one that waits for its value,
with its name. -/
abbrev Held (α : Type) := List (α × Option String) × Option (α × String)

/-- The options of an argument such as `-v`. The first that takes a value takes what is left. -/
def short (forms : List (OptionForm α)) : List Char → Except UsageError (Held α)
  | [] => .ok ([], none)
  | c :: rest =>
    let name := String.ofList ['-', c]
    match forms.find? (·.short == some c) with
    | none => .error (.noSuchOption name [])
    | some form =>
      if !form.takesValue then
        (short forms rest).map fun (complete, waiting) => ((form.option, none) :: complete, waiting)
      else if rest.isEmpty then .ok ([], some (form.option, name))
      else .ok ([(form.option, some (String.ofList rest))], none)

/-- The option of an argument such as `--file`, whose value may follow an equals sign. -/
def long (form : OptionForm α) (value : Option String) : Except UsageError (Held α) :=
  match value with
  | some _ =>
    if form.takesValue then .ok ([(form.option, value)], none)
    else .error (.needlessValue form.long)
  | none =>
    if form.takesValue then .ok ([], some (form.option, form.long))
    else .ok ([(form.option, none)], none)

/-- The options that an argument holds. -/
def held (forms : List (OptionForm α)) (argument : String) : Except UsageError (Held α) :=
  let chars := argument.toList
  let name := String.ofList (chars.takeWhile (· ≠ '='))
  let value :=
    match chars.dropWhile (· ≠ '=') with
    | [] => none
    | _ :: value => some (String.ofList value)
  match forms.find? (·.long == name) with
  | some form => long form value
  | none =>
    if ['-', '-'].isPrefixOf chars then
      .error (.noSuchOption name (Similarity.closest name (forms.map OptionForm.long)))
    else short forms (chars.drop 1)

/-- Whether an argument holds options. -/
def isOption (argument : String) : Bool :=
  match argument.toList with
  | '-' :: _ :: _ => true
  | _ => false

def withOptions (options : List (α × Option String)) (a : Arguments α) : Arguments α :=
  { a with options := options ++ a.options }

def withWord (word : String) (a : Arguments α) : Arguments α :=
  { a with words := word :: a.words }

/-- Reads the arguments of a command. If options may not be mixed with words, all arguments from the
first word on are words. -/
def read (forms : List (OptionForm α)) (mixed : Bool) :
    List String → Except UsageError (Arguments α)
  | [] => .ok {}
  | argument :: rest =>
    if argument = "--" then .ok { words := rest }
    else if isOption argument then
      match held forms argument with
      | .error e => .error e
      | .ok (complete, none) => (read forms mixed rest).map (withOptions complete)
      | .ok (complete, some (option, name)) =>
        match rest with
        | [] => .error (.missingValue name)
        | value :: rest =>
          (read forms mixed rest).map (withOptions (complete ++ [(option, some value)]))
    else if mixed then (read forms mixed rest).map (withWord argument)
    else .ok { words := argument :: rest }

@[simp] theorem read_nil (forms : List (OptionForm α)) (mixed : Bool) :
    read forms mixed [] = .ok {} := rfl

theorem read_separator (forms : List (OptionForm α)) (mixed : Bool) (rest : List String) :
    read forms mixed ("--" :: rest) = .ok { words := rest } := by
  rw [read, if_pos rfl]

variable [DecidableEq α]

/-- Whether an option is given. -/
def has (a : Arguments α) (option : α) : Bool := a.options.any (·.1 = option)

/-- The last value of an option. -/
def value? (a : Arguments α) (option : α) : Option String :=
  ((a.options.filter (·.1 = option)).getLast?).bind Prod.snd

/-- The options that are given, each once, in the order in which they first occur. -/
def given (a : Arguments α) : List α := (a.options.map Prod.fst).eraseDups

end Arguments

end SqlTables
