/-!
# Settings

`Settings` holds what the user can configure. The choices are kept as the words that name them; a
word that names nothing shows when it is used.
-/

namespace SqlTables

structure Settings where
  engine : String := "scan"
  dialect : String := "hive"
  separator : String := "newline"
  maxInputBytes : Int := 10485760
  logEnabled : Bool := true
  logRetentionDays : Int := 30
deriving DecidableEq

namespace Settings

/-- The words for the engines. -/
def engines : List String := ["scan", "sqlglot"]

/-- The words for the separators of table names, and what each stands for. -/
def separators : List (String × String) := [("newline", "\n"), ("comma", ",")]

/-- The text between two table names. -/
def joiner? (s : Settings) : Option String := separators.lookup s.separator

end Settings

end SqlTables
