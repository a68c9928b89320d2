import SqlTables.Datum
import SqlTables.Entries
import SqlTables.Similarity
import SqlTables.Text
import SqlTables.Unicode.LowerCase
import SqlTables.Unicode.UpperCase

/-!
# Dialects

A `Dialect` says in what a database writes its statements differently from others: how names and
texts are quoted, what starts a comment, which words and marks mean more than elsewhere.
`Dialect.choose` reads the choice of a user, which is the name of a dialect and may go on with
settings: `spark, normalization_strategy = lowercase`. The settings do not change how a statement is
read, but one that is not known is refused.
-/

namespace SqlTables

structure Dialect where
  name : String
  /-- The quotes around names: the one before and the one after. -/
  nameQuotes : List (Char × Char) := [('"', '"')]
  /-- The quotes around texts. -/
  textQuotes : List Char := ['\'']
  /-- The characters that take the meaning from a quote after them in a text. A quote of texts does
  so only for itself. -/
  textEscapes : List Char := ['\'']
  /-- What starts a comment that goes to the end of the line. -/
  lineComments : List String := ["--"]
  /-- Whether block comments may stand inside each other. -/
  hasNestedComments : Bool := true
  /-- Whether `MINUS` is another word for `EXCEPT`. -/
  hasMinus : Bool := false
  /-- Whether names may start with a digit. -/
  hasDigitNames : Bool := false
  /-- The letters that may end a number. -/
  numberSuffixes : List String := []
  /-- Whether a dollar sign stands before the name of a parameter, and is no part of a word. -/
  hasDollarParameters : Bool := false
  /-- Whether the sample of a table comes before its alias. -/
  samplesBeforeAlias : Bool := false
  /-- Whether dots inside a quoted name separate its parts. -/
  splitsQuotedNames : Bool := false
  /-- The set operators that need to be followed by `ALL` or `DISTINCT`. -/
  fullOperators : List String := []
  /-- Whether the `AS` between the name of a common table expression and its query may be left out.
  -/
  hasBareCtes : Bool := true
  /-- Whether `VALUES` without a parenthesis after it is a name. -/
  hasValuesName : Bool := true
  /-- Whether a text after an expression is its alias. -/
  hasTextAliases : Bool := false
  /-- Whether a type may be one that the dialect does not know. -/
  hasUserTypes : Bool := true
  /-- Whether a statement may start with `SELECT`. -/
  hasSelect : Bool := true
  /-- The phrases that start commands which other dialects do not know. -/
  commands : List (List String) := []
deriving DecidableEq

namespace Dialect

/-- The dialect without extensions. -/
def standard : Dialect := { name := "" }

/-- The dialect that its relatives differ from in their names only. -/
def hive : Dialect :=
  { name := "hive", nameQuotes := [('`', '`')], textQuotes := ['\'', '"'], textEscapes := ['\\'],
    hasMinus := true, hasDigitNames := true,
    numberSuffixes := ["L", "S", "Y", "D", "F", "BD"], hasDollarParameters := true,
    samplesBeforeAlias := true, hasValuesName := false, hasUserTypes := false,
    commands :=
      [["MSCK", "REPAIR"], ["ADD", "ARCHIVE"], ["ADD", "ARCHIVES"], ["ADD", "FILE"],
        ["ADD", "FILES"], ["ADD", "JAR"], ["ADD", "JARS"]] }

def mysql : Dialect :=
  { name := "mysql", nameQuotes := [('`', '`')], textQuotes := ['\'', '"'],
    textEscapes := ['\'', '"', '\\'], lineComments := ["--", "#"], hasNestedComments := false,
    hasValuesName := false, hasTextAliases := true }

def bigquery : Dialect :=
  { name := "bigquery", nameQuotes := [('`', '`')], textQuotes := ['\'', '"'],
    textEscapes := ['\\'], lineComments := ["--", "#"], hasNestedComments := false,
    splitsQuotedNames := true, fullOperators := ["UNION", "EXCEPT", "INTERSECT"] }

def clickhouse : Dialect :=
  { name := "clickhouse", nameQuotes := [('"', '"'), ('`', '`')], textEscapes := ['\'', '\\'],
    lineComments := ["--", "#"], fullOperators := ["UNION"], hasBareCtes := false }

def snowflake : Dialect :=
  { name := "snowflake", textEscapes := ['\\', '\''], lineComments := ["--", "//"],
    hasNestedComments := false, hasMinus := true }

def tsql : Dialect :=
  { name := "tsql", nameQuotes := [('[', ']'), ('"', '"')], hasTextAliases := true }

def sqlite : Dialect :=
  { name := "sqlite", nameQuotes := [('"', '"'), ('[', ']'), ('`', '`')],
    hasNestedComments := false, hasTextAliases := true }

/-- The dialects that a statement can be in. -/
def all : List Dialect :=
  [standard, hive, mysql, bigquery, clickhouse, snowflake, tsql, sqlite,
    { hive with name := "databricks" },
    { hive with name := "spark" },
    { hive with name := "spark2" },
    { mysql with name := "doris" },
    { mysql with name := "singlestore" },
    { mysql with name := "starrocks" },
    { tsql with name := "fabric" },
    { name := "athena" },
    { name := "dax" },
    { name := "dremio", lineComments := ["--", "//"] },
    { name := "drill", nameQuotes := [('`', '`')], textEscapes := ['\\'] },
    { name := "druid" },
    { name := "duckdb" },
    { name := "dune" },
    { name := "exasol", nameQuotes := [('"', '"'), ('[', ']')] },
    { name := "materialize" },
    { name := "oracle", hasMinus := true },
    { name := "postgres" },
    { name := "presto" },
    { name := "prql", nameQuotes := [('`', '`')], textQuotes := ['\'', '"'], hasSelect := false },
    { name := "redshift", textEscapes := ['\\', '\''], hasMinus := true },
    { name := "risingwave" },
    { name := "solr", nameQuotes := [('`', '`')] },
    { name := "tableau", nameQuotes := [('[', ']')], textQuotes := ['\'', '"'] },
    { name := "teradata", hasMinus := true },
    { name := "trino" }]

def ofName? (name : String) : Option Dialect := all.find? fun d => d.name == name

end Dialect

/-- Why the choice of a dialect is refused. -/
inductive DialectError
  | unknown (name : String)
  | unknownSetting (name : String)
  /-- The value of a setting is none of its choices. -/
  | notAStrategy (value : String)
  /-- A setting that needs a word has a truth value. -/
  | strategyIsTruth
deriving DecidableEq

/-- The value of a setting. -/
inductive SettingValue
  | truth (value : Bool)
  | word (value : String)
  | nothing
deriving DecidableEq

namespace Dialect

def strategyKey : String := "normalization_strategy"

/-- The settings that a choice may have. -/
def settingKeys : List String := [strategyKey, "version"]

/-- The ways in which the case of names may be normalized. -/
def strategies : List String :=
  ["LOWERCASE", "UPPERCASE", "CASE_SENSITIVE", "CASE_INSENSITIVE", "CASE_INSENSITIVE_UPPERCASE"]

/-- A value after an equals sign. -/
def settingValue (text : String) : SettingValue :=
  let value := Text.trim text
  let lower := Unicode.lower value
  if ["true", "1"].contains lower then .truth true
  else if ["false", "0"].contains lower then .truth false
  else .word value

/-- A setting: a key alone is true, and one with more than one equals sign has no value. -/
def setting (text : String) : String × SettingValue :=
  match text.splitOn "=" with
  | [key, value] => (Text.trim key, settingValue value)
  | [key] => (Text.trim key, .truth true)
  | parts => (Text.trim (parts.headD ""), .nothing)

/-- Whether the strategy among the settings can be used. -/
def checkStrategy (settings : Entries SettingValue) : Except DialectError Unit :=
  match settings.get? strategyKey with
  | some (.word value) =>
    if strategies.contains (Unicode.upper value) then .ok ()
    else .error (.notAStrategy (Unicode.upper value))
  | some (.truth _) => .error .strategyIsTruth
  | some .nothing | none => .ok ()

/-- Whether the settings are known and can be used. -/
def checkSettings (settings : Entries SettingValue) : Except DialectError Unit := do
  checkStrategy settings
  match settings.find? fun (key, _) => !settingKeys.contains key with
  | some (key, _) => .error (.unknownSetting key)
  | none => .ok ()

/-- The dialect that a user has chosen. -/
def choose : Option String → Except DialectError Dialect
  | none => .ok standard
  | some choice =>
    let parts := choice.splitOn ","
    let name := parts.headD ""
    match ofName? (Text.trim name) with
    | none => .error (.unknown name)
    | some d => do
      checkSettings (.ofList ((parts.drop 1).map setting))
      pure d

end Dialect

namespace DialectError

/-- The word that may have been meant. -/
def suggestion (given : String) (words : List String) : String :=
  match Similarity.closest? given words with
  | some word => " Did you mean " ++ word ++ "?"
  | none => ""

def message : DialectError → String
  | unknown name =>
    "Unknown dialect '" ++ name ++ "'." ++ suggestion name (Dialect.all.map Dialect.name)
  | unknownSetting name =>
    "Unknown setting '" ++ name ++ "'." ++ suggestion name Dialect.settingKeys
  | notAStrategy value => Datum.quotedLiteral value ++ " is not a valid NormalizationStrategy"
  | strategyIsTruth => "'bool' object has no attribute 'upper'"

end DialectError

end SqlTables
