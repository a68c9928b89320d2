import SqlTables.Grammar.Lexeme

/-!
# Words

Few words of a statement are reserved: most keywords are names as well where a name is expected.
`NameUse` lists the places where names stand, each of which takes a few words less than others, and
`Lexeme.names` says whether a lexeme is a name there.
-/

namespace SqlTables

namespace Grammar

namespace Word

/-- The words that are never names. -/
def reserved : List String :=
  ["ALTER", "ANALYZE", "AND", "AS", "BETWEEN", "CREATE", "CROSS", "DISTINCT", "DROP", "ELSE",
    "EXCEPT", "FETCH", "FOR", "FROM", "GLOB", "GRANT", "HAVING", "ILIKE", "IN", "INNER", "INSERT",
    "INTERSECT", "INTO", "JOIN", "LATERAL", "LIKE", "NOT", "NOTNULL", "ON", "OR", "OUTER", "OVER",
    "PARTITIONED_BY", "QUALIFY", "REGEXP", "RETURNING", "REVOKE", "RLIKE", "ROLLBACK", "SELECT",
    "SERDEPROPERTIES", "STRAIGHT_JOIN", "TABLESAMPLE", "THEN", "UNCACHE", "UNION", "USING",
    "VALUES", "WHEN", "WHERE", "WITH", "XOR"]

/-- The one phrase that is a name. -/
def namePhrase : String := "FOREIGN KEY"

/-- Words that follow a table, where they are no alias. -/
def afterTable : List String :=
  ["ANTI", "ASOF", "FULL", "LEFT", "LOCK", "NATURAL", "RIGHT", "SEMI", "WINDOW"]

/-- The reserved words that are names of functions before a parenthesis. -/
def reservedFunctions : List String :=
  ["GLOB", "ILIKE", "INSERT", "LIKE", "REGEXP", "RLIKE", "XOR", "PRIMARY KEY"]

/-- The other words that are no names of functions. -/
def neverFunctions : List String :=
  ["ANTI", "ASC", "ASOF", "BEGIN", "CACHE", "CASE", "COLUMN", "COMMENT", "COMMIT", "CONSTRAINT",
    "COPY", "CUBE", "DATABASE", "DEFAULT", "DELETE", "DESC", "DESCRIBE", "DIV", "END", "ESCAPE",
    "EXECUTE", "FALSE", "FULL", "FUNCTION", "INTERVAL", "IS", "KEEP", "KILL", "LIMIT", "LOAD",
    "LOCK", "NATURAL", "ORDINALITY", "OVERLAPS", "OVERWRITE", "PARTITION", "PERCENT", "PIVOT",
    "PRAGMA", "PROCEDURE", "RECURSIVE", "REFERENCES", "RENAME", "ROLLUP", "ROWS", "SCHEMA", "SEMI",
    "SET", "SETTINGS", "SHOW", "TEMP", "TEMPORARY", "TRUE", "UNIQUE", "UNPIVOT", "UPDATE", "USE",
    "VIEW", "VOLATILE", "FOREIGN KEY"]

/-- The words that are types. -/
def types : List String :=
  ["ARRAY", "BIGDECIMAL", "BIGINT", "BIGNUMERIC", "BIGSERIAL", "BINARY", "BIT", "BLOB", "BOOL",
    "BOOLEAN", "BPCHAR", "BYTEA", "BYTES", "BYTEINT", "CHAR", "CHARACTER", "CHAR VARYING", "CLOB",
    "DATE", "DATE32", "DATETIME", "DATETIME64", "DEC", "DECIMAL", "DOUBLE", "ENUM", "FIXED",
    "FLOAT", "FLOAT4", "FLOAT8", "GEOGRAPHY", "GEOMETRY", "HLLSKETCH", "HSTORE", "HUGEINT",
    "IMAGE", "INET", "INT", "INT1", "INT128", "INT16", "INT2", "INT256", "INT32", "INT4", "INT64",
    "INT8", "INTEGER", "IPADDRESS", "IPPREFIX", "JSON", "JSONB", "LIST", "LONG", "LONGBLOB",
    "LONGTEXT", "MAP", "MEDIUMBLOB", "MEDIUMINT", "MEDIUMTEXT", "MONEY", "NCHAR", "NULLABLE",
    "NUMBER", "NUMERIC", "NVARCHAR", "NVARCHAR2", "OBJECT", "REAL", "ROWVERSION", "SERIAL",
    "SHORT", "SIGNED", "SMALLINT", "SMALLMONEY", "SMALLSERIAL", "STRING", "STRUCT", "SUPER",
    "TEXT", "TIME", "TIMESTAMP", "TIMESTAMPLTZ", "TIMESTAMPNTZ", "TIMESTAMPTZ", "TIMESTAMP_LTZ",
    "TIMESTAMP_NTZ", "TIMETZ", "TINYBLOB", "TINYINT", "TINYTEXT", "UBIGINT", "UINT", "UINT8",
    "UINT16", "UINT32", "UINT64", "UNKNOWN", "UNSIGNED", "USMALLINT", "UTINYINT", "UUID",
    "VARBINARY", "VARCHAR", "VARCHAR2", "VARIANT", "VOID", "XML", "YEAR"]

/-- The units of a span of time. -/
def timeUnits : List String :=
  ["CENTURY", "DAY", "DAYS", "DAYOFWEEK", "DAYOFYEAR", "DECADE", "EPOCH", "HOUR", "HOURS",
    "MICROSECOND", "MICROSECONDS", "MILLENNIUM", "MILLISECOND", "MILLISECONDS", "MINUTE",
    "MINUTES", "MONTH", "MONTHS", "NANOSECOND", "NANOSECONDS", "QUARTER", "QUARTERS", "SECOND",
    "SECONDS", "WEEK", "WEEKS", "YEAR", "YEARS"]

end Word

/-- The places where a name may stand. -/
inductive NameUse
  | any
  /-- The alias of a table. -/
  | tableAlias
  /-- The alias of a table whose rows are changed. -/
  | changedAlias
deriving DecidableEq

namespace Lexeme

/-- Whether the lexeme is a name where nothing says that one has to come. -/
def names (use : NameUse) (l : Lexeme) : Bool :=
  match l.kind with
  | .name | .parameter => true
  | .word =>
    let isPhrase := l.upper.contains ' ' && l.upper ≠ Word.namePhrase
    !isPhrase && !Word.reserved.contains l.upper
      && match use with
        | .any => true
        | .tableAlias => !Word.afterTable.contains l.upper
        | .changedAlias => !Word.afterTable.contains l.upper && l.upper ≠ "SET"
  | _ => false

/-- Whether the lexeme is a name where one has to come: all but `SELECT`, `NOT` and single marks. -/
def isForced (l : Lexeme) : Bool :=
  match l.kind with
  | .mark => l.text.length ≠ 1 && l.text ≠ "=="
  | .word => !(l.isAnyWord ["SELECT", "NOT"])
  | .hint => false
  | _ => true

/-- Whether the lexeme before a parenthesis names a function. -/
def isFunctionName (l : Lexeme) : Bool :=
  match l.kind with
  | .name | .parameter => true
  | .word =>
    Word.reservedFunctions.contains l.upper
      || (l.names .any && !Word.neverFunctions.contains l.upper)
  | _ => false

def isType (l : Lexeme) : Bool := l.isAnyWord Word.types

end Lexeme

end Grammar

end SqlTables
