/-!
# Keywords

`Keyword` lists the words that steer the extraction. A word that is not listed is an identifier, so
common words such as `date` and `user` still serve as table names and aliases. The constructors are
written in capitals, as the words are in a script.
-/

namespace SqlTables

inductive Keyword
  | ADD | ALL | ALTER | AND | ANTI | AS | ASC | BETWEEN | BY | CASE | CLUSTER | CLUSTERED
  | COMMENT | CREATE | CROSS | CUBE | DELETE | DESC | DESCRIBE | DFS | DIRECTORY | DISTINCT
  | DISTRIBUTE | DROP | ELSE | END | EXCEPT | EXISTS | EXPLAIN | EXTERNAL | FETCH | FOR | FROM
  | FULL | GLOBAL | GROUP | GROUPING | HAVING | IF | IN | INNER | INSERT | INTERSECT | INTO | IS
  | JOIN | LATERAL | LEFT | LIKE | LIMIT | LIST | LOAD | LOCAL | LOCATION | MATERIALIZED | MERGE
  | MINUS | MSCK | NATURAL | NOT | NULL | OFFSET | ON | OR | ORDER | OUTER | OVER | OVERWRITE
  | PARTITION | PARTITIONED | QUALIFY | RECURSIVE | RELOAD | REPLACE | RESET | RIGHT | RLIKE
  | ROLLUP | ROW | SELECT | SEMI | SET | SETS | SHOW | SORT | STORED | TABLE | TABLESAMPLE
  | TBLPROPERTIES | TEMP | TEMPORARY | THEN | TRANSACTIONAL | TRUNCATE | UNION | UPDATE | USE
  | USING | VALUES | VIEW | WHEN | WHERE | WINDOW | WITH
deriving DecidableEq

namespace Keyword

/-- The word in capitals. -/
def text : Keyword → String
  | ADD => "ADD" | ALL => "ALL" | ALTER => "ALTER" | AND => "AND" | ANTI => "ANTI" | AS => "AS"
  | ASC => "ASC" | BETWEEN => "BETWEEN" | BY => "BY" | CASE => "CASE" | CLUSTER => "CLUSTER"
  | CLUSTERED => "CLUSTERED" | COMMENT => "COMMENT" | CREATE => "CREATE" | CROSS => "CROSS"
  | CUBE => "CUBE" | DELETE => "DELETE" | DESC => "DESC" | DESCRIBE => "DESCRIBE" | DFS => "DFS"
  | DIRECTORY => "DIRECTORY" | DISTINCT => "DISTINCT" | DISTRIBUTE => "DISTRIBUTE"
  | DROP => "DROP" | ELSE => "ELSE" | END => "END" | EXCEPT => "EXCEPT" | EXISTS => "EXISTS"
  | EXPLAIN => "EXPLAIN" | EXTERNAL => "EXTERNAL" | FETCH => "FETCH" | FOR => "FOR"
  | FROM => "FROM" | FULL => "FULL" | GLOBAL => "GLOBAL" | GROUP => "GROUP"
  | GROUPING => "GROUPING" | HAVING => "HAVING" | IF => "IF" | IN => "IN" | INNER => "INNER"
  | INSERT => "INSERT" | INTERSECT => "INTERSECT" | INTO => "INTO" | IS => "IS" | JOIN => "JOIN"
  | LATERAL => "LATERAL" | LEFT => "LEFT" | LIKE => "LIKE" | LIMIT => "LIMIT" | LIST => "LIST"
  | LOAD => "LOAD" | LOCAL => "LOCAL" | LOCATION => "LOCATION" | MATERIALIZED => "MATERIALIZED"
  | MERGE => "MERGE" | MINUS => "MINUS" | MSCK => "MSCK" | NATURAL => "NATURAL" | NOT => "NOT"
  | NULL => "NULL" | OFFSET => "OFFSET" | ON => "ON" | OR => "OR" | ORDER => "ORDER"
  | OUTER => "OUTER" | OVER => "OVER" | OVERWRITE => "OVERWRITE" | PARTITION => "PARTITION"
  | PARTITIONED => "PARTITIONED" | QUALIFY => "QUALIFY" | RECURSIVE => "RECURSIVE"
  | RELOAD => "RELOAD" | REPLACE => "REPLACE" | RESET => "RESET" | RIGHT => "RIGHT"
  | RLIKE => "RLIKE" | ROLLUP => "ROLLUP" | ROW => "ROW" | SELECT => "SELECT" | SEMI => "SEMI"
  | SET => "SET" | SETS => "SETS" | SHOW => "SHOW" | SORT => "SORT" | STORED => "STORED"
  | TABLE => "TABLE" | TABLESAMPLE => "TABLESAMPLE" | TBLPROPERTIES => "TBLPROPERTIES"
  | TEMP => "TEMP" | TEMPORARY => "TEMPORARY" | THEN => "THEN" | TRANSACTIONAL => "TRANSACTIONAL"
  | TRUNCATE => "TRUNCATE" | UNION => "UNION" | UPDATE => "UPDATE" | USE => "USE"
  | USING => "USING" | VALUES => "VALUES" | VIEW => "VIEW" | WHEN => "WHEN" | WHERE => "WHERE"
  | WINDOW => "WINDOW" | WITH => "WITH"

/-- Every keyword, in alphabetical order. -/
def all : List Keyword :=
  [ADD, ALL, ALTER, AND, ANTI, AS, ASC, BETWEEN, BY, CASE, CLUSTER, CLUSTERED, COMMENT, CREATE,
   CROSS, CUBE, DELETE, DESC, DESCRIBE, DFS, DIRECTORY, DISTINCT, DISTRIBUTE, DROP, ELSE, END,
   EXCEPT, EXISTS, EXPLAIN, EXTERNAL, FETCH, FOR, FROM, FULL, GLOBAL, GROUP, GROUPING, HAVING, IF,
   IN, INNER, INSERT, INTERSECT, INTO, IS, JOIN, LATERAL, LEFT, LIKE, LIMIT, LIST, LOAD, LOCAL,
   LOCATION, MATERIALIZED, MERGE, MINUS, MSCK, NATURAL, NOT, NULL, OFFSET, ON, OR, ORDER, OUTER,
   OVER, OVERWRITE, PARTITION, PARTITIONED, QUALIFY, RECURSIVE, RELOAD, REPLACE, RESET, RIGHT,
   RLIKE, ROLLUP, ROW, SELECT, SEMI, SET, SETS, SHOW, SORT, STORED, TABLE, TABLESAMPLE,
   TBLPROPERTIES, TEMP, TEMPORARY, THEN, TRANSACTIONAL, TRUNCATE, UNION, UPDATE, USE, USING,
   VALUES, VIEW, WHEN, WHERE, WINDOW, WITH]

theorem mem_all (k : Keyword) : k ∈ all := by
  cases k <;> decide

/-- The keyword that an upper-cased word spells. -/
def ofUpper? (word : String) : Option Keyword :=
  all.find? fun k => k.text == word

end Keyword

end SqlTables
