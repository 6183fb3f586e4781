/-!
# Reserved words

Declared names become table and column names, structure members and object properties of generated
code, so the keywords of the three generated languages are withheld from them: the programming
interface in C, the queries in SQL, and the bindings in JavaScript and TypeScript. All words are
written in lower case, and a word that two of the languages share is listed by both.
-/

namespace DataModel.Ident

/-- Keywords of the generated C interface. -/
def interfaceKeywords : List String :=
  ["auto", "break", "case", "char", "const", "continue", "default", "do", "double", "enum",
    "extern", "float", "goto", "long", "register", "short", "signed", "static", "struct", "typedef",
    "union", "unsigned", "void", "volatile"]

/-- Keywords of the storage query language. -/
def queryKeywords : List String :=
  ["abort", "action", "add", "after", "all", "alter", "analyze", "and", "as", "asc", "attach",
    "autoincrement", "before", "begin", "between", "by", "cascade", "case", "cast", "check",
    "collate", "column", "commit", "conflict", "constraint", "create", "cross", "current_date",
    "current_time", "current_timestamp", "database", "default", "deferrable", "deferred", "delete",
    "desc", "detach", "distinct", "drop", "each", "else", "end", "escape", "except", "exclusive",
    "exists", "explain", "fail", "for", "foreign", "from", "full", "glob", "group", "having", "if",
    "ignore", "immediate", "in", "index", "indexed", "initially", "inner", "insert", "instead",
    "intersect", "into", "is", "isnull", "join", "key", "left", "like", "limit", "match", "natural",
    "not", "notnull", "null", "of", "offset", "on", "or", "order", "outer", "plan", "pragma",
    "primary", "query", "raise", "recursive", "references", "regexp", "reindex", "release",
    "rename", "replace", "restrict", "right", "rollback", "row", "savepoint", "select", "set",
    "table", "temp", "temporary", "then", "to", "transaction", "trigger", "union", "unique",
    "update", "using", "vacuum", "values", "view", "virtual", "when", "where", "with", "without"]

/-- Keywords of the generated script bindings that the other two lists lack. -/
def bindingKeywords : List String :=
  ["await", "catch", "class", "debugger", "export", "extends", "false", "finally", "function",
    "implements", "import", "instanceof", "interface", "let", "new", "package", "private",
    "protected", "public", "return", "super", "switch", "this", "throw", "true", "try", "typeof",
    "var", "while", "yield"]

/-- Every reserved word, once. -/
def reservedWords : List String :=
  (interfaceKeywords ++ queryKeywords ++ bindingKeywords).eraseDups

end DataModel.Ident
