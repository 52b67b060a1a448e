import DocComment.Grammar

/-!
The languages, the identifiers editors use for them, their words and their comment tags.
-/

namespace DocComment

inductive Language where
  | c | java | javascript | php | scss
  deriving DecidableEq, Repr, Inhabited

namespace Language

def all : List Language := [.c, .java, .javascript, .php, .scss]

def id : Language → String
  | .c => "c"
  | .java => "java"
  | .javascript => "javascript"
  | .php => "php"
  | .scss => "scss"

def identifiers : List (String × Language) :=
  [("c", .c), ("cpp", .c), ("objective-c", .c), ("objective-cpp", .c), ("java", .java),
   ("javascript", .javascript), ("javascriptreact", .javascript), ("typescript", .javascript),
   ("typescriptreact", .javascript), ("vue", .javascript), ("php", .php), ("scss", .scss)]

def ofId? (id : String) : Option Language :=
  (identifiers.find? fun (known, _) => known == id).map (·.2)

theorem of_id_id (language : Language) : ofId? language.id = some language := by
  cases language <;> decide

def aliases (language : Language) : List String :=
  (identifiers.filter fun (_, other) => other == language).map (·.1)

def grammar : Language → Grammar
  | .c => {
      classWords := ["class", "struct", "union", "enum"]
      functionWords := []
      isIdentifier := Spelling.plain
      modifiers := ["static", "const", "constexpr", "unsigned", "signed", "extern", "inline",
        "volatile", "register", "virtual", "explicit", "friend", "mutable", "typedef", "restrict",
        "public", "private", "protected"]
      variableWords := []
      types := ["void", "char", "short", "int", "long", "float", "double", "bool", "_Bool",
        "size_t", "ssize_t", "wchar_t", "auto", "int8_t", "int16_t", "int32_t", "int64_t",
        "uint8_t", "uint16_t", "uint32_t", "uint64_t"]
      reserved := ["if", "else", "for", "while", "do", "switch", "case", "return", "goto", "break",
        "continue", "sizeof", "new", "delete", "throw", "using", "namespace", "template"] }
  | .java => {
      classWords := ["class", "interface", "enum", "record"]
      functionWords := []
      isIdentifier := Spelling.withDollar
      modifiers := ["public", "private", "protected", "static", "final", "abstract",
        "synchronized", "native", "transient", "volatile", "strictfp", "default", "sealed",
        "non-sealed"]
      variableWords := []
      types := ["byte", "short", "int", "long", "float", "double", "boolean", "char", "void", "var"]
      reserved := ["if", "else", "for", "while", "do", "switch", "case", "return", "throw", "new",
        "try", "catch", "finally", "import", "package", "break", "continue", "assert"] }
  | .javascript => {
      classWords := ["class", "interface", "enum"]
      functionWords := ["function"]
      isIdentifier := Spelling.withDollar
      modifiers := ["async", "static", "export", "default", "public", "private", "protected",
        "readonly", "abstract", "get", "set", "declare", "override"]
      variableWords := ["const", "let", "var"]
      types := ["string", "number", "boolean", "any", "void", "never", "unknown", "object",
        "symbol", "bigint", "undefined", "null"]
      reserved := ["if", "else", "for", "while", "do", "switch", "case", "return", "throw", "new",
        "typeof", "delete", "import", "await", "yield", "try", "catch", "finally", "break",
        "continue", "instanceof", "in", "of"] }
  | .php => {
      classWords := ["class", "interface", "trait", "enum"]
      functionWords := ["function", "fn"]
      isIdentifier := Spelling.sigiled
      modifiers := ["public", "private", "protected", "static", "final", "abstract", "readonly"]
      variableWords := ["const", "var"]
      types := ["int", "float", "string", "bool", "array", "callable", "iterable", "object",
        "mixed", "void", "null", "never", "false", "true", "self", "parent"]
      reserved := ["if", "else", "elseif", "for", "foreach", "while", "do", "switch", "case",
        "match", "return", "throw", "new", "echo", "print", "namespace", "use", "require",
        "require_once", "include", "include_once", "global", "unset", "isset", "yield", "try",
        "catch"] }
  | .scss => {
      classWords := []
      functionWords := ["function", "mixin"]
      isIdentifier := Spelling.hyphenated
      modifiers := []
      variableWords := []
      types := []
      reserved := ["if", "else", "each", "for", "while", "return", "include", "extend", "use",
        "forward", "import", "media", "content"] }

def paramTag (_ : Language) : String := "@param"

def returnTag (_ : Language) : String := "@return"

def varTag : Language → String
  | .javascript | .scss => "@type"
  | .c | .java | .php => "@var"

end Language

end DocComment
