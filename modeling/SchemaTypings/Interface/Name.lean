import SchemaTypings.Text.Case
import SchemaTypings.Text.Quoted
import SchemaTypings.Text.Word

/-!
Names of interfaces and what speaks against one.
-/

namespace SchemaTypings

namespace InterfaceName

/-- The words that cannot name an interface. -/
def reserved : List Text :=
  List.map Text.ofString ["break", "case", "catch", "class", "const", "continue", "debugger",
    "default", "delete", "do", "else", "enum", "export", "extends", "false", "finally", "for",
    "function", "if", "import", "in", "instanceof", "new", "null", "return", "super", "switch",
    "this", "throw", "true", "try", "typeof", "var", "void", "while", "with", "implements",
    "interface", "let", "package", "private", "protected", "public", "static", "yield"]

/-- The names of types that are in scope already, in lower case. -/
def builtIn : List Text :=
  ["any", "unknown", "never", "object", "string", "number", "boolean", "bigint", "symbol",
    "undefined", "date", "array", "record", "map", "objectid", "decimal128"]

/-- What speaks against `name` as the name of an interface. -/
def problems (name : Text) : List Text :=
  if name.isEmpty then ["Interface name cannot be empty"]
  else
    let quoted : Text := "'" ++ name ++ "'"
    let form : List Text :=
      if name.passesAsName then [] else [quoted ++ " is not a valid TypeScript identifier"]
    let word : List Text :=
      if reserved.contains name then [quoted ++ " is a TypeScript reserved word"] else []
    let scope : List Text :=
      if builtIn.contains name.lower then [quoted ++ " shadows a builtin type"] else []
    form ++ word ++ scope

end InterfaceName

end SchemaTypings
