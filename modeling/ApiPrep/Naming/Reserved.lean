import ApiPrep.Text.Case.Lower

namespace ApiPrep.Naming

def reservedWords : List Text :=
  List.map Text.ofString
    ["abstract", "await", "boolean", "break", "byte", "case", "catch", "char", "class", "const",
    "continue", "debugger", "default", "delete", "do", "double", "else", "enum", "export",
    "extends", "false", "final", "finally", "float", "for", "function", "goto", "if",
    "implements", "import", "in", "instanceof", "int", "interface", "let", "long", "native",
    "new", "null", "package", "private", "protected", "public", "return", "short", "static",
    "super", "switch", "synchronized", "this", "throw", "transient", "true", "try", "typeof",
    "var", "void", "volatile", "while", "with", "yield",
    -- Variables of the generated methods.
    "varLocalPath", "queryParameters", "headerParams", "formParams", "useFormData",
    "varLocalDeferred", "requestOptions"]

def primitiveTypes : List Text :=
  List.map Text.ofString
    ["string", "String", "boolean", "Boolean", "Double", "Integer", "Long", "Float", "Object",
    "Error", "Array", "any", "number", "Date", "Blob"]

/-- Whether a word, or its lower-case form, is reserved. -/
def isReserved (word : List Rune) : Bool :=
  reservedWords.contains (Text.ofList word) ||
    reservedWords.contains (Text.ofList (Text.lower word))

end ApiPrep.Naming
