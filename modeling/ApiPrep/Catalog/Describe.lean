import ApiPrep.Catalog

namespace ApiPrep

/-- A parameter with its type; one that may be left out has a question mark. -/
def Parameter.described (p : Parameter) : Text :=
  let type := (p.dataType.filter (· ≠ ("" : Text))).getD "?"
  let kind := match p.dataFormat.filter (· ≠ ("" : Text)) with
    | none => type
    | some format => type ++ "/" ++ format
  p.baseName.getD "None" ++ (if p.required then "" else "?") ++ ": " ++ kind

def describeParameters (ps : List Parameter) : Text :=
  if ps.isEmpty then "-" else Text.intercalate ", " (ps.map Parameter.described)

namespace Catalog

def headers : List Text := ["Name", "Method", "Body", "Path params", "Query params", "Creation"]

def row (c : Catalog) (s : Signature) : List Text :=
  [s.name, s.httpMethod, if s.hasBody then "yes" else "no", describeParameters s.pathParams,
    describeParameters s.queryParams, if s.name = c.creation then "*" else ""]

def rows (c : Catalog) : List (List Text) := c.signatures.map c.row

end Catalog

end ApiPrep
