import ApiPrep.Operation
import ApiPrep.Text.Quoted

namespace ApiPrep

open Record

structure Signature where
  name : Text
  httpMethod : Text
  hasBody : Bool := false
  pathParams : List Parameter := []
  queryParams : List Parameter := []
deriving DecidableEq, Repr, Inhabited

namespace Signature

def nameMember : Member Text := .required "name" "name" .text
def httpMethodMember : Member Text := .required "httpMethod" "http_method" .text
def hasBodyMember : Member Bool := .orElse "hasBody" "has_body" .flag false
def pathParamsMember : Member (List Parameter) := .tuple "pathParams" "path_params" Parameter.form
def queryParamsMember : Member (List Parameter) :=
  .tuple "queryParams" "query_params" Parameter.form

def title : Text := "CanonicalSignature"

def form : Form Signature :=
  .record title
    (fun entries =>
      Signature.mk <$> nameMember.read entries <*> httpMethodMember.read entries
        <*> hasBodyMember.read entries <*> pathParamsMember.read entries
        <*> queryParamsMember.read entries)
    (fun spelling s =>
      [nameMember.write spelling s.name, httpMethodMember.write spelling s.httpMethod,
        hasBodyMember.write spelling s.hasBody, pathParamsMember.write spelling s.pathParams,
        queryParamsMember.write spelling s.queryParams])

end Signature

/-- Signatures of distinct names, one of which is the creation: the operation that it matches
names the entity of a promoted group. -/
structure Catalog where
  signatures : List Signature
  creation : Text
  nodup : (signatures.map Signature.name).Nodup
  creation_mem : creation ∈ signatures.map Signature.name
deriving DecidableEq

inductive CatalogFlaw where
  | repeatedNames (names : List Text)
  | unknownCreation (creation : Text)
deriving DecidableEq, Repr

def CatalogFlaw.message : CatalogFlaw → Text
  | .repeatedNames names =>
    "duplicate signature names in catalog: [" ++
      Text.intercalate ", " (names.map Text.quoted) ++ "]"
  | .unknownCreation creation =>
    "creation signature " ++ Text.quoted creation ++ " is not in the catalog"

namespace Catalog

def make? (signatures : List Signature) (creation : Text) : Except CatalogFlaw Catalog :=
  if nodup : (signatures.map Signature.name).Nodup then
    if creation_mem : creation ∈ signatures.map Signature.name then
      .ok ⟨signatures, creation, nodup, creation_mem⟩
    else .error (.unknownCreation creation)
  else .error (.repeatedNames (signatures.map Signature.name))

def get? (c : Catalog) (name : Text) : Option Signature :=
  c.signatures.find? (·.name = name)

theorem get?_creation_isSome (c : Catalog) : (c.get? c.creation).isSome := by
  obtain ⟨s, hs, hn⟩ := List.mem_map.1 c.creation_mem
  exact List.find?_isSome.2 ⟨s, hs, by simp [hn]⟩

def creationSignature (c : Catalog) : Signature :=
  (c.get? c.creation).get c.get?_creation_isSome

def signaturesMember : Member (List Signature) :=
  .required "signatures" "signatures" (.tuple Signature.form)
def creationMember : Member Text := .required "creation" "creation" .text

def title : Text := "SignatureCatalog"

def check (parts : List Signature × Text) : Checked Catalog :=
  match make? parts.1 parts.2 with
  | .ok c => .ok c
  | .error flaw => .refuse (.refused flaw.message)

def form : Form Catalog :=
  .record title
    (fun entries =>
      match Prod.mk <$> signaturesMember.read entries <*> creationMember.read entries with
      | .ok parts => check parts
      | .faulty issues => .faulty issues)
    (fun spelling c =>
      [signaturesMember.write spelling c.signatures, creationMember.write spelling c.creation])

end Catalog

end ApiPrep
