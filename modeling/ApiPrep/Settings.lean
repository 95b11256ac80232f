import ApiPrep.Naming.FileNames
import ApiPrep.Promotion.Detect
import ApiPrep.Record.Form

namespace ApiPrep

open Record

structure Settings where
  kebabFileNaming : Bool := true
  modelPackage : Text := "model"
  apiPackage : Text := "api"
  apiPathLead : Text := "/Api"
  creationPathEnding : Text := "/Add"
  envelopeTypes : List Text := ["Datahistory", "GridApiResponse"]
  catalogFile : Option Text := none
  outputFormat : Text := "auto"
deriving DecidableEq, Repr, Inhabited

namespace Settings

def outputFormats : List Text := ["auto", "json", "plain", "rich"]

def setting {α : Type} (name : Text) (form : Form α) (absent : α) : Member α :=
  .orElse name name form absent

def kebabFileNamingMember : Member Bool := setting "kebab_file_naming" .flag true
def modelPackageMember : Member Text := setting "model_package" .text "model"
def apiPackageMember : Member Text := setting "api_package" .text "api"
def apiPathLeadMember : Member Text := setting "api_path_prefix" .text "/Api"
def creationPathEndingMember : Member Text := setting "creation_path_suffix" .text "/Add"
def envelopeTypesMember : Member (List Text) :=
  setting "envelope_types" (.list .text) ["Datahistory", "GridApiResponse"]
def catalogFileMember : Member (Option Text) := setting "catalog_file" (.optional .text) none
def outputFormatMember : Member Text := setting "output_format" (.word outputFormats) "auto"

def title : Text := "NormalizerConfig"

def form : Form Settings :=
  .record title
    (fun entries =>
      Settings.mk <$> kebabFileNamingMember.read entries <*> modelPackageMember.read entries
        <*> apiPackageMember.read entries <*> apiPathLeadMember.read entries
        <*> creationPathEndingMember.read entries <*> envelopeTypesMember.read entries
        <*> catalogFileMember.read entries <*> outputFormatMember.read entries)
    (fun spelling s =>
      [kebabFileNamingMember.write spelling s.kebabFileNaming,
        modelPackageMember.write spelling s.modelPackage,
        apiPackageMember.write spelling s.apiPackage,
        apiPathLeadMember.write spelling s.apiPathLead,
        creationPathEndingMember.write spelling s.creationPathEnding,
        envelopeTypesMember.write spelling s.envelopeTypes,
        catalogFileMember.write spelling s.catalogFile,
        outputFormatMember.write spelling s.outputFormat])

def fileNames (s : Settings) : Naming.FileNames :=
  ⟨s.kebabFileNaming, s.modelPackage, s.apiPackage⟩

def affixes (s : Settings) : Promotion.Affixes := ⟨s.apiPathLead, s.creationPathEnding⟩

end Settings

end ApiPrep
