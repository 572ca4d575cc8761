import Stevedore.Artifact
import Stevedore.Sidecar.Attached
import Stevedore.Yaml.Document
import Stevedore.Yaml.Printer

/-! What a deployment file declares, and how it is written down and read. -/
namespace Stevedore

/-- Someone who takes part in a deployment, with declared settings and profiles. -/
structure Entry (α : Type) where
  subject : α
  settings : Settings
  profiles : List Profile
  deriving DecidableEq

namespace Entry
variable {α β : Type}

def map (f : α → β) (e : Entry α) : Entry β := { e with subject := f e.subject }

def ownFields : List String := ["settings", "profiles"]

/-- The fields of the subject stand beside the entry's own. -/
def encode (subjectFields : α → List (String × Json)) (e : Entry α) : Json :=
  .record (subjectFields e.subject ++
    [("settings", e.settings.encode), ("profiles", .list (e.profiles.map Profile.encode))])

/-- All fields but the entry's own are set aside for the subject. -/
def decode? {δ : Type} [Document δ] (subject? : Json → Option α) (d : δ) : Option (Entry α) := do
  let fields ← Document.sharedFields? ownFields d
  let settings ← Document.required? fields "settings" Settings.decode?
  let profiles ← Document.defaulted? fields "profiles" [] (Document.listOf? Profile.decode?)
  let subject ← (Document.others? ownFields fields).bind subject?
  return { subject, settings, profiles }

end Entry

structure Declaration where
  name : String
  version : String
  stagingRoot : Option Path
  location : String
  account : Account
  artifacts : Catalog
  monitoring : Option (Entry SidecarService)
  services : List (Entry Service)
  environment : Environment

namespace Declaration

/-- The services and after them the monitoring sidecar. -/
def entries (d : Declaration) : List (Entry Service) :=
  d.services ++ d.monitoring.toList.map (Entry.map SidecarService.service)

def encode (d : Declaration) : Json :=
  .record ([("name", .text d.name), ("version", .text d.version)] ++
    Json.field? "stagingRoot" (fun p => .text p.text) d.stagingRoot ++
    [("location", .text d.location), ("account", d.account.encode),
      ("artifacts", d.artifacts.encode)] ++
    Json.field? "monitoring" (Entry.encode SidecarService.encodeFields) d.monitoring ++
    [("services", .list (d.services.map (Entry.encode Service.encodeFields))),
      ("environment", d.environment.encode)])

def fieldNames : List String :=
  ["name", "version", "stagingRoot", "location", "account", "artifacts", "monitoring", "services",
    "environment"]

def decode? {δ : Type} [Document δ] (d : δ) : Option Declaration := do
  let fields ← Document.fields? fieldNames d
  let name ← Document.required? fields "name" Document.text?
  let version ← Document.defaulted? fields "version" "" Document.text?
  let stagingRoot ← Document.optional? fields "stagingRoot" Document.text?
  let location ← Document.defaulted? fields "location" Settings.defaultNamespace Document.text?
  let account ← Document.defaulted? fields "account" .empty Account.decode?
  let artifacts ← Document.defaulted? fields "artifacts" .empty Catalog.decode?
  let monitoring ← Document.optional? fields "monitoring" (Entry.decode? SidecarService.decode?)
  let services ← Document.defaulted? fields "services" []
    (Document.listOf? (Entry.decode? Service.decode?))
  let environment ← Document.defaulted? fields "environment" .empty Environment.decode?
  return { name, version, stagingRoot := stagingRoot.map Path.mk, location, account, artifacts,
           monitoring, services, environment }

def ofYaml? (text : String) : Option Declaration := (Yaml.view? text).bind decode?

def toYaml (d : Declaration) : String := Yaml.print d.encode

end Declaration
end Stevedore
