import Stevedore.ConfigSource

/-! How a service runs in one deployment. -/
namespace Stevedore

structure PodExtras where
  imagePullSecrets : List String
  volumes : List ConfigSource
  annotations : Table String
  deriving DecidableEq

namespace PodExtras

def none : PodExtras := { imagePullSecrets := [], volumes := [], annotations := .empty }

def encode (k : PodExtras) : Json :=
  .record [("imagePullSecrets", .texts k.imagePullSecrets),
    ("volumes", .list (k.volumes.map ConfigSource.encode)),
    ("podAnnotations", .textTable k.annotations)]

def decode? {δ : Type} [Document δ] (d : δ) : Option PodExtras := do
  let fields ← Document.fields? ["imagePullSecrets", "volumes", "podAnnotations"] d
  let imagePullSecrets ← Document.defaulted? fields "imagePullSecrets" []
    (Document.listOf? Document.text?)
  let volumes ← Document.defaulted? fields "volumes" [] (Document.listOf? ConfigSource.decode?)
  let annotations ← Document.defaulted? fields "podAnnotations" .empty Document.textTable?
  return { imagePullSecrets, volumes, annotations }

end PodExtras

structure Settings where
  port : UInt16
  address : Option String
  scheme : String
  healthPath : Option String
  /-- The count of replicas where sizing gives none. -/
  targetSize : UInt32
  env : Table String
  enabled : Bool
  monitored : Bool
  artifactId : Option String
  location : Option String
  extras : PodExtras
  deriving DecidableEq

namespace Settings

def defaultNamespace : String := "default"

def namespaceName (s : Settings) : String := s.location.getD defaultNamespace

/-- An empty path is no health endpoint. -/
def healthEndpoint (s : Settings) : Option String := s.healthPath.filter fun path => !path.isEmpty

/-- A readiness check of the service's own health endpoint. -/
def readinessCommand (s : Settings) (endpoint : String) : List String :=
  ["wget", "--no-check-certificate", "--spider", "-q",
    s.scheme ++ "://localhost:" ++ toString s.port.toNat ++ endpoint]

def encode (s : Settings) : Json :=
  .record ([("port", .integer s.port.toNat)] ++ Json.field? "address" .text s.address ++
    [("scheme", .text s.scheme)] ++ Json.field? "healthEndpoint" .text s.healthPath ++
    [("targetSize", .integer s.targetSize.toNat), ("env", .textTable s.env),
      ("enabled", .bool s.enabled), ("monitored", .bool s.monitored)] ++
    Json.field? "artifactId" .text s.artifactId ++ Json.field? "location" .text s.location ++
    [("kubernetes", s.extras.encode)])

def fieldNames : List String :=
  ["port", "address", "scheme", "healthEndpoint", "targetSize", "env", "enabled", "monitored",
    "artifactId", "location", "kubernetes"]

def decode? {δ : Type} [Document δ] (d : δ) : Option Settings := do
  let fields ← Document.fields? fieldNames d
  let port ← Document.required? fields "port" Document.natural16?
  let address ← Document.optional? fields "address" Document.text?
  let scheme ← Document.defaulted? fields "scheme" "http" Document.text?
  let healthPath ← Document.optional? fields "healthEndpoint" Document.text?
  let targetSize ← Document.defaulted? fields "targetSize" 1 Document.natural32?
  let env ← Document.defaulted? fields "env" .empty Document.textTable?
  let enabled ← Document.defaulted? fields "enabled" true Document.flag?
  let monitored ← Document.defaulted? fields "monitored" false Document.flag?
  let artifactId ← Document.optional? fields "artifactId" Document.text?
  let location ← Document.optional? fields "location" Document.text?
  let extras ← Document.defaulted? fields "kubernetes" PodExtras.none PodExtras.decode?
  return { port, address, scheme, healthPath, targetSize, env, enabled, monitored, artifactId,
           location, extras }

end Settings
end Stevedore
