import Stevedore.Json.Document

/-! The identity of a deployable service and the fixed traits of its image. -/
namespace Stevedore

structure Service where
  /-- The name of its deployment, its primary container and its address. -/
  canonicalName : String
  /-- The key under which everything else about the service is declared. -/
  serviceType : String
  artifactName : String
  runsOnJvm : Bool
  gracePeriod : UInt32
  preStop : Bool
  shutdownScript : String
  deriving DecidableEq

namespace Service

def defaultGracePeriod : UInt32 := 60

def defaultShutdownScript : String := "/opt/spinnaker/scripts/shutdown.sh"

/-- A service with the usual traits. -/
def named (canonicalName serviceType artifactName : String) : Service :=
  { canonicalName, serviceType, artifactName, runsOnJvm := true,
    gracePeriod := defaultGracePeriod, preStop := false,
    shutdownScript := defaultShutdownScript }

/-- What runs before the service stops; nothing unless the service opts in. -/
def preStopCommand (s : Service) : List String :=
  if s.preStop then ["bash", s.shutdownScript] else []

def fieldNames : List String :=
  ["canonicalName", "serviceType", "artifactName", "runsOnJvm", "terminationGracePeriodSeconds",
    "preStop", "shutdownScript"]

def encodeFields (s : Service) : List (String × Json) :=
  [("canonicalName", .text s.canonicalName), ("serviceType", .text s.serviceType),
    ("artifactName", .text s.artifactName), ("runsOnJvm", .bool s.runsOnJvm),
    ("terminationGracePeriodSeconds", .integer s.gracePeriod.toNat),
    ("preStop", .bool s.preStop), ("shutdownScript", .text s.shutdownScript)]

def encode (s : Service) : Json := .record s.encodeFields

def decode? {δ : Type} [Document δ] (d : δ) : Option Service := do
  let fields ← Document.fields? fieldNames d
  let canonicalName ← Document.required? fields "canonicalName" Document.text?
  let serviceType ← Document.required? fields "serviceType" Document.text?
  let artifactName ← Document.required? fields "artifactName" Document.text?
  let runsOnJvm ← Document.defaulted? fields "runsOnJvm" true Document.flag?
  let gracePeriod ← Document.defaulted? fields "terminationGracePeriodSeconds" defaultGracePeriod
    Document.natural32?
  let preStop ← Document.defaulted? fields "preStop" false Document.flag?
  let shutdownScript ← Document.defaulted? fields "shutdownScript" defaultShutdownScript
    Document.text?
  return { canonicalName, serviceType, artifactName, runsOnJvm, gracePeriod, preStop,
           shutdownScript }

end Service
end Stevedore
