import Stevedore.Artifact
import Stevedore.Error
import Stevedore.Service.Settings

/-! Declared settings completed for one deployment. -/
namespace Stevedore

namespace Service

def address (name namespaceName : String) : String := name ++ "." ++ namespaceName

def imageFor (s : Service) (artifacts : ArtifactSource) (deployment : String) :
    Except DeployError String :=
  match artifacts.image? deployment s.artifactName with
  | some image => .ok image.text
  | none => .error (.missingArtifactVersion s.artifactName deployment)

end Service

namespace Settings

def javaOptionsName : String := "JAVA_OPTS"

/-- Options that fit the heap to the memory of the container. -/
def javaOptions : String :=
  "-XX:+UnlockExperimentalVMOptions -XX:+UseCGroupMemoryLimitForHeap -XX:MaxRAMFraction=2"

/-- Adds a variable unless it is set. -/
def withDefaultVariable (env : Table String) (name value : String) : Table String :=
  if env.contains name then env else env.insert name value

/-- Fills in location, image and Java options where they are not declared, and the address. -/
def complete (declared : Settings) (artifacts : ArtifactSource) (service : Service)
    (deployment location : String) : Except DeployError Settings := do
  let location := declared.location.getD location
  let artifactId ← match declared.artifactId with
    | some id => .ok id
    | none => service.imageFor artifacts deployment
  return { declared with
    location := some location
    address := some (Service.address service.canonicalName location)
    artifactId := some artifactId
    env := if service.runsOnJvm then withDefaultVariable declared.env javaOptionsName javaOptions
      else declared.env }

end Settings
end Stevedore
