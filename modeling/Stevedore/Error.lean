import Stevedore.Bundle.Basic
import Stevedore.Template.Set
import Stevedore.Text.Quoted

/-! Why manifests could not be made, and how that is told. -/
namespace Stevedore

def StoreError.message : StoreError → String
  | .emptyBundle stem => "Secret bundle for " ++ stem ++ " has no files"
  | .readFailed path fault =>
    "Failed to read staged file " ++ Text.quoted path.text ++ ": " ++ fault.message

inductive DeployError where
  | sidecarProfileMissing (sidecar service profile : String)
  | missingSettings (service : String)
  | missingArtifactVersion (artifact deployment : String)
  | store (error : StoreError)
  | template (error : TemplateError)
  deriving DecidableEq

namespace DeployError

def message : DeployError → String
  | .sidecarProfileMissing sidecar service profile =>
    "Service " ++ sidecar ++ " is required but was not supplied for deployment of " ++ service ++
      " (missing profile '" ++ profile ++ "')"
  | .missingSettings service => "No settings were resolved for service " ++ service
  | .missingArtifactVersion artifact deployment =>
    "No version is available for artifact " ++ artifact ++ " in deployment " ++ deployment
  | .store e => e.message
  | .template e => e.message

/-- The message and those of its causes, which it repeats. -/
def chain (e : DeployError) : List String :=
  match e with
  | .store (.readFailed _ fault) => [e.message, fault.message]
  | _ => [e.message]

end DeployError
end Stevedore
