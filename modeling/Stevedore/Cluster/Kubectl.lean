import Stevedore.Error
import Stevedore.Service.Basic

/-! Commands that reach a service's pod from outside the cluster. -/
namespace Stevedore

structure Kubectl where
  binary : String
  account : Account
  deriving DecidableEq

namespace Kubectl

def defaultBinary : String := "kubectl"

/-- An option with a value that is not empty. -/
def option (flag : String) (value : Option String) : List String :=
  match value with
  | some v => if v.isEmpty then [] else [flag, v]
  | none => []

def base (k : Kubectl) (namespaceName : String) : List String :=
  [k.binary] ++ option "--kubeconfig" k.account.kubeconfig ++
    option "--context" k.account.context ++ ["-n", namespaceName]

def podLookup (k : Kubectl) (namespaceName service : String) : List String :=
  k.base namespaceName ++ ["get", "pods", "-l", "cluster=" ++ service,
    "-o=jsonpath='\x7b.items[0].metadata.name\x7d'"]

def podConnect (k : Kubectl) (namespaceName pod : String) (port : Nat) : List String :=
  k.base namespaceName ++ ["port-forward", pod, toString port]

def joined (words : List String) : String := String.intercalate " " words

def connect (k : Kubectl) (service : Service) (resolved : Resolved) :
    Except DeployError String :=
  match resolved.settingsOf? service with
  | none => .error (.missingSettings service.canonicalName)
  | some settings =>
    let space := settings.namespaceName
    let pod := "$(" ++ joined (k.podLookup space service.canonicalName) ++ ")"
    .ok (joined (k.podConnect space pod settings.port.toNat))

end Kubectl
end Stevedore
