import Stevedore.ConfigSource
import Stevedore.Sidecar.Custom

/-! Pods and their containers. -/
namespace Stevedore

structure VolumeMount where
  name : String
  mountPath : String
  deriving DecidableEq

inductive Probe where
  | exec (command : List String)
  | tcp (port : UInt16)
  deriving DecidableEq

structure Resources where
  requests : Table Json
  limits : Table Json

structure Container where
  name : String
  image : Option String
  port : Option UInt16
  command : List String
  args : List String
  volumeMounts : List VolumeMount
  probe : Option Probe
  preStop : Option (List String)
  env : Table String
  resources : Option Resources
  securityContext : Option SecurityContext

/-- Entries of other types are texts that go into the manifest as they are; without a list the
section is left out. -/
structure Pod where
  containers : List Container
  initContainers : Option (List String)
  hostAliases : Option (List String)
  imagePullSecrets : List String
  gracePeriod : UInt32
  volumes : List ConfigSource

end Stevedore
