import Stevedore.Declaration.Basic
import Stevedore.Text.Basic

/-!
The rules for declarations that do not follow from their form. Of several violations the first
counts: the name, then the entries in order, then the sidecars by service type and in order.
-/
namespace Stevedore

inductive Violation where
  | blankName
  | blankService
  | zeroPort (service : String)
  | repeatedService (service : String)
  | repeatedType (serviceType : String)
  /-- A sidecar has the name of a container that a service brings along. -/
  | collision (sidecar serviceType : String)
  | repeatedSidecar (sidecar serviceType : String)
  deriving DecidableEq

def Violation.reason : Violation → String
  | .blankName => "deployment name must not be empty"
  | .blankService => "service canonicalName must not be empty"
  | .zeroPort service => "service " ++ service ++ " must declare a non-zero port"
  | .repeatedService service => "service " ++ service ++ " is declared more than once"
  | .repeatedType serviceType => "service type " ++ serviceType ++ " is declared more than once"
  | .collision sidecar serviceType =>
    "sidecar " ++ sidecar ++ " of " ++ serviceType ++ " collides with a service container name"
  | .repeatedSidecar sidecar serviceType =>
    "sidecar " ++ sidecar ++ " is declared more than once for " ++ serviceType

def Violation.message (v : Violation) : String := "Invalid deployment file: " ++ v.reason

namespace Declaration

/-- What is wrong with a service and its settings, after services with the given names and types. -/
def entryViolation? (names types : List String) (e : Entry Service) : Option Violation :=
  let service := e.subject
  if Text.isBlankText service.canonicalName then some .blankService
  else if e.settings.port = 0 then some (.zeroPort service.canonicalName)
  else if service.canonicalName ∈ names then some (.repeatedService service.canonicalName)
  else if service.serviceType ∈ types then some (.repeatedType service.serviceType)
  else none

def entriesViolation? (names types : List String) : List (Entry Service) → Option Violation
  | [] => none
  | e :: rest =>
    (entryViolation? names types e).or
      (entriesViolation? (e.subject.canonicalName :: names) (e.subject.serviceType :: types) rest)

/-- The names of the containers that services bring to the pods of a service type. -/
def reservedNames (d : Declaration) (serviceType : String) : List String :=
  ((d.services.filter fun e => e.subject.serviceType = serviceType).map
      (·.subject.canonicalName)) ++
    d.monitoring.toList.map (·.subject.service.canonicalName)

def sidecarsViolation? (reserved : List String) (serviceType : String) (seen : List String) :
    List CustomSidecar → Option Violation
  | [] => none
  | s :: rest =>
    if s.name ∈ reserved then some (.collision s.name serviceType)
    else if s.name ∈ seen then some (.repeatedSidecar s.name serviceType)
    else sidecarsViolation? reserved serviceType (s.name :: seen) rest

def violation? (d : Declaration) : Option Violation :=
  if Text.isBlankText d.name then some .blankName
  else
    (entriesViolation? [] [] d.entries).or
      (d.environment.sidecars.entries.findSome? fun (serviceType, sidecars) =>
        sidecarsViolation? (d.reservedNames serviceType) serviceType [] sidecars)

end Declaration
end Stevedore
