import Stevedore.Json.Document

/-! Operator overrides of resources and replicas. -/
namespace Stevedore

/-- Quantities are kept as they were given. -/
structure Sizing where
  requests : Table Json
  limits : Table Json
  replicas : Option UInt32

namespace Sizing

def encode (s : Sizing) : Json :=
  .record ([("requests", .ofTable s.requests), ("limits", .ofTable s.limits)] ++
    Json.field? "replicas" (fun n => .integer n.toNat) s.replicas)

def decode? {δ : Type} [Document δ] (d : δ) : Option Sizing := do
  let fields ← Document.fields? ["requests", "limits", "replicas"] d
  let requests ← Document.defaulted? fields "requests" .empty (Document.tableOf? Document.json?)
  let limits ← Document.defaulted? fields "limits" .empty (Document.tableOf? Document.json?)
  let replicas ← Document.optional? fields "replicas" Document.natural32?
  return { requests, limits, replicas }

end Sizing

/-- Sizing by the name of a container or the type of a service. -/
abbrev SizingTable := Table Sizing

namespace SizingTable

/-- A container's own entry comes before the one of its service's type. -/
def lookup (t : SizingTable) (container serviceType : String) : Option Sizing :=
  (t.get? container).or (t.get? serviceType)

def replicas (t : SizingTable) (serviceType : String) : Option UInt32 :=
  (t.get? serviceType).bind (·.replicas)

def encode (t : SizingTable) : Json := .ofTable (t.mapValues Sizing.encode)

def decode? {δ : Type} [Document δ] (d : δ) : Option SizingTable :=
  Document.tableOf? Sizing.decode? d

end SizingTable
end Stevedore
