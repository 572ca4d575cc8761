import Stevedore.Deployment
import Stevedore.File.Tree

/-! Bundles of files that become secrets, and the stores that make them. -/
namespace Stevedore

structure MountPair where
  source : Path
  destination : Path
  deriving DecidableEq

namespace MountPair

/-- A file that is mounted under its own path. -/
def verbatim (path : String) : MountPair := ⟨⟨path⟩, ⟨path⟩⟩

/-- The key of the file in its bundle. -/
def fileName (p : MountPair) : String := p.destination.fileName?.getD p.destination.text

end MountPair

structure BundleRequest where
  account : Account
  namespaceName : String
  service : String
  stem : String
  files : List MountPair
  deriving DecidableEq

inductive StoreError where
  | emptyBundle (stem : String)
  | readFailed (path : Path) (fault : File.Fault)
  deriving DecidableEq

/-- A store answers a request with the name of the bundle, and changes its state. -/
structure BundleStore (σ : Type) where
  create : BundleRequest → σ → Except StoreError String × σ

namespace BundleStore

/-- A store that keeps the requests and numbers its bundles. -/
def recording : BundleStore (List BundleRequest) :=
  { create := fun request seen =>
      (.ok (request.stem ++ "-" ++ toString (seen.length + 1)), seen ++ [request]) }

end BundleStore
end Stevedore
