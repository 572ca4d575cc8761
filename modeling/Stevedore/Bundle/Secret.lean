import Stevedore.Bundle.Basic
import Stevedore.Digest
import Stevedore.File.Tree
import Stevedore.Text.Basic
import Stevedore.Yaml.Printer

/-! A store that makes secret manifests from files and names them by their contents. -/
namespace Stevedore

structure Secret where
  name : String
  namespaceName : String
  service : String
  /-- The keys of the files, in the order they were given. -/
  files : List String
  manifest : String
  deriving DecidableEq

structure StagedFile where
  pair : MountPair
  bytes : List UInt8

abbrev SecretState := Table Secret

namespace SecretStore

def readOne (tree : File.Tree) (pair : MountPair) : Except StoreError StagedFile :=
  match tree.read pair.source with
  | .ok bytes => .ok ⟨pair, bytes⟩
  | .error fault => .error (.readFailed pair.source fault)

/-- What the name of a bundle depends on: for each file its path, a zero byte and its contents. -/
def fingerprint (files : List StagedFile) : List UInt8 :=
  files.flatMap fun f => f.pair.destination.text.toUTF8.toList ++ 0 :: f.bytes

def digestDigits : Nat := 10

def bundleName (stem : String) (files : List StagedFile) : String :=
  stem ++ "-" ++
    String.ofList ((Text.hexBytes (Digest.Sha256.digest (fingerprint files))).take digestDigits)

/-- The contents in base 64 by key; of two files with one key the last is kept. -/
def data (files : List StagedFile) : Table String :=
  Table.ofList (files.map fun f => (f.pair.fileName, Digest.base64 f.bytes))

def manifest (request : BundleRequest) (name : String) (files : List StagedFile) : Json :=
  .record [("apiVersion", .text "v1"), ("kind", .text "Secret"),
    ("metadata", .record [("name", .text name), ("namespace", .text request.namespaceName),
      ("labels", .record [("app", .text request.service),
        ("app.kubernetes.io/managed-by", .text "fleetyard")])]),
    ("type", .text "Opaque"), ("data", .textTable (data files))]

def secret (request : BundleRequest) (files : List StagedFile) : Secret :=
  let name := bundleName request.stem files
  { name, namespaceName := request.namespaceName, service := request.service,
    files := files.map fun f => f.pair.fileName,
    manifest := Yaml.print (manifest request name files) }

/-- Reads all files before anything is recorded. -/
def create (tree : File.Tree) (request : BundleRequest) (state : SecretState) :
    Except StoreError String × SecretState :=
  if request.files.isEmpty then (.error (.emptyBundle request.stem), state)
  else
    match request.files.mapM (readOne tree) with
    | .error e => (.error e, state)
    | .ok files =>
      let s := secret request files
      (.ok s.name, state.insert s.name s)

def secretsFor (state : SecretState) (service : String) : List Secret :=
  state.values.filter fun s => s.service = service

end SecretStore

namespace BundleStore

def secrets (tree : File.Tree) : BundleStore SecretState := { create := SecretStore.create tree }

end BundleStore
end Stevedore
