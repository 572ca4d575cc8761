import Stevedore.Proofs.Digest.Base64
import Stevedore.Proofs.SecretReferences

/-!
What bundles hold. The contents of a bundle stand under the last component of each destination: of
pairs with one key the last is held, under that key, and the others are lost.
-/
namespace Stevedore

theorem Table.length_entries_iff {α : Type} {t : Table α} {names : List String}
    (same : ∀ key, (t.get? key).isSome ↔ key ∈ names) :
    t.entries.length = names.length ↔ names.Nodup := by
  have members (key : String) : key ∈ t.keys ↔ key ∈ names := by
    rw [← same, Option.isSome_iff_exists, Table.keys, List.mem_map]
    constructor
    · rintro ⟨e, member, rfl⟩
      exact ⟨e.2, mem_entries_iff.mp member⟩
    · rintro ⟨v, found⟩
      exact ⟨(key, v), mem_entries_iff.mpr found, rfl⟩
  have length : t.entries.length = t.keys.length := List.length_map _ |>.symm
  rw [length]
  constructor
  · intro equal
    have inside : t.keys.Subperm names := t.keys_nodup.subperm fun key => (members key).mp
    exact (inside.perm_of_length_le equal.ge).nodup_iff.mp t.keys_nodup
  · intro distinct
    exact ((List.perm_ext_iff_of_nodup t.keys_nodup distinct).mpr members).length_eq

namespace SecretStore
variable {tree : File.Tree} {request : BundleRequest} {pairs : List MountPair}
  {files : List StagedFile}

/-- The contents of the last file with each key. -/
theorem get?_data (files : List StagedFile) (key : String) :
    (data files).get? key =
      (files.reverse.find? fun f => f.pair.fileName = key).map fun f => Digest.base64 f.bytes := by
  rw [data, Table.get?_ofList, ← List.map_reverse]
  induction files.reverse with
  | nil => rfl
  | cons f rest ih =>
    rw [List.map_cons, Table.lookup_cons_eq, List.find?_cons, ih]
    by_cases same : f.pair.fileName = key
    · simp [same]
    · simp [same, Ne.symm same]

/-- The file is the pair with what its source holds. -/
def ReadFrom (tree : File.Tree) (p : MountPair) (f : StagedFile) : Prop :=
  f.pair = p ∧ tree.read p.source = .ok f.bytes

theorem readOne_ok {p : MountPair} {f : StagedFile} :
    readOne tree p = .ok f ↔ ReadFrom tree p f := by
  rw [readOne, ReadFrom]
  cases tree.read p.source with
  | error fault => simp
  | ok bytes =>
    obtain ⟨pair, held⟩ := f
    simp [eq_comm]

theorem keys_read (read : List.Forall₂ (ReadFrom tree) pairs files) :
    files.map (fun f => f.pair.fileName) = pairs.map MountPair.fileName := by
  induction read with
  | nil => rfl
  | cons first others ih => rw [List.map_cons, List.map_cons, ih, first.1]

theorem find?_read (read : List.Forall₂ (ReadFrom tree) pairs files) (key : String) :
    Option.Rel (ReadFrom tree) (pairs.find? fun p => p.fileName = key)
      (files.find? fun f => f.pair.fileName = key) := by
  induction read with
  | nil => exact .none
  | cons first others ih =>
    rw [List.find?_cons, List.find?_cons, first.1]
    split
    · exact .some first
    · exact ih

/-- Under a key stands, in base 64, what the source of the last pair with that key holds. -/
theorem unbase64?_data (read : List.Forall₂ (ReadFrom tree) pairs files) (key : String) :
    ((data files).get? key).bind Digest.unbase64? =
      (pairs.reverse.find? fun p => p.fileName = key).bind fun p =>
        (tree.read p.source).toOption := by
  have last := find?_read (List.rel_reverse read) key
  rw [get?_data]
  generalize pairs.reverse.find? (fun p => p.fileName = key) = pair at last ⊢
  generalize files.reverse.find? (fun f => f.pair.fileName = key) = file at last ⊢
  cases last with
  | none => rfl
  | some held => simp [Digest.unbase64?_base64, held.2, Except.toOption]

/-- What a store records of a request: the keys of its pairs in order, and a manifest whose data
hold for each key the contents of the last pair that has it. -/
structure Recorded (tree : File.Tree) (request : BundleRequest) (s : Secret)
    (data : Table String) : Prop where
  destination : s.namespaceName = request.namespaceName ∧ s.service = request.service
  files : s.files = request.files.map MountPair.fileName
  manifest : ∃ m, s.manifest = Yaml.print m ∧ m.get? "data" = some (.textTable data)
  keys : ∀ key, (data.get? key).isSome ↔ key ∈ s.files
  last : ∀ key, (data.get? key).bind Digest.unbase64? =
    (request.files.reverse.find? fun p => p.fileName = key).bind fun p =>
      (tree.read p.source).toOption

theorem recorded_secret (read : List.Forall₂ (ReadFrom tree) request.files files) :
    Recorded tree request (secret request files) (data files) := by
  refine ⟨⟨rfl, rfl⟩, keys_read read, ⟨_, rfl, rfl⟩, fun key => ?_, unbase64?_data read⟩
  change _ ↔ key ∈ files.map fun f => f.pair.fileName
  rw [get?_data, Option.isSome_map, List.find?_isSome, List.mem_map]
  simp

/-- The data have the bytes of the pair's source under the name of its destination. -/
def Holds (tree : File.Tree) (data : Table String) (p : MountPair) : Prop :=
  ∃ bytes, tree.read p.source = .ok bytes ∧
    (data.get? p.fileName).bind Digest.unbase64? = some bytes

theorem holds_iff {s : Secret} {data : Table String} (recorded : Recorded tree request s data)
    (readable : Staging.Readable tree request.files) :
    (∀ p ∈ request.files, Holds tree data p) ↔
      ∀ p ∈ request.files, ∀ q ∈ request.files, p.fileName = q.fileName →
        tree.read p.source = tree.read q.source := by
  constructor
  · intro held p first q second same
    obtain ⟨bytes, read, under⟩ := held p first
    obtain ⟨bytes', read', under'⟩ := held q second
    rw [same, under'] at under
    rw [read, read', Option.some.inj under]
  · intro agree p member
    obtain ⟨q, found⟩ : ∃ q, request.files.reverse.find? (fun q => q.fileName = p.fileName) = some q :=
      Option.isSome_iff_exists.mp (List.find?_isSome.mpr ⟨p, by simpa using member, by simp⟩)
    have later : q ∈ request.files := by simpa using List.mem_of_find?_eq_some found
    have same : q.fileName = p.fileName := by simpa using List.find?_some found
    have isOk := readable.2 p member
    cases read : tree.read p.source with
    | error fault => simp [read, Except.isOk, Except.toBool] at isOk
    | ok bytes =>
      refine ⟨bytes, read, ?_⟩
      rw [recorded.last, found, Option.bind_some, agree q later p member same, read]
      rfl

/-- A bundle of readable files is always made and recorded under its name. It holds every pair it was
given just if pairs with one key have the same contents, and as many entries as pairs just if no key
is given twice. -/
theorem bundle_holds_iff (tree : File.Tree) (request : BundleRequest)
    (readable : Staging.Readable tree request.files) (state : SecretState) :
    ∃ s data, create tree request state = (.ok s.name, state.insert s.name s) ∧
      Recorded tree request s data ∧
      ((∀ p ∈ request.files, Holds tree data p) ↔
        ∀ p ∈ request.files, ∀ q ∈ request.files, p.fileName = q.fileName →
          tree.read p.source = tree.read q.source) ∧
      (data.entries.length = request.files.length ↔
        (request.files.map MountPair.fileName).Nodup) := by
  obtain ⟨s, made⟩ := Staging.made_of_readable readable
  obtain ⟨files, read, rfl⟩ := files_of_made made
  have each := (except_mapM_forall₂ read).imp fun _ _ => readOne_ok.mp
  have recorded := recorded_secret each
  refine ⟨_, _, ?_, recorded, holds_iff recorded readable, ?_⟩
  · rw [create_eq, answer, written, made]
    rfl
  · have count := Table.length_entries_iff recorded.keys
    rwa [recorded.files, List.length_map] at count

end SecretStore

section Namesakes
open SecretStore

def namesakeTree : File.Tree :=
  { entries := [(["a"], .directory), (["a", "cert.pem"], .file [120]), (["b"], .directory),
      (["b", "cert.pem"], .file [121])]
    workingDirectory := [] }

/-- Two files of one name from different directories. -/
def namesakes : BundleRequest :=
  { account := .empty, namespaceName := "default", service := "web", stem := "web-files",
    files := [.verbatim "a/cert.pem", .verbatim "b/cert.pem"] }

theorem namesakes_bundle_holds_iff : Staging.Readable namesakeTree namesakes.files ∧
    ∃ s data, create namesakeTree namesakes .empty = (.ok s.name, Table.empty.insert s.name s) ∧
      Recorded namesakeTree namesakes s data ∧
      ((∀ p ∈ namesakes.files, Holds namesakeTree data p) ↔
        ∀ p ∈ namesakes.files, ∀ q ∈ namesakes.files, p.fileName = q.fileName →
          namesakeTree.read p.source = namesakeTree.read q.source) ∧
      (data.entries.length = namesakes.files.length ↔
        (namesakes.files.map MountPair.fileName).Nodup) := by
  have readable : Staging.Readable namesakeTree namesakes.files := by decide +kernel
  exact ⟨readable, bundle_holds_iff namesakeTree namesakes readable .empty⟩

/-- Both files are listed, but only the second one is held. -/
theorem namesake_lost : Staging.Readable namesakeTree namesakes.files ∧
    ∃ files, namesakes.files.mapM (readOne namesakeTree) = .ok files ∧
      create namesakeTree namesakes .empty = (.ok (secret namesakes files).name,
        Table.empty.insert (secret namesakes files).name (secret namesakes files)) ∧
      (secret namesakes files).files = ["cert.pem", "cert.pem"] ∧
      (data files).entries.length = 1 ∧
      ¬ ∀ p ∈ namesakes.files, Holds namesakeTree (data files) p := by
  have readable : Staging.Readable namesakeTree namesakes.files := by decide +kernel
  have read : namesakes.files.mapM (readOne namesakeTree) =
      .ok [⟨.verbatim "a/cert.pem", [120]⟩, ⟨.verbatim "b/cert.pem", [121]⟩] := rfl
  refine ⟨readable, _, read, ?_, rfl, rfl, fun held => ?_⟩
  · rw [create, read]
    rfl
  · obtain ⟨bytes, first, under⟩ := held (.verbatim "a/cert.pem") List.mem_cons_self
    obtain rfl : [120] = bytes := Except.ok.inj first
    have other : ((data [⟨.verbatim "a/cert.pem", [120]⟩, ⟨.verbatim "b/cert.pem", [121]⟩]).get?
      "cert.pem").bind Digest.unbase64? = some [121] := by decide +kernel
    exact absurd (under.symm.trans other) (by simp)

end Namesakes
end Stevedore
