import Stevedore.Command.Render
import Stevedore.Proofs.File.Directory
import Stevedore.Proofs.Fingerprint
import Mathlib.Data.List.Nodup
import Mathlib.Data.List.Pairwise

/-!
Manifests and secrets that are written to a directory, compared with what is printed of them. All
services write into one directory, and the secrets of one may have the name of another's manifests.
-/
namespace Stevedore

namespace Step
variable {α β : Type} {s s' : Session}

/-- How a part of a command ends that starts in a session, and the session it leaves. -/
def outcome (x : Step α) (s : Session) : Except Failure α × Session := x.run s

theorem outcome_bind_ok {first : Step α} {next : α → Step β} {result : β} :
    outcome (first >>= next) s = (.ok result, s') ↔
      ∃ value t, outcome first s = (.ok value, t) ∧ outcome (next value) t = (.ok result, s') :=
  run_bind_ok

theorem outcome_pure_ok {value result : α} :
    outcome (pure value : Step α) s = (.ok result, s') ↔ value = result ∧ s = s' := by
  change ((Except.ok value : Except Failure α), s) = (.ok result, s') ↔ _
  simp

theorem outcome_change_ok {circumstance : String}
    {f : File.Tree → Except File.Fault File.Tree} :
    outcome (change circumstance f) s = (.ok (), s') ↔
      ∃ tree, f s.tree = .ok tree ∧ s' = { s with tree } := by
  unfold change
  simp only [outcome_bind_ok]
  constructor
  · rintro ⟨_, _, got, tree, _, made, set_⟩
    cases got
    cases result : f s.tree with
    | error fault =>
      rw [result] at made
      cases made
    | ok changed =>
      rw [result] at made
      cases made
      cases set_
      exact ⟨tree, rfl, rfl⟩
  · rintro ⟨tree, made, rfl⟩
    exact ⟨s, s, rfl, tree, s, by rw [made]; rfl, rfl⟩

end Step

namespace Rendering
variable {secrets : List Secret} {m n : ServiceManifests} {manifests : List ServiceManifests}

def secretsOf (secrets : List Secret) (m : ServiceManifests) : List Secret :=
  secrets.filter fun s => s.service = m.service

def printed (secrets : List Secret) (m : ServiceManifests) : String :=
  m.stream ++ documents (secretsOf secrets m)

theorem streamOf_eq_printed (state : SecretState) (m : ServiceManifests) :
    streamOf state m = printed state.values m := rfl

def manifestsFile (m : ServiceManifests) : String := m.service ++ ".yml"

def secretsFile (m : ServiceManifests) : String := m.service ++ "-secrets.yml"

/-- The files of a service in the order in which they are written. -/
def filesOf (secrets : List Secret) (m : ServiceManifests) : List (String × List UInt8) :=
  (manifestsFile m, m.stream.toUTF8.toList) ::
    if secretsOf secrets m = [] then []
    else [(secretsFile m, (documents (secretsOf secrets m)).toUTF8.toList)]

/-- The two files of a service hold what is printed for it. -/
def Whole (t : File.Tree) (directory : Path) (secrets : List Secret) (m : ServiceManifests) :
    Prop :=
  t.contents (directory.join (manifestsFile m)) ++ t.contents (directory.join (secretsFile m)) =
    (printed secrets m).toUTF8.toList

instance (t : File.Tree) (directory : Path) (secrets : List Secret) (m : ServiceManifests) :
    Decidable (Whole t directory secrets m) :=
  inferInstanceAs (Decidable (_ = _))

theorem isEmpty_documents_iff (secrets : List Secret) :
    (documents secrets).isEmpty = true ↔ secrets = [] := by
  rw [String.isEmpty_iff]
  cases secrets with
  | nil => simp [documents]
  | cons s rest =>
    simp [documents, secretDocument, String.join_cons, ← String.toList_inj, String.toList_append]

theorem stream_ne_nil (m : ServiceManifests) : m.stream.toUTF8.toList ≠ [] := by
  have marked : '-' ∈ m.stream.toList := by
    simp [ServiceManifests.stream, String.toList_append]
  intro empty
  have blank : m.stream = "" := Text.toUTF8_inj (empty.trans (by simp))
  rw [blank] at marked
  simp at marked

theorem mem_filesOf {name : String} {bytes : List UInt8} : (name, bytes) ∈ filesOf secrets m ↔
    (name = manifestsFile m ∧ bytes = m.stream.toUTF8.toList) ∨
      secretsOf secrets m ≠ [] ∧ name = secretsFile m ∧
        bytes = (documents (secretsOf secrets m)).toUTF8.toList := by
  unfold filesOf
  split
  · next none_ => simp [none_]
  · next some_ => simp [some_]

theorem manifestsFile_inj : manifestsFile m = manifestsFile n ↔ m.service = n.service := by
  simp [manifestsFile]

theorem secretsFile_inj : secretsFile m = secretsFile n ↔ m.service = n.service := by
  simp [secretsFile]

/-- The secrets of one service stand where the manifests of another do. -/
theorem secretsFile_eq_manifestsFile :
    secretsFile m = manifestsFile n ↔ n.service = m.service ++ "-secrets" := by
  have split_ : secretsFile m = (m.service ++ "-secrets") ++ ".yml" := by
    rw [String.append_assoc]
    rfl
  rw [split_, manifestsFile, String.append_left_inj, eq_comm]

/-- The files of all services, those of the first service first. -/
def files (secrets : List Secret) (manifests : List ServiceManifests) :
    List (String × List UInt8) :=
  manifests.flatMap (filesOf secrets)

theorem mem_files {name : String} {bytes : List UInt8} : (name, bytes) ∈ files secrets manifests ↔
    ∃ m ∈ manifests, (name, bytes) ∈ filesOf secrets m :=
  List.mem_flatMap

theorem isName_of_mem_files (named : ∀ m ∈ manifests, Path.IsName m.service)
    {file : String × List UInt8} (member : file ∈ files secrets manifests) :
    Path.IsName file.1 := by
  obtain ⟨name, bytes⟩ := file
  obtain ⟨m, held, own⟩ := mem_files.mp member
  rcases mem_filesOf.mp own with ⟨rfl, -⟩ | ⟨-, rfl, -⟩
  · exact (named m held).append (by decide) (by decide)
  · exact (named m held).append (by decide) (by decide)

end Rendering

namespace Step
open Rendering
variable {directory : Path} {secrets : List Secret} {m : ServiceManifests}
  {manifests : List ServiceManifests} {s s' : Session}

theorem outcome_writeFile_ok {path result : Path} {text : String} :
    outcome (writeFile path text) s = (.ok result, s') ↔
      path = result ∧ ∃ tree, s.tree.write path text.toUTF8.toList = .ok tree ∧
        s' = { s with tree } := by
  unfold writeFile
  simp only [outcome_bind_ok, outcome_pure_ok]
  constructor
  · rintro ⟨⟨⟩, t, changed, rfl, rfl⟩
    exact ⟨rfl, outcome_change_ok.mp changed⟩
  · rintro ⟨rfl, written⟩
    exact ⟨(), s', outcome_change_ok.mpr written, rfl, rfl⟩

/-- A service is written file by file. -/
theorem writeService_ok {paths : List Path}
    (ok : outcome (writeService directory secrets m) s = (.ok paths, s')) :
    ∃ tree, s.tree.writeAll directory (filesOf secrets m) = .ok tree ∧ s' = { s with tree } ∧
      paths = (filesOf secrets m).map fun file => directory.join file.1 := by
  unfold writeService at ok
  obtain ⟨_, t, first, ok⟩ := outcome_bind_ok.mp ok
  obtain ⟨rfl, tree, written, rfl⟩ := outcome_writeFile_ok.mp first
  change outcome (if (documents (secretsOf secrets m)).isEmpty then _ else _) _ = _ at ok
  unfold filesOf
  split at ok
  · next none_ =>
    obtain ⟨rfl, rfl⟩ := outcome_pure_ok.mp ok
    rw [if_pos ((isEmpty_documents_iff _).mp none_)]
    exact ⟨tree, except_bind_ok.mpr ⟨tree, written, rfl⟩, rfl, rfl⟩
  · next some_ =>
    obtain ⟨_, t, second, ok⟩ := outcome_bind_ok.mp ok
    obtain ⟨rfl, tree', written', rfl⟩ := outcome_writeFile_ok.mp second
    obtain ⟨rfl, rfl⟩ := outcome_pure_ok.mp ok
    rw [if_neg fun none_ => some_ ((isEmpty_documents_iff _).mpr none_)]
    refine ⟨tree', except_bind_ok.mpr ⟨tree, written, ?_⟩, rfl, rfl⟩
    exact except_bind_ok.mpr ⟨tree', written', rfl⟩

theorem mapM_writeService_ok {paths : List (List Path)}
    (ok : outcome (manifests.mapM (writeService directory secrets)) s = (.ok paths, s')) :
    ∃ tree, s.tree.writeAll directory (files secrets manifests) = .ok tree ∧ s' = { s with tree } ∧
      paths.flatten = (files secrets manifests).map fun file => directory.join file.1 := by
  induction manifests generalizing s paths with
  | nil =>
    obtain ⟨rfl, rfl⟩ := outcome_pure_ok.mp ok
    exact ⟨s.tree, rfl, rfl, rfl⟩
  | cons m rest ih =>
    rw [List.mapM_cons] at ok
    obtain ⟨own, t, first, ok⟩ := outcome_bind_ok.mp ok
    obtain ⟨others, u, later, ok⟩ := outcome_bind_ok.mp ok
    obtain ⟨rfl, rfl⟩ := outcome_pure_ok.mp ok
    obtain ⟨tree, written, rfl, rfl⟩ := writeService_ok first
    obtain ⟨tree', written', rfl, same⟩ := ih later
    refine ⟨tree', ?_, rfl, ?_⟩
    · rw [files, List.flatMap_cons, File.Tree.writeAll_append]
      exact except_bind_ok.mpr ⟨tree, written, written'⟩
    · rw [List.flatten_cons, same]
      exact List.map_append.symm

/-- All that is written is written file by file into the directory, once it is there. -/
theorem writeManifests_ok {paths : List Path}
    (ok : outcome (writeManifests directory manifests secrets) s = (.ok paths, s')) :
    ∃ made tree, s.tree.makeAllDirectories directory = .ok made ∧
      made.writeAll directory (files secrets manifests) = .ok tree ∧ s' = { s with tree } ∧
      paths = (files secrets manifests).map fun file => directory.join file.1 := by
  unfold writeManifests at ok
  obtain ⟨⟨⟩, t, first, ok⟩ := outcome_bind_ok.mp ok
  obtain ⟨made, there, rfl⟩ := outcome_change_ok.mp first
  obtain ⟨each, u, later, ok⟩ := outcome_bind_ok.mp ok
  obtain ⟨rfl, rfl⟩ := outcome_pure_ok.mp ok
  obtain ⟨tree, written, rfl, same⟩ := mapM_writeService_ok later
  exact ⟨made, tree, there, written, rfl, same⟩

end Step

namespace Rendering
variable {directory : Path} {secrets : List Secret} {m n : ServiceManifests}
  {manifests : List ServiceManifests} {tree : File.Tree}

theorem service_ne_append (m : ServiceManifests) : m.service ≠ m.service ++ "-secrets" := by
  intro same
  have length := congrArg (fun name => name.toList.length) same
  simp [String.toList_append] at length

/-- A tree after the files of services with names of their own were written to a directory that
had no files. -/
structure Written (directory : Path) (secrets : List Secret) (manifests : List ServiceManifests)
    (tree : File.Tree) : Prop where
  named : ∀ m ∈ manifests, Path.IsName m.service
  distinct : (manifests.map (·.service)).Nodup
  made : ∃ made : File.Tree,
    (∀ name, Path.IsName name → made.contents (directory.join name) = []) ∧
      made.writeAll directory (files secrets manifests) = .ok tree

namespace Written
variable (w : Written directory secrets manifests tree)
include w

theorem eq_of_service (first : m ∈ manifests) (second : n ∈ manifests)
    (same : m.service = n.service) : m = n :=
  List.inj_on_of_nodup_map w.distinct first second same

/-- The manifests of a service are in its file, unless another's secrets have the same name. -/
theorem contents_manifestsFile (member : m ∈ manifests) (clear : ∀ n ∈ manifests,
    m.service = n.service ++ "-secrets" → secretsOf secrets n = []) :
    tree.contents (directory.join (manifestsFile m)) = m.stream.toUTF8.toList := by
  obtain ⟨made, -, ok⟩ := w.made
  refine File.Tree.contents_of_written (fun _ => isName_of_mem_files w.named) ok ?_ ?_
  · exact mem_files.mpr ⟨m, member, mem_filesOf.mpr (.inl ⟨rfl, rfl⟩)⟩
  · intro other held
    obtain ⟨n, inside, own⟩ := mem_files.mp held
    rcases mem_filesOf.mp own with ⟨same, rfl⟩ | ⟨some_, same, -⟩
    · rw [w.eq_of_service member inside (manifestsFile_inj.mp same)]
    · exact absurd (clear n inside (secretsFile_eq_manifestsFile.mp same.symm)) some_

theorem contents_secretsFile (member : m ∈ manifests)
    (clear : ∀ n ∈ manifests, n.service ≠ m.service ++ "-secrets") :
    tree.contents (directory.join (secretsFile m)) =
      (documents (secretsOf secrets m)).toUTF8.toList := by
  obtain ⟨made, empty, ok⟩ := w.made
  have owner : ∀ bytes, (secretsFile m, bytes) ∈ files secrets manifests →
      secretsOf secrets m ≠ [] ∧ bytes = (documents (secretsOf secrets m)).toUTF8.toList := by
    intro bytes held
    obtain ⟨n, inside, own⟩ := mem_files.mp held
    rcases mem_filesOf.mp own with ⟨same, -⟩ | ⟨some_, same, rfl⟩
    · exact absurd (secretsFile_eq_manifestsFile.mp same) (clear n inside)
    · obtain rfl := w.eq_of_service member inside (secretsFile_inj.mp same)
      exact ⟨some_, rfl⟩
  by_cases none_ : secretsOf secrets m = []
  · have name : Path.IsName (secretsFile m) := (w.named m member).append (by decide) (by decide)
    rw [File.Tree.contents_of_unwritten (fun _ => isName_of_mem_files w.named) name ok
      fun bytes held => (owner bytes held).1 none_, empty _ name, none_]
    simp [documents]
  · refine File.Tree.contents_of_written (fun _ => isName_of_mem_files w.named) ok ?_
      fun other held => (owner other held).2
    exact mem_files.mpr ⟨m, member, mem_filesOf.mpr (.inr ⟨none_, rfl, rfl⟩)⟩

theorem whole (member : m ∈ manifests)
    (manifestsClear : ∀ n ∈ manifests,
      m.service = n.service ++ "-secrets" → secretsOf secrets n = [])
    (secretsClear : ∀ n ∈ manifests, n.service ≠ m.service ++ "-secrets") :
    Whole tree directory secrets m := by
  rw [Whole, w.contents_manifestsFile member manifestsClear,
    w.contents_secretsFile member secretsClear, printed, Text.toList_toUTF8, Text.toList_toUTF8,
    Text.toList_toUTF8, String.toList_append, List.flatMap_append]

theorem names_nodup_iff : ((files secrets manifests).map (·.1)).Nodup ↔
    ∀ m ∈ manifests, ∀ n ∈ manifests, n.service = m.service ++ "-secrets" →
      secretsOf secrets m = [] := by
  have own : ∀ m, ((filesOf secrets m).map (·.1)).Nodup := by
    intro m
    have different : manifestsFile m ≠ secretsFile m := fun same =>
      service_ne_append m (secretsFile_eq_manifestsFile.mp same.symm)
    unfold filesOf
    split <;> simp [different]
  -- services share the name of a file only as secrets of one and manifests of the other
  rw [files, List.map_flatMap, List.nodup_flatMap]
  constructor
  · rintro ⟨-, apart⟩ m held n held' same
    by_contra some_
    have different : m ≠ n := by
      rintro rfl
      exact service_ne_append m same
    have shared : secretsFile m ∈ (filesOf secrets m).map (·.1) :=
      List.mem_map.mpr ⟨_, mem_filesOf.mpr (.inr ⟨some_, rfl, rfl⟩), rfl⟩
    have shared' : secretsFile m ∈ (filesOf secrets n).map (·.1) := by
      rw [secretsFile_eq_manifestsFile.mpr same]
      exact List.mem_map.mpr ⟨_, mem_filesOf.mpr (.inl ⟨rfl, rfl⟩), rfl⟩
    have : Std.Symm (Function.onFun List.Disjoint fun m => (filesOf secrets m).map (·.1)) :=
      ⟨fun _ _ => List.disjoint_symm⟩
    exact apart.forall held held' different shared shared'
  · intro clear
    refine ⟨fun m _ => own m, (List.pairwise_map.mp w.distinct).imp_of_mem ?_⟩
    intro m n held held' different name first second
    obtain ⟨⟨_, bytes⟩, mine, rfl⟩ := List.mem_map.mp first
    obtain ⟨⟨_, bytes'⟩, others, rfl⟩ := List.mem_map.mp second
    rcases mem_filesOf.mp mine with ⟨rfl, -⟩ | ⟨some_, rfl, -⟩
    · rcases mem_filesOf.mp others with ⟨same, -⟩ | ⟨some_, same, -⟩
      · exact different (manifestsFile_inj.mp same)
      · exact some_ (clear n held' m held (secretsFile_eq_manifestsFile.mp same.symm))
    · rcases mem_filesOf.mp others with ⟨same, -⟩ | ⟨-, same, -⟩
      · exact some_ (clear m held n held' (secretsFile_eq_manifestsFile.mp same))
      · exact different (secretsFile_inj.mp same)

/-- All services are whole, in files of their own, if no name is another's with the extension of
secrets; a name that is takes what is printed of one of the two. -/
theorem whole_iff :
    (((files secrets manifests).map (·.1)).Nodup ∧
      ∀ m ∈ manifests, Whole tree directory secrets m) ↔
        ∀ m ∈ manifests, ∀ n ∈ manifests, n.service ≠ m.service ++ "-secrets" := by
  rw [w.names_nodup_iff]
  constructor
  · rintro ⟨clear, whole⟩ m held n held' same
    have none_ := clear m held n held' same
    have own := w.contents_manifestsFile held fun p inside equal => clear p inside m held equal
    have other := w.contents_manifestsFile held' fun p inside equal => clear p inside n held' equal
    have both := whole m held
    rw [Whole, secretsFile_eq_manifestsFile.mpr same, own, other, printed, none_] at both
    -- the file of the secrets holds the manifests of the other, which are more than nothing
    have empty : n.stream.toUTF8.toList = [] := by
      simpa [documents] using both
    exact stream_ne_nil n empty
  · intro clear
    refine ⟨fun m held n held' same => absurd same (clear m held n held'), fun m held => ?_⟩
    exact w.whole held (fun n held' same => absurd same (clear n held' m held)) (clear m held)

end Written
end Rendering

namespace Step
open Rendering
variable {directory : Path} {secrets : List Secret} {manifests : List ServiceManifests}
  {s s' : Session} {paths : List Path}

theorem written_of_writeManifests_ok (named : ∀ m ∈ manifests, Path.IsName m.service)
    (distinct : (manifests.map (·.service)).Nodup) (vacant : s.tree.Vacant directory)
    (ok : outcome (writeManifests directory manifests secrets) s = (.ok paths, s')) :
    Written directory secrets manifests s'.tree ∧
      (paths.Nodup ↔ ((files secrets manifests).map (·.1)).Nodup) := by
  obtain ⟨made, tree, there, written, rfl, rfl⟩ := writeManifests_ok ok
  refine ⟨⟨named, distinct, made, fun name n => ?_, written⟩, ?_⟩
  · exact File.Tree.contents_of_not_isFile (vacant made there name n)
  · have pairs : (files secrets manifests).map (fun file => directory.join file.1) =
        ((files secrets manifests).map (·.1)).map directory.join := by
      rw [List.map_map]
      rfl
    rw [pairs]
    refine ⟨List.Nodup.of_map _, List.Nodup.map_on fun name held name' held' same => ?_⟩
    obtain ⟨file, member, rfl⟩ := List.mem_map.mp held
    obtain ⟨file', member', rfl⟩ := List.mem_map.mp held'
    have plain := (isName_of_mem_files named member).plain
    exact (Path.join_inj plain (isName_of_mem_files named member').plain).mp same

/-- Services that are written to a directory without files are whole there just if no name of a
service is that of another with the extension of secrets. A service that is no part of such a pair
is whole whatever the others are; paths are given twice where the first of a pair has secrets. -/
theorem written_whole_iff (named : ∀ m ∈ manifests, Path.IsName m.service)
    (distinct : (manifests.map (·.service)).Nodup) (vacant : s.tree.Vacant directory)
    (ok : outcome (writeManifests directory manifests secrets) s = (.ok paths, s')) :
    (∀ m ∈ manifests, (∀ n ∈ manifests, n.service ≠ m.service ++ "-secrets" ∧
      m.service ≠ n.service ++ "-secrets") → Whole s'.tree directory secrets m) ∧
    (paths.Nodup ↔ ∀ m ∈ manifests, ∀ n ∈ manifests,
      n.service = m.service ++ "-secrets" → secretsOf secrets m = []) ∧
    ((paths.Nodup ∧ ∀ m ∈ manifests, Whole s'.tree directory secrets m) ↔
      ∀ m ∈ manifests, ∀ n ∈ manifests, n.service ≠ m.service ++ "-secrets") := by
  obtain ⟨w, names⟩ := written_of_writeManifests_ok named distinct vacant ok
  refine ⟨fun m held clear => ?_, names.trans w.names_nodup_iff, ?_⟩
  · exact w.whole held (fun n held' same => absurd same (clear n held').2)
      fun n held' => (clear n held').1
  · rw [names]
    exact w.whole_iff

/-- A service, another and a secret of the first one. -/
def pairOf (second : String) : List ServiceManifests × List Secret :=
  let manifests name : ServiceManifests :=
    ⟨name, "demo", "kind: Namespace", "kind: Service", "kind: Deployment"⟩
  ([manifests "web", manifests second],
    [⟨"web-files-1", "demo", "web", ["web.key"], "kind: Secret\n"⟩])

def emptyOutput : Session := ⟨⟨[(["work", "out"], .directory)], ["work"]⟩, ""⟩

def writtenPair (second : String) : Except Failure (List Path) × Session :=
  outcome (writeManifests ⟨"out"⟩ (pairOf second).1 (pairOf second).2) emptyOutput

theorem emptyOutput_vacant : emptyOutput.tree.Vacant ⟨"out"⟩ :=
  File.Tree.vacant_of_isDirectory (by decide +kernel) fun _ _ =>
    File.Tree.isFile_of_directories (by decide +kernel) _

theorem pair_written_whole :
    (writtenPair "api").1 =
      .ok [⟨"out/web.yml"⟩, ⟨"out/web-secrets.yml"⟩, ⟨"out/api.yml"⟩] ∧
    ∀ m ∈ (pairOf "api").1, Whole (writtenPair "api").2.tree ⟨"out"⟩ (pairOf "api").2 m := by
  have ok : (writtenPair "api").1 =
      .ok [⟨"out/web.yml"⟩, ⟨"out/web-secrets.yml"⟩, ⟨"out/api.yml"⟩] := by decide +kernel
  refine ⟨ok, ?_⟩
  rcases ended : writtenPair "api" with ⟨result, s'⟩
  rw [ended] at ok
  obtain rfl := ok
  have separate :=
    written_whole_iff (by decide +kernel) (by decide +kernel) emptyOutput_vacant ended
  exact (separate.2.2.mpr (by decide +kernel)).2

/-- The manifests of the second service take the place of the secrets of the first one. -/
theorem clash_not_whole :
    (∀ m ∈ (pairOf "web-secrets").1, Path.IsName m.service) ∧
    ((pairOf "web-secrets").1.map (·.service)).Nodup ∧ emptyOutput.tree.Vacant ⟨"out"⟩ ∧
    (writtenPair "web-secrets").1 =
      .ok [⟨"out/web.yml"⟩, ⟨"out/web-secrets.yml"⟩, ⟨"out/web-secrets.yml"⟩] ∧
    ¬ ∀ m ∈ (pairOf "web-secrets").1,
      Whole (writtenPair "web-secrets").2.tree ⟨"out"⟩ (pairOf "web-secrets").2 m := by
  have named : ∀ m ∈ (pairOf "web-secrets").1, Path.IsName m.service := by decide +kernel
  exact ⟨named, by decide +kernel, emptyOutput_vacant, by decide +kernel, by decide +kernel⟩

end Step
end Stevedore
