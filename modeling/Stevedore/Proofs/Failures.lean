import Stevedore.Proofs.Monitoring
import Stevedore.Proofs.Pod.Variables
import Stevedore.Proofs.SecretReferences

/-!
Why the assembly of a declared service fails. What a declaration without violations resolves to holds
settings for everyone, no bundle is empty and no template fails, so that only a profile that the
monitoring sidecar lacks and a file that cannot be read are left; of several the first counts.
-/
namespace Stevedore

/-- The first of some files that cannot be read, and why. -/
def File.Tree.unreadable? (t : File.Tree) (paths : List Path) : Option (Path × File.Fault) :=
  paths.findSome? fun p => (failure? (t.read p)).map fun fault => (p, fault)

namespace SecretStore
variable {tree : File.Tree}

theorem failure?_readOne (pair : MountPair) : failure? (readOne tree pair) =
    (failure? (tree.read pair.source)).map fun fault => .readFailed pair.source fault := by
  rw [readOne]
  cases tree.read pair.source with
  | error fault => rfl
  | ok bytes => rfl

theorem failure?_made {r : BundleRequest} (some_ : r.files ≠ []) : failure? (made tree r) =
    (tree.unreadable? (r.files.map (·.source))).map fun f => .readFailed f.1 f.2 := by
  have full : r.files.isEmpty ≠ true := by simpa using some_
  rw [made, if_neg full, failure?_map, failure?_mapM, File.Tree.unreadable?, List.findSome?_map,
    List.map_findSome?]
  refine findSome?_congr fun pair _ => ?_
  simp [failure?_readOne, Function.comp_def]

end SecretStore

/-- The files of profiles in the order they are staged: first each profile's own, then what any of
them requires. -/
def Profile.stagedFiles (stagingPath : Path) (ordered : List (String × Profile))
    (required : List String) : List Path :=
  ordered.map (fun f => f.2.stagedFile stagingPath) ++ required.map Path.mk

namespace Staging
variable {tree : File.Tree} {account : Account} {service : Service} {namespaceName : String}

theorem files_ne_nil {stagingPath : Path} {profiles : Table Profile} {g : StagingGroup}
    (member : g ∈ groups stagingPath profiles) : g.files ≠ [] := by
  rcases List.mem_append.mp member with directory | required
  · obtain ⟨e, inside, rfl⟩ := List.mem_map.mp directory
    have filled := ne_nil_of_byDirectory inside
    simpa [directoryGroup] using filled
  · cases files : requiredFiles profiles with
    | nil => simp [files, requiredGroup] at required
    | cons first rest =>
      rw [files] at required
      rw [List.mem_singleton.mp required]
      simp

theorem sources_groups (stagingPath : Path) (profiles : Table Profile) :
    ((groups stagingPath profiles).flatMap (·.files)).map (·.source) =
      Profile.stagedFiles stagingPath (suppliers profiles)
        (profiles.values.flatMap (·.requiredFiles)).eraseDups := by
  rw [groups, List.flatMap_append, List.map_append, Profile.stagedFiles, ← requiredFiles_eq]
  congr 1
  · rw [List.flatMap_map, List.map_flatMap, suppliers, List.map_flatMap]
    refine List.flatMap_congr fun e member => ?_
    rw [directoryGroup, members_eq member, List.map_map, List.map_map]
    rfl
  · cases requiredFiles profiles with
    | nil => rfl
    | cons first rest => simp [requiredGroup, MountPair.verbatim, Function.comp_def]

theorem failure?_stageGroup (g : StagingGroup) (state : SecretState) :
    failure? ((stageGroup (.secrets tree) account service namespaceName g).outcome state).1 =
      (failure? (SecretStore.made tree (request account service namespaceName g))).map .store := by
  rw [outcome_stageGroup]
  cases SecretStore.made tree (request account service namespaceName g) with
  | error fault => rfl
  | ok b => rfl

/-- Staging groups fails at the first of their files that cannot be read. -/
theorem failure?_stageGroups {gs : List StagingGroup} (filled : ∀ g ∈ gs, g.files ≠ [])
    (state : SecretState) :
    failure? ((gs.mapM (stageGroup (.secrets tree) account service namespaceName) :
      Activity SecretState _).outcome state).1 =
      (tree.unreadable? ((gs.flatMap (·.files)).map (·.source))).map fun f =>
        .store (.readFailed f.1 f.2) := by
  rw [Activity.failure?_outcome_mapM failure?_stageGroup, List.map_flatMap,
    File.Tree.unreadable?, findSome?_flatMap, List.map_findSome?]
  refine findSome?_congr fun g member => ?_
  have own := @SecretStore.failure?_made tree
    (request account service namespaceName g) (filled g member)
  rw [own, Option.map_map]
  rfl

theorem failure?_stage {sidecars : List SidecarService} {resolved : Resolved} {stagingPath : Path}
    {merged : Table Profile} (merging : mergeProfiles service sidecars resolved = .ok merged)
    (state : SecretState) :
    failure? ((stage (.secrets tree) account service sidecars resolved stagingPath
      namespaceName).outcome state).1 =
      (tree.unreadable? (Profile.stagedFiles stagingPath (suppliers merged)
        (merged.values.flatMap (·.requiredFiles)).eraseDups)).map fun f =>
          .store (.readFailed f.1 f.2) := by
  rw [stage, Activity.outcome_lift_bind, merging]
  rw [failure?_stageGroups (fun g member => files_ne_nil member), sources_groups]

theorem stage_of_unmerged {sidecars : List SidecarService} {resolved : Resolved}
    {stagingPath : Path} {e : DeployError}
    (unmerged : mergeProfiles service sidecars resolved = .error e) (state : SecretState) :
    (stage (.secrets tree) account service sidecars resolved stagingPath namespaceName).outcome
      state = (.error e, state) := by
  rw [stage, Activity.outcome_lift_bind, unmerged]

end Staging

/-- What keeps a declared service from being assembled where certain files are staged for it. -/
inductive Prevents (d : Declaration) (e : Entry Service) (tree : File.Tree) (files : List Path) :
    DeployError → Prop where
  | missing {m : Entry SidecarService} {name : String} (attached : d.monitorOf e = some m)
      (first : m.missing? e.subject = some name) :
      Prevents d e tree files (.sidecarProfileMissing m.subject.service.canonicalName
        e.subject.canonicalName name)
  | unreadable {path : Path} {fault : File.Fault}
      (supplied : ∀ m ∈ d.monitorOf e, m.missing? e.subject = none)
      (first : tree.unreadable? files = some (path, fault)) :
      Prevents d e tree files (.store (.readFailed path fault))

def Plan.commission (p : Plan) (tree : File.Tree) (service : Service) : Commission :=
  { templates := .embedded, rules := p.rules, tree, service
    deployment := p.deployment, resolved := p.resolved }

namespace Commission
variable {d : Declaration} {root : Path} {plan : Plan} {e : Entry Service}

theorem failure?_run_declared (accepted : d.violation? = none) (ok : d.resolve root = .ok plan)
    (declared : e ∈ d.services) (tree : File.Tree) (state : SecretState) :
    failure? ((plan.commission tree e.subject).run.outcome state).1 =
      ((d.monitorOf e).bind fun m =>
        (m.missing? e.subject).map (Staging.missingProfile m.subject e.subject)).or
      ((tree.unreadable? (Profile.stagedFiles plan.deployment.stagingPath
        (Staging.suppliers (d.stagedProfiles e))
        ((d.stagedProfiles e).values.flatMap (·.requiredFiles)).eraseDups)).map fun f =>
          .store (.readFailed f.1 f.2)) := by
  have sidecars := @Assembler.sidecarsOf_declared _ (plan.commission tree e.subject).assembler
    _ _ _ _ accepted ok rfl declared
  obtain ⟨settings, -, found⟩ :=
    Declaration.settingsFor_resolved accepted ok (List.mem_append_left _ declared)
  have attached : ∀ s ∈ (plan.commission tree e.subject).assembler.sidecarsOf e.subject
      plan.resolved, ∃ own, plan.resolved.settingsFor s.service = .ok own := by
    rw [sidecars]
    intro s member
    obtain ⟨m, here, rfl⟩ := List.mem_map.mp member
    obtain ⟨own, -, theirs⟩ := Declaration.settingsFor_resolved accepted ok
      (Declaration.mem_entries_monitorOf (Option.mem_toList.mp here))
    exact ⟨own, theirs⟩
  rw [← Declaration.failure?_merge_declared accepted ok e]
  -- everyone has settings and the templates are the embedded ones, so only staging can fail
  refine (Assembler.failure?_assemble rfl found attached state).trans ?_
  rw [sidecars]
  cases merging : Staging.mergeProfiles e.subject ((d.monitorOf e).toList.map (·.subject))
      plan.resolved with
  | error fault =>
    exact (congrArg (fun outcome => failure? outcome.1)
      (Staging.stage_of_unmerged merging state)).trans rfl
  | ok merged =>
    rw [← Declaration.merged_declared accepted ok declared merging]
    exact Staging.failure?_stage merging state

/-- A declared service is assembled unless the monitoring sidecar attached to it lacks a profile that
it is asked for or, if it has them all, some file cannot be read; the error names the first one. -/
theorem assembly_fails_iff (d : Declaration) (root : Path) (plan : Plan) (e : Entry Service)
    (tree : File.Tree) (state : SecretState) (accepted : d.violation? = none)
    (ok : d.resolve root = .ok plan) (declared : e ∈ d.services) :
    ∃ ordered, ordered.Perm (d.stagedProfiles e).entries ∧ ordered.Pairwise Profile.Precedes ∧
      let files := Profile.stagedFiles plan.deployment.stagingPath ordered
        ((d.stagedProfiles e).values.flatMap (·.requiredFiles)).eraseDups
      let result := ((plan.commission tree e.subject).run.outcome state).1
      (∀ error, result = .error error ↔ Prevents d e tree files error) ∧
      ((∃ manifests, result = .ok manifests) ↔
        (∀ m ∈ d.monitorOf e, m.missing? e.subject = none) ∧ tree.unreadable? files = none) := by
  refine ⟨_, Staging.perm_suppliers _, Staging.suppliers_ascending _, ?_⟩
  intro files result
  have failure : failure? result = ((d.monitorOf e).bind fun m =>
      (m.missing? e.subject).map (Staging.missingProfile m.subject e.subject)).or
        ((tree.unreadable? files).map fun f => .store (.readFailed f.1 f.2)) :=
    failure?_run_declared accepted ok declared tree state
  have supplied_iff : ((d.monitorOf e).bind fun m =>
      (m.missing? e.subject).map (Staging.missingProfile m.subject e.subject)) = none ↔
        ∀ m ∈ d.monitorOf e, m.missing? e.subject = none := by
    simp [Option.bind_eq_none_iff]
  constructor
  · intro error
    rw [← failure?_eq_some_iff, failure, Option.or_eq_some_iff, supplied_iff]
    constructor
    · rintro (lacking | ⟨supplied, unread⟩)
      · obtain ⟨m, attached, lacking⟩ := Option.bind_eq_some_iff.mp lacking
        obtain ⟨name, first, rfl⟩ := Option.map_eq_some_iff.mp lacking
        exact .missing attached first
      · obtain ⟨⟨path, fault⟩, first, rfl⟩ := Option.map_eq_some_iff.mp unread
        exact .unreadable supplied first
    · rintro (⟨attached, first⟩ | ⟨supplied, first⟩)
      · left
        rw [attached, Option.bind_some, first]
        rfl
      · right
        rw [first]
        exact ⟨supplied, rfl⟩
  · rw [← failure?_eq_none_iff, failure, Option.or_eq_none_iff, supplied_iff, Option.map_eq_none_iff]

end Commission

section Unreadable

/-- The profile that both the service and its sidecar have was never staged. -/
def sharingTree : File.Tree :=
  { entries := [(["staging"], .directory), (["staging", "demo"], .directory),
      (["staging", "demo", "web.yml"], .file [112, 111, 114, 116])]
    workingDirectory := [] }

theorem sharing_fails :
    sharingDeclaration.violation? = none ∧
    sharingDeclaration.resolve ⟨"/staging"⟩ = .ok sharingPlan ∧
    webEntry ∈ sharingDeclaration.services ∧
    ((sharingPlan.commission sharingTree webEntry.subject).run.outcome .empty).1 =
      .error (.store (.readFailed ⟨"/staging/demo/shared.yml"⟩ .notFound)) := by
  refine ⟨sharing_accepted, sharing_resolved, List.mem_cons_self, ?_⟩
  obtain ⟨ordered, perm, ascending, fails, -⟩ := Commission.assembly_fails_iff sharingDeclaration
    ⟨"/staging"⟩ sharingPlan webEntry sharingTree .empty sharing_accepted sharing_resolved
    List.mem_cons_self
  have listed : (sharingDeclaration.stagedProfiles webEntry).entries.Pairwise Profile.Precedes := by
    decide +kernel
  -- there is one ascending order
  have same : ordered = (sharingDeclaration.stagedProfiles webEntry).entries :=
    perm.eq_of_pairwise
      (fun f g _ _ below above => absurd above (Profile.precedes_asymm f g below)) ascending listed
  rw [same] at fails
  exact (fails _).mpr (.unreadable (by decide +kernel) (by decide +kernel))

end Unreadable
end Stevedore
