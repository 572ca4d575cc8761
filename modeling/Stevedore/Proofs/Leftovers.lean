import Stevedore.Proofs.SecretReferences

/-!
What a failed assembly leaves in a store of secrets. Bundles are recorded one by one and none of them
is taken back, so that everything stays that was made before the failure.
-/
namespace Stevedore

namespace Staging
variable {tree : File.Tree} {account : Account} {service : Service} {namespaceName : String}

/-- Staging ends at the first group that has no secret, and keeps those before it. -/
theorem stageGroups_failed {gs : List StagingGroup} {error : DeployError}
    {state state' : SecretState}
    (failed : (gs.mapM (stageGroup (.secrets tree) account service namespaceName) :
      Activity SecretState _).outcome state = (.error error, state')) :
    ∃ before g after log fault, gs = before ++ g :: after ∧
      List.Forall₂ (fun g b =>
        SecretStore.made tree (request account service namespaceName g) = .ok b) before log ∧
      SecretStore.made tree (request account service namespaceName g) = .error fault ∧
      error = .store fault ∧ state' = SecretStore.keep state log := by
  -- the store varies: the rest starts from what the groups before it left
  induction gs generalizing state with
  | nil => cases failed
  | cons g rest ih =>
    rw [List.mapM_cons] at failed
    rcases Activity.outcome_bind_error.mp failed with here | ⟨v, t, staged, later⟩
    · rw [outcome_stageGroup] at here
      cases made : SecretStore.made tree (request account service namespaceName g) with
      | ok b =>
        rw [made] at here
        cases here
      | error fault =>
        rw [made] at here
        cases here
        exact ⟨[], g, rest, [], fault, rfl, .nil, made, rfl, rfl⟩
    · obtain ⟨b, made, -, rfl⟩ := stageGroup_secrets_ok.mp staged
      rcases Activity.outcome_bind_error.mp later with inside | ⟨_, _, -, last⟩
      · obtain ⟨before, h, after, log, fault, rfl, related, missed, rfl, rfl⟩ := ih inside
        exact ⟨g :: before, h, after, b :: log, fault, rfl, .cons made related, missed, rfl,
          (SecretStore.keep_append state [b] log).symm⟩
      · cases last

end Staging

namespace Assembler
open Template
variable {a : Assembler SecretState} {tree : File.Tree} {service : Service}
  {deployment : Deployment} {resolved : Resolved}

/-- What a service asks the store for, all of which is known before the store is asked at all. -/
def requests (a : Assembler SecretState) (service : Service) (deployment : Deployment)
    (resolved : Resolved) : Except DeployError (List BundleRequest) := do
  let settings ← resolved.settingsFor service
  let _ ← a.namespaceManifest service resolved
  let _ ← a.serviceManifest service resolved
  let merged ← Staging.mergeProfiles service (a.sidecarsOf service resolved) resolved
  return (Staging.groups deployment.stagingPath merged).map
    (Staging.request deployment.account service settings.namespaceName)

/-- The secrets that an assembly has recorded when it fails: none if it fails before it asks for
any, those before the one that could not be made, or all if the pod or its text is what fails. -/
inductive Leaves (a : Assembler SecretState) (tree : File.Tree) (service : Service)
    (deployment : Deployment) (resolved : Resolved) : DeployError → List Secret → Prop where
  | early {error : DeployError}
      (unasked : a.requests service deployment resolved = .error error) :
      Leaves a tree service deployment resolved error []
  | midway {before after : List BundleRequest} {r : BundleRequest} {log : List Secret}
      {fault : StoreError}
      (asked : a.requests service deployment resolved = .ok (before ++ r :: after))
      (kept : List.Forall₂ (fun r b => SecretStore.made tree r = .ok b) before log)
      (missed : SecretStore.made tree r = .error fault) :
      Leaves a tree service deployment resolved (.store fault) log
  | late {all : List BundleRequest} {log : List Secret} {settings : Settings}
      {staged : List ConfigSource} {error : DeployError}
      (asked : a.requests service deployment resolved = .ok all)
      (kept : List.Forall₂ (fun r b => SecretStore.made tree r = .ok b) all log)
      (found : resolved.settingsFor service = .ok settings)
      (names : staged.map (·.id) = log.map (·.name))
      (unfinished : (do
        let pod ← podOf service settings deployment resolved (a.sidecarsOf service resolved) staged
        a.renderDeployment service settings deployment pod) = .error error) :
      Leaves a tree service deployment resolved error log

/-- All that comes before the deployment of a service could be made. -/
structure Begun (a : Assembler SecretState) (service : Service) (resolved : Resolved)
    (settings : Settings) : Prop where
  found : resolved.settingsFor service = .ok settings
  namespaced : ∃ text, a.namespaceManifest service resolved = .ok text
  served : ∃ text, a.serviceManifest service resolved = .ok text

theorem Begun.requests {settings : Settings} (begun : a.Begun service resolved settings) :
    a.requests service deployment resolved =
      (Staging.mergeProfiles service (a.sidecarsOf service resolved) resolved).map fun merged =>
        (Staging.groups deployment.stagingPath merged).map
          (Staging.request deployment.account service settings.namespaceName) := by
  obtain ⟨found, ⟨namespaceYaml, namespaced⟩, ⟨serviceYaml, served⟩⟩ := begun
  rw [Assembler.requests, found, ok_bind, namespaced, ok_bind, served, ok_bind]
  rfl

theorem begun_of_failed {error : DeployError} {state state' : SecretState}
    (failed : (a.assemble service deployment resolved).outcome state = (.error error, state')) :
    (a.requests service deployment resolved = .error error ∧ state = state') ∨
      ∃ settings, a.Begun service resolved settings ∧
        (a.deploymentManifest service deployment resolved).outcome state =
          (.error error, state') := by
  rcases Activity.outcome_lift_bind_error.mp failed with ⟨unset, rfl⟩ | ⟨settings, found, failed⟩
  · left
    rw [requests, unset]
    exact ⟨rfl, rfl⟩
  rcases Activity.outcome_lift_bind_error.mp failed with ⟨unmade, rfl⟩ | ⟨_, namespaced, failed⟩
  · left
    rw [requests, found, ok_bind, unmade]
    exact ⟨rfl, rfl⟩
  rcases Activity.outcome_lift_bind_error.mp failed with ⟨unmade, rfl⟩ | ⟨_, served, failed⟩
  · left
    rw [requests, found, ok_bind, namespaced, ok_bind, unmade]
    exact ⟨rfl, rfl⟩
  rcases Activity.outcome_bind_error.mp failed with undeployed | ⟨_, _, -, last⟩
  · exact .inr ⟨settings, ⟨found, ⟨_, namespaced⟩, ⟨_, served⟩⟩, undeployed⟩
  · cases last

section Staging
variable {settings : Settings} {state state' : SecretState} (stored : a.store = .secrets tree)
  (begun : a.Begun service resolved settings)
include stored begun

theorem leaves_of_unstaged {error : DeployError}
    (unstaged : (Staging.stage a.store deployment.account service (a.sidecarsOf service resolved)
      resolved deployment.stagingPath settings.namespaceName).outcome state =
        (.error error, state')) :
    ∃ log, a.Leaves tree service deployment resolved error log ∧
      state' = SecretStore.keep state log := by
  rw [stored] at unstaged
  rcases Activity.outcome_lift_bind_error.mp unstaged with
    ⟨unmerged, rfl⟩ | ⟨merged, merging, failed⟩
  · refine ⟨[], .early ?_, rfl⟩
    rw [begun.requests, unmerged]
    rfl
  · obtain ⟨before, g, after, log, fault, split, kept, missed, rfl, rfl⟩ :=
      Staging.stageGroups_failed failed
    let asks := Staging.request deployment.account service settings.namespaceName
    have asked : a.requests service deployment resolved =
        .ok (before.map asks ++ asks g :: after.map asks) := by
      rw [begun.requests, merging, Except.map, split, List.map_append, List.map_cons]
    exact ⟨log, .midway asked (List.forall₂_map_left_iff.mpr kept) missed, rfl⟩

theorem kept_of_staged {staged : List ConfigSource}
    (staging : (Staging.stage a.store deployment.account service (a.sidecarsOf service resolved)
      resolved deployment.stagingPath settings.namespaceName).outcome state =
        (.ok staged, state')) :
    ∃ all log, a.requests service deployment resolved = .ok all ∧
      List.Forall₂ (fun r b => SecretStore.made tree r = .ok b) all log ∧
      staged.map (·.id) = log.map (·.name) ∧ state' = SecretStore.keep state log := by
  rw [stored] at staging
  obtain ⟨merged, merging, staging⟩ := Activity.outcome_lift_bind_ok.mp staging
  obtain ⟨log, kept, rfl, names⟩ := Staging.stageGroups_secrets staging
  refine ⟨_, log, ?_, List.forall₂_map_left_iff.mpr kept, names, rfl⟩
  rw [begun.requests, merging]
  rfl

theorem leaves_of_undeployed {error : DeployError}
    (undeployed : (a.deploymentManifest service deployment resolved).outcome state =
      (.error error, state')) :
    ∃ log, a.Leaves tree service deployment resolved error log ∧
      state' = SecretStore.keep state log := by
  have found := begun.found
  rcases Activity.outcome_lift_bind_error.mp undeployed with ⟨unset, -⟩ | ⟨_, found', failed⟩
  · rw [found] at unset
    cases unset
  obtain rfl := Except.ok.inj (found.symm.trans found')
  rcases Activity.outcome_bind_error.mp failed with unprepared | ⟨pod, t, prepared, unrendered⟩
  · rcases Activity.outcome_bind_error.mp unprepared with unstaged | ⟨staged, t, staging, unbuilt⟩
    · exact leaves_of_unstaged stored begun unstaged
    · rw [Activity.outcome_lift, Prod.mk.injEq] at unbuilt
      obtain ⟨unbuilt, rfl⟩ := unbuilt
      obtain ⟨all, log, asked, kept, names, rfl⟩ := kept_of_staged stored begun staging
      refine ⟨log, .late asked kept found names ?_, rfl⟩
      rw [unbuilt]
      rfl
  · obtain ⟨staged, u, staging, built⟩ := Activity.outcome_bind_ok.mp prepared
    rw [Activity.outcome_lift, Prod.mk.injEq] at built unrendered
    obtain ⟨built, rfl⟩ := built
    obtain ⟨unrendered, rfl⟩ := unrendered
    obtain ⟨all, log, asked, kept, names, rfl⟩ := kept_of_staged stored begun staging
    refine ⟨log, .late asked kept found names ?_, rfl⟩
    rw [built, ok_bind, unrendered]

end Staging

/-- A failed assembly leaves in the store what it had made when it failed and takes nothing away; the
store is as before just if it held all of that already. -/
theorem failed_assembly_leaves (a : Assembler SecretState) (tree : File.Tree) (service : Service)
    (deployment : Deployment) (resolved : Resolved) (state state' : SecretState)
    (error : DeployError) (stored : a.store = .secrets tree)
    (failed : (a.assemble service deployment resolved).outcome state = (.error error, state')) :
    ∃ log, a.Leaves tree service deployment resolved error log ∧
      state' = SecretStore.keep state log ∧
      (state' = state ↔
        ∀ b ∈ (SecretStore.keep .empty log).values, state.get? b.name = some b) := by
  have leaves : ∃ log, a.Leaves tree service deployment resolved error log ∧
      state' = SecretStore.keep state log := by
    rcases begun_of_failed failed with ⟨unasked, rfl⟩ | ⟨settings, begun, undeployed⟩
    · exact ⟨[], .early unasked, rfl⟩
    · exact leaves_of_undeployed stored begun undeployed
  obtain ⟨log, leaves, rfl⟩ := leaves
  exact ⟨log, leaves, rfl, SecretStore.keep_eq_self_iff⟩

end Assembler

section Keys

def keysTree : File.Tree :=
  { entries := [(["staging"], .directory), (["staging", "demo"], .directory),
      (["staging", "demo", "app.yml"], .file [112, 111, 114, 116])]
    workingDirectory := [] }

def appGroup : StagingGroup :=
  ⟨"/app", [⟨⟨"/staging/demo/app.yml"⟩, ⟨"/app/app.yml"⟩⟩], .empty⟩

/-- The file of this group is not there. -/
def keysGroup : StagingGroup :=
  ⟨"/keys", [⟨⟨"/staging/demo/keys.yml"⟩, ⟨"/keys/keys.yml"⟩⟩], .empty⟩

def keysResolved : Resolved :=
  { settings := Table.ofList [("web", .listening 8080)]
    profiles := Table.ofList [("web", Profile.byName
      [profileAt "app.yml" "/app/app.yml", profileAt "keys.yml" "/keys/keys.yml"])] }

def keysAssembler : Assembler SecretState := ⟨.embedded, .secrets keysTree, []⟩

theorem keys_groups : Staging.groups certificatesDeployment.stagingPath
    (keysResolved.profilesOf webService.serviceType) = [appGroup, keysGroup] := by
  rfl

theorem keys_fails : ∃ b,
    (keysAssembler.assemble webService certificatesDeployment keysResolved).outcome .empty =
      (.error (.store (.readFailed ⟨"/staging/demo/keys.yml"⟩ .notFound)),
        SecretStore.keep .empty [b]) := by
  have readable : Staging.Readable keysTree appGroup.files := by decide +kernel
  obtain ⟨b, made⟩ := @Staging.made_of_readable keysTree
    (Staging.request .empty webService "default" appGroup) readable
  have missed : SecretStore.made keysTree (Staging.request .empty webService "default" keysGroup) =
      .error (.readFailed ⟨"/staging/demo/keys.yml"⟩ .notFound) := by decide +kernel
  have staging : ([appGroup, keysGroup].mapM (Staging.stageGroup (.secrets keysTree) .empty
      webService "default") : Activity SecretState _).outcome .empty =
        (.error (.store (.readFailed ⟨"/staging/demo/keys.yml"⟩ .notFound)),
          SecretStore.keep .empty [b]) := by
    rw [List.mapM_cons]
    refine Activity.outcome_bind_error.mpr
      (.inr ⟨_, _, Staging.stageGroup_secrets_ok.mpr ⟨b, made, rfl, rfl⟩, ?_⟩)
    rw [List.mapM_cons]
    refine Activity.outcome_bind_error.mpr (.inl (Activity.outcome_bind_error.mpr (.inl ?_)))
    rw [Staging.outcome_stageGroup, missed]
  rw [← keys_groups] at staging
  have unstaged : (Staging.stage (.secrets keysTree) .empty webService [] keysResolved
      certificatesDeployment.stagingPath "default").outcome .empty =
        (.error (.store (.readFailed ⟨"/staging/demo/keys.yml"⟩ .notFound)),
          SecretStore.keep .empty [b]) :=
    Activity.outcome_lift_bind_error.mpr (.inr ⟨_, rfl, staging⟩)
  exact ⟨b, @Assembler.assembly_of_unstaged _ keysAssembler webService (.listening 8080)
    certificatesDeployment keysResolved rfl rfl _ _ _ unstaged⟩

theorem keys_failed_leaves : keysAssembler.store = .secrets keysTree ∧ ∃ error state',
    (keysAssembler.assemble webService certificatesDeployment keysResolved).outcome .empty =
      (.error error, state') ∧
    ∃ log, keysAssembler.Leaves keysTree webService certificatesDeployment keysResolved error log ∧
      state' = SecretStore.keep .empty log ∧
      (state' = .empty ↔ ∀ b ∈ (SecretStore.keep .empty log).values,
        Table.empty.get? b.name = some b) := by
  obtain ⟨b, failed⟩ := keys_fails
  exact ⟨rfl, _, _, failed, Assembler.failed_assembly_leaves keysAssembler keysTree webService
    certificatesDeployment keysResolved .empty _ _ rfl failed⟩

/-- The secret of the first group is there after the failure, and was not before. -/
theorem failure_leaves_secret : keysAssembler.store = .secrets keysTree ∧ ∃ error state',
    (keysAssembler.assemble webService certificatesDeployment keysResolved).outcome .empty =
      (.error error, state') ∧ state'.values ≠ (.empty : SecretState).values := by
  obtain ⟨b, failed⟩ := keys_fails
  refine ⟨rfl, _, _, failed, ?_⟩
  have held : (SecretStore.keep .empty [b]).get? b.name = some b :=
    (SecretStore.get?_keep_snoc [] b b.name).trans (if_pos rfl)
  have member : b ∈ (SecretStore.keep .empty [b]).values := Table.mem_values_iff.mpr ⟨_, held⟩
  intro same
  rw [same] at member
  exact List.not_mem_nil member

end Keys
end Stevedore
