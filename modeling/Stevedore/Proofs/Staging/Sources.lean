import Stevedore.Proofs.Path.Joining
import Stevedore.Proofs.Staging.Calls

/-!
Where the files come from that a store is asked for. A profile is read from below the staging root
unless its name or that of the deployment leads out of there, which no rule for declarations forbids.
Files that profiles require come after the profiles and are read from where they say.
-/
namespace Stevedore

namespace Staging

/-- Whose files are asked for: those of some profiles, and behind them some that profiles require. -/
structure HandsOver (stagingPath : Path) (profiles : Table Profile) (calls : List BundleRequest)
    (handed : List Profile) (required : List String) : Prop where
  files : calls.flatMap (·.files) =
    (handed.map fun p => ⟨p.stagedFile stagingPath, ⟨p.outputFile⟩⟩) ++
      required.map MountPair.verbatim
  mounted : ∃ rest, (handed ++ rest).Perm profiles.values
  needed : ∀ file ∈ required, ∃ p ∈ profiles.values, file ∈ p.requiredFiles

theorem files_requiredGroup (files : List String) (n : Nat) : ∃ asked, asked ⊆ files ∧
    ((requiredGroup files).take n).flatMap (·.files) = asked.map MountPair.verbatim := by
  cases files with
  | nil => exact ⟨[], by simp, by simp [requiredGroup]⟩
  | cons first rest =>
    cases n with
    | zero => exact ⟨[], by simp, rfl⟩
    | succ n => exact ⟨first :: rest, by simp, by simp [requiredGroup]⟩

theorem perm_byDirectory (profiles : Table Profile) :
    ((byDirectory profiles).entries.flatMap (·.2)).Perm profiles.values := by
  refine List.Perm.trans (List.Perm.of_eq ?_) (perm_members profiles)
  rw [Table.keys, List.flatMap_map]
  exact List.flatMap_congr fun e member => (membersOf_eq member).symm

/-- The first groups hand over the profiles of the first directories. -/
theorem handsOver_take (stagingPath : Path) (profiles : Table Profile) (account : Account)
    (service : Service) (namespaceName : String) (n : Nat) : ∃ required,
    HandsOver stagingPath profiles
      (((groups stagingPath profiles).take n).map (request account service namespaceName))
      (((byDirectory profiles).entries.take n).flatMap (·.2)) required := by
  obtain ⟨required, needed, files⟩ := files_requiredGroup (requiredFiles profiles)
    (n - (byDirectory profiles).entries.length)
  refine ⟨required, ?_, ⟨((byDirectory profiles).entries.drop n).flatMap (·.2), ?_⟩, ?_⟩
  · have asked (gs : List StagingGroup) :
        (gs.map (request account service namespaceName)).flatMap (·.files) =
          gs.flatMap (·.files) := List.flatMap_map ..
    rw [asked, groups, List.take_append, List.length_map, List.flatMap_append, files,
      List.map_flatMap, ← List.map_take, List.flatMap_map]
    rfl
  · rw [← List.flatMap_append, List.take_append_drop]
    exact perm_byDirectory profiles
  · intro file member
    have asked := needed member
    rw [requiredFiles_eq, List.mem_eraseDups, List.mem_flatMap] at asked
    exact asked

theorem handed_all (stagingPath : Path) (profiles : Table Profile) :
    ((byDirectory profiles).entries.take (groups stagingPath profiles).length).flatMap (·.2) =
      (byDirectory profiles).entries.flatMap (·.2) := by
  rw [List.take_of_length_le]
  rw [groups, List.length_append, List.length_map]
  exact Nat.le_add_right _ _

end Staging

namespace Assembler
variable {σ : Type} (a : Assembler σ) (service : Service) (deployment : Deployment)
  (resolved : Resolved)

/-- The state that staging leaves, once the profiles are merged. -/
def StagedInto (s s' : σ) : Prop :=
  ∃ merged settings,
    Staging.mergeProfiles service (a.sidecarsOf service resolved) resolved = .ok merged ∧
    resolved.settingsFor service = .ok settings ∧
    s' = (((Staging.groups deployment.stagingPath merged).mapM (Staging.stageGroup a.store
      deployment.account service settings.namespaceName) : Activity σ _).outcome s).2

theorem state_deploymentManifest (s : σ) :
    ((a.deploymentManifest service deployment resolved).outcome s).2 = s ∨
      a.StagedInto service deployment resolved s
        ((a.deploymentManifest service deployment resolved).outcome s).2 := by
  unfold deploymentManifest
  rcases Activity.state_lift_bind (resolved.settingsFor service) _ s with
    same | ⟨settings, found, same⟩
  · exact .inl same
  rw [same, Activity.state_bind (fun pod t => rfl), stagePod,
    Activity.state_bind (fun staged t => rfl), Staging.stage]
  rcases Activity.state_lift_bind (Staging.mergeProfiles service _ resolved) _ s with
    same | ⟨merged, merging, same⟩
  · exact .inl same
  · exact .inr ⟨merged, settings, merging, found, same⟩

/-- Whether it fails or not, an assembly changes the state by staging only. -/
theorem state_assemble (s : σ) :
    ((a.assemble service deployment resolved).outcome s).2 = s ∨
      a.StagedInto service deployment resolved s
        ((a.assemble service deployment resolved).outcome s).2 := by
  unfold assemble
  rcases Activity.state_lift_bind (resolved.settingsFor service) _ s with same | ⟨_, -, same⟩
  · exact .inl same
  rw [same]
  rcases Activity.state_lift_bind (a.namespaceManifest service resolved) _ s with
    same | ⟨_, -, same⟩
  · exact .inl same
  rw [same]
  rcases Activity.state_lift_bind (a.serviceManifest service resolved) _ s with
    same | ⟨_, -, same⟩
  · exact .inl same
  rw [same, Activity.state_bind (fun deploymentYaml t => rfl)]
  exact a.state_deploymentManifest service deployment resolved s

/-- The store is asked for groups of the merged profiles: for all of them if the assembly succeeds,
and otherwise for those up to some group. -/
theorem calls_of_assembly (s : σ) : ∃ result s' gs namespaceName,
    (a.assemble service deployment resolved).outcome s = (result, s') ∧
    (a.observed.assemble service deployment resolved).outcome (s, []) = (result, (s',
      gs.map (Staging.request deployment.account service namespaceName))) ∧
    (gs = [] ∨ ∃ merged,
      Staging.mergeProfiles service (a.sidecarsOf service resolved) resolved = .ok merged ∧
      gs <+: Staging.groups deployment.stagingPath merged) ∧
    ∀ manifests, result = .ok manifests → ∃ merged,
      Staging.mergeProfiles service (a.sidecarsOf service resolved) resolved = .ok merged ∧
      gs = Staging.groups deployment.stagingPath merged := by
  rcases found : (a.assemble service deployment resolved).outcome s with ⟨e | manifests, s'⟩
  · obtain ⟨calls, watched⟩ := a.outcome_observed service deployment resolved s
    rw [found] at watched
    -- the calls are part of the state that the observed assembly leaves
    have state := a.observed.state_assemble service deployment resolved (s, [])
    rw [watched] at state
    rcases state with same | ⟨merged, settings, merging, -, same⟩
    · obtain ⟨rfl, rfl⟩ := Prod.mk.inj same
      exact ⟨_, _, [], "", rfl, watched, .inl rfl, fun _ ok => by cases ok⟩
    · obtain ⟨answer, t, asked, ended, -, seen⟩ := Staging.stageGroups_ends a.store
        deployment.account service settings.namespaceName
        (Staging.groups deployment.stagingPath merged) s []
      obtain ⟨rfl, rfl⟩ := Prod.mk.inj (same.trans (congrArg Prod.snd seen))
      obtain ⟨after, whole⟩ := ended.calls_prefix
      obtain ⟨gs, later, split, rfl, -⟩ := List.map_eq_append_iff.mp whole.symm
      exact ⟨_, _, gs, settings.namespaceName, rfl, watched,
        .inr ⟨merged, merging, later, split.symm⟩, fun _ ok => by cases ok⟩
  · obtain ⟨merged, settings, -, merging, asked⟩ := asked_of_assembly found
    exact ⟨_, s', _, settings.namespaceName, rfl, asked, .inr ⟨merged, merging, List.prefix_rfl⟩,
      fun _ _ => ⟨merged, merging, rfl⟩⟩

/-- The profiles that an assembly asks its store for, which are all that the service mounts if it
succeeds, are read from below the staging root just where the names of deployment and profile are
confined to it. -/
theorem handed_below_iff (a : Assembler σ) (d : Declaration) (root : Path) (plan : Plan)
    (e : Entry Service) (s : σ) (accepted : d.violation? = none) (ok : d.resolve root = .ok plan)
    (rules : a.rules = plan.rules) (declared : e ∈ d.services) :
    ∃ result s' calls handed required,
      (a.assemble e.subject plan.deployment plan.resolved).outcome s = (result, s') ∧
      (a.observed.assemble e.subject plan.deployment plan.resolved).outcome (s, []) =
        (result, (s', calls)) ∧
      Staging.HandsOver plan.deployment.stagingPath (d.stagedProfiles e) calls handed required ∧
      (∀ manifests, result = .ok manifests → handed.Perm (d.stagedProfiles e).values) ∧
      ∀ p ∈ handed,
        (p.stagedFile plan.deployment.stagingPath).LiesBelow plan.deployment.stagingRoot ↔
          Path.Confined plan.deployment.stagingRoot d.name p.name := by
  obtain ⟨result, s', gs, namespaceName, assembled, watched, led, all⟩ :=
    a.calls_of_assembly e.subject plan.deployment plan.resolved s
  rw [sidecarsOf_declared accepted ok rules declared] at led all
  have first : gs = (Staging.groups plan.deployment.stagingPath (d.stagedProfiles e)).take
      gs.length := by
    rcases led with rfl | ⟨merged, merging, led⟩
    · rfl
    · rw [← Declaration.merged_declared accepted ok declared merging]
      exact List.prefix_iff_eq_take.mp led
  obtain ⟨required, hands⟩ := Staging.handsOver_take plan.deployment.stagingPath
    (d.stagedProfiles e) plan.deployment.account e.subject namespaceName gs.length
  rw [← first] at hands
  refine ⟨result, s', _, _, required, assembled, watched, hands, fun manifests done => ?_,
    fun p _ => ?_⟩
  · obtain ⟨merged, merging, rfl⟩ := all manifests done
    rw [Declaration.merged_declared accepted ok declared merging, Staging.handed_all]
    exact Staging.perm_byDirectory _
  · have joined : plan.deployment.stagingPath = plan.deployment.stagingRoot.join d.name := by
      rw [Deployment.stagingPath, (Declaration.resolve_ok_iff.mp ok).2.1]
    rw [Profile.stagedFile, joined]
    exact Path.liesBelow_join_iff

end Assembler

section Straying

def absoluteProfile : Profile := profileAt "/tls/web.key" "/tls/web.key"

def climbingProfile : Profile := profileAt "../../tls/ca.pem" "/tls/ca.pem"

def strayingEntry : Entry Service :=
  { webEntry with
    profiles := [profileAt "web.yml" "/web/web.yml", absoluteProfile, climbingProfile] }

def strayingDeclaration : Declaration :=
  { sharingDeclaration with
    stagingRoot := some ⟨"staging"⟩, monitoring := none, services := [strayingEntry] }

def strayingPlan : Plan :=
  { deployment := ⟨.empty, ⟨"demo", "", .empty⟩, ⟨"staging"⟩⟩
    resolved :=
      { settings := Table.ofList [("web", completed "web" 8080)]
        profiles := Table.ofList [("web", Profile.byName strayingEntry.profiles)] }
    services := [strayingEntry.subject]
    monitoring := none }

def strayingAssembler : Assembler (List BundleRequest) :=
  { templates := .embedded, store := .recording, rules := strayingPlan.rules }

theorem straying_accepted : strayingDeclaration.violation? = none := by decide +kernel

theorem straying_resolved : strayingDeclaration.resolve ⟨"/home"⟩ = .ok strayingPlan := by rfl

theorem straying_assembled : ∃ manifests seen,
    (strayingAssembler.assemble strayingEntry.subject strayingPlan.deployment
      strayingPlan.resolved).outcome [] = (.ok manifests, seen) := by
  have alone : strayingAssembler.sidecarsOf strayingEntry.subject strayingPlan.resolved = [] := rfl
  have attached : ∀ s ∈ strayingAssembler.sidecarsOf strayingEntry.subject strayingPlan.resolved,
      ∃ own, strayingPlan.resolved.settingsFor s.service = .ok own := by
    rw [alone]
    exact List.forall_mem_nil _
  exact Assembler.recorded_assembly rfl rfl rfl attached rfl []

theorem straying_handed_below :
    strayingDeclaration.violation? = none ∧
    strayingDeclaration.resolve ⟨"/home"⟩ = .ok strayingPlan ∧
    strayingAssembler.rules = strayingPlan.rules ∧
    strayingEntry ∈ strayingDeclaration.services ∧
    ∃ manifests seen calls handed required,
      (strayingAssembler.observed.assemble strayingEntry.subject strayingPlan.deployment
        strayingPlan.resolved).outcome ([], []) = (.ok manifests, (seen, calls)) ∧
      Staging.HandsOver ⟨"staging/demo"⟩ (strayingDeclaration.stagedProfiles strayingEntry) calls
        handed required ∧
      ∀ p ∈ strayingEntry.profiles, p ∈ handed ∧
        ((p.stagedFile ⟨"staging/demo"⟩).LiesBelow ⟨"staging"⟩ ↔ p.name = "web.yml") := by
  obtain ⟨manifests, seen, assembled⟩ := straying_assembled
  obtain ⟨result, s', calls, handed, required, ended, watched, hands, all, below⟩ :=
    Assembler.handed_below_iff strayingAssembler strayingDeclaration ⟨"/home"⟩ strayingPlan
      strayingEntry [] straying_accepted straying_resolved rfl List.mem_cons_self
  obtain ⟨rfl, rfl⟩ := Prod.mk.inj (ended.symm.trans assembled)
  refine ⟨straying_accepted, straying_resolved, rfl, List.mem_cons_self, manifests, _, calls,
    handed, required, watched, hands, fun p member => ?_⟩
  have mounted : ∀ p ∈ strayingEntry.profiles,
      p ∈ (strayingDeclaration.stagedProfiles strayingEntry).values := by decide +kernel
  have confined : ∀ p ∈ strayingEntry.profiles,
      Path.Confined ⟨"staging"⟩ "demo" p.name ↔ p.name = "web.yml" := by decide +kernel
  have given := (all manifests rfl).mem_iff.mpr (mounted p member)
  exact ⟨given, (below p given).trans (confined p member)⟩

/-- Two of the profiles of one accepted declaration are read from outside the staging root. -/
theorem straying_profiles_outside :
    strayingDeclaration.violation? = none ∧
    strayingDeclaration.resolve ⟨"/home"⟩ = .ok strayingPlan ∧
    strayingEntry ∈ strayingDeclaration.services ∧
    ∃ manifests seen requests, (strayingAssembler.observed.assemble strayingEntry.subject
        strayingPlan.deployment strayingPlan.resolved).outcome ([], []) =
          (.ok manifests, (seen, requests)) ∧
      ∀ p ∈ [absoluteProfile, climbingProfile],
        Assembler.Requested requests ⟨"staging/demo"⟩ p ∧
        ¬ (p.stagedFile ⟨"staging/demo"⟩).LiesBelow ⟨"staging"⟩ := by
  obtain ⟨manifests, seen, assembled⟩ := straying_assembled
  obtain ⟨merged, settings, merging, watched⟩ := Assembler.requests_of_assembly assembled
  refine ⟨straying_accepted, straying_resolved, List.mem_cons_self, manifests, seen, _, watched,
    fun p member => ?_⟩
  obtain rfl : Profile.byName strayingEntry.profiles = merged := Except.ok.inj merging
  have mounted : ∀ p ∈ [absoluteProfile, climbingProfile],
      p ∈ (Profile.byName strayingEntry.profiles).values := by decide +kernel
  have outside : ∀ p ∈ [absoluteProfile, climbingProfile],
      ¬ (p.stagedFile ⟨"staging/demo"⟩).LiesBelow ⟨"staging"⟩ := by decide +kernel
  obtain ⟨g, inside, pair⟩ := Staging.exists_group ⟨"staging/demo"⟩ (mounted p member)
  exact ⟨⟨_, List.mem_map_of_mem inside, pair⟩, outside p member⟩

end Straying
end Stevedore
