import Stevedore.Proofs.Pod.Variables
import Stevedore.Proofs.SecretReferences

/-!
What stands behind the mounts of a pod. The volumes come from staging, from scratch directories, from
the settings and from config maps, each with ids of its own making, and of one id the first counts.
Where a volume is mounted plays no part in that.
-/
namespace Stevedore

namespace Assembler
variable {σ : Type} {staged : List ConfigSource} {settings : Settings}
  {custom : List CustomSidecar}

theorem nodup_ids_podSources (staged : List ConfigSource) (custom : List CustomSidecar) :
    ((podSources staged custom).map (·.id)).Nodup :=
  UniqueSources.nodup_ids_ofList (staged ++ scratchVolumes custom)

theorem nodup_ids_podVolumes (sources : List ConfigSource) (settings : Settings)
    (custom : List CustomSidecar) : ((podVolumes sources settings custom).map (·.id)).Nodup := by
  have coherent := UniqueSources.ofList_coherent sources
  have distinct := UniqueSources.nodup_ids_ofList sources
  have coherent' := UniqueSources.extend_coherent coherent settings.extras.volumes
  have distinct' := UniqueSources.nodup_ids_extend coherent distinct settings.extras.volumes
  exact UniqueSources.nodup_ids_extend coherent' distinct' (configMapVolumes custom)

theorem podSources_sublist (staged : List ConfigSource) (custom : List CustomSidecar) :
    (podSources staged custom).Sublist (staged ++ scratchVolumes custom) := by
  obtain ⟨kept, sub, held⟩ :=
    UniqueSources.sources_extend UniqueSources.empty (staged ++ scratchVolumes custom)
  have same : podSources staged custom = kept := held
  rwa [same]

theorem mem_scratchVolumes {v : ConfigSource} : v ∈ scratchVolumes custom ↔
    ∃ c ∈ custom, ∃ path ∈ c.scratchPath, v = .emptyDir c.name path := by
  simp [scratchVolumes, eq_comm]

theorem mem_ids_scratchVolumes {id : String} : id ∈ (scratchVolumes custom).map (·.id) ↔
    ∃ c ∈ custom, c.scratchPath ≠ none ∧ c.name = id := by
  simp only [List.mem_map, mem_scratchVolumes]
  constructor
  · rintro ⟨_, ⟨c, member, path, declared, rfl⟩, rfl⟩
    exact ⟨c, member, by simp [Option.mem_def.mp declared], rfl⟩
  · rintro ⟨c, member, declared, rfl⟩
    obtain ⟨path, found⟩ := Option.ne_none_iff_exists'.mp declared
    exact ⟨_, ⟨c, member, path, found, rfl⟩, rfl⟩

/-- The volume of an id is a config map unless something else of that id comes before. -/
theorem kind_offered {v : ConfigSource} {id : String}
    (secrets : ∀ v ∈ staged, v.kind = .secret)
    (found : (offered staged settings custom).find? (·.id = id) = some v) :
    v.kind = .configMap ↔ id ∉ staged.map (·.id) ∧
      (∀ c ∈ custom, c.scratchPath ≠ none → c.name ≠ id) ∧
      ∀ w, settings.extras.volumes.find? (·.id = id) = some w → w.kind = .configMap := by
  have scratch : (∀ c ∈ custom, c.scratchPath ≠ none → c.name ≠ id) ↔
      id ∉ (scratchVolumes custom).map (·.id) := by
    simp [mem_ids_scratchVolumes]
  rw [scratch, ← ConfigSource.find?_eq_none_iff, ← ConfigSource.find?_eq_none_iff]
  -- the volume is that of the first of the four sources to have one of the id
  rw [offered, List.find?_append, List.find?_append, List.find?_append] at found
  cases first : staged.find? (·.id = id) with
  | some w =>
    rw [first] at found
    obtain rfl := Option.some.inj found
    simp [secrets w (List.mem_of_find?_eq_some first)]
  | none =>
    rw [first, Option.none_or] at found
    cases second : (scratchVolumes custom).find? (·.id = id) with
    | some w =>
      rw [second] at found
      obtain rfl := Option.some.inj found
      simp [kind_scratch (List.mem_of_find?_eq_some second)]
    | none =>
      rw [second, Option.none_or] at found
      cases third : settings.extras.volumes.find? (·.id = id) with
      | some w =>
        rw [third] at found
        obtain rfl := Option.some.inj found
        simp
      | none =>
        rw [third, Option.none_or] at found
        simp [kind_configMap (List.mem_of_find?_eq_some found)]

/-- A scratch directory has the volume of its name unless something staged took the name. -/
theorem scratch_offered {v : ConfigSource} {c : CustomSidecar} {path : String}
    (secrets : ∀ v ∈ staged, v.kind = .secret) (distinct : (custom.map (·.name)).Nodup)
    (member : c ∈ custom) (declared : path ∈ c.scratchPath)
    (found : (offered staged settings custom).find? (·.id = c.name) = some v) :
    (v.kind = .emptyDir ↔ c.name ∉ staged.map (·.id)) ∧
      (v.kind = .emptyDir → v.mountPath = path) := by
  have held : c.name ∈ (scratchVolumes custom).map (·.id) :=
    mem_ids_scratchVolumes.mpr ⟨c, member, by simp [Option.mem_def.mp declared], rfl⟩
  rw [← ConfigSource.find?_eq_none_iff]
  rw [offered, List.find?_append, List.find?_append, List.find?_append] at found
  cases first : staged.find? (·.id = c.name) with
  | some w =>
    rw [first] at found
    obtain rfl := Option.some.inj found
    simp [secrets w (List.mem_of_find?_eq_some first)]
  | none =>
    rw [first, Option.none_or] at found
    cases second : (scratchVolumes custom).find? (·.id = c.name) with
    | none => exact absurd held (ConfigSource.find?_eq_none_iff.mp second)
    | some w =>
      rw [second] at found
      obtain rfl := Option.some.inj found
      obtain ⟨other, inside, path', declared', rfl⟩ :=
        mem_scratchVolumes.mp (List.mem_of_find?_eq_some second)
      have named : other.name = c.name := ConfigSource.id_of_find? second
      obtain rfl := List.inj_on_of_nodup_map distinct inside member named
      obtain rfl := Option.some.inj (declared'.symm.trans declared)
      exact ⟨by simp [ConfigSource.emptyDir], fun _ => rfl⟩

end Assembler

namespace Staging
variable {σ : Type}

theorem mountPath_sources {gs : List StagingGroup} {sources : List ConfigSource}
    (related : List.Forall₂ Gives gs sources) : gs.map (·.mountPath) = sources.map (·.mountPath) := by
  refine map_eq_of_forall₂ related fun g v given => ?_
  obtain ⟨name, rfl⟩ := given
  rfl

theorem mem_keys_byDirectory {profiles : Table Profile} {directory : String} :
    directory ∈ (byDirectory profiles).keys ↔
      ∃ p ∈ profiles.values, p.outputDirectory = directory := by
  constructor
  · intro held
    obtain ⟨e, member, rfl⟩ := List.mem_map.mp held
    obtain ⟨p, inside⟩ := List.exists_mem_of_ne_nil _ (ne_nil_of_byDirectory member)
    rw [members_eq member] at inside
    obtain ⟨f, filtered, rfl⟩ := List.mem_map.mp inside
    obtain ⟨held, there⟩ := List.mem_filter.mp filtered
    exact ⟨f.2, List.mem_map_of_mem held, of_decide_eq_true there⟩
  · rintro ⟨p, member, rfl⟩
    obtain ⟨members, found, -⟩ := found_byDirectory member
    exact List.mem_map.mpr ⟨_, Table.mem_entries_iff.mpr found, rfl⟩

/-- The directory of the first file that a profile requires. -/
def requiredDirectory (profiles : Table Profile) : Option String :=
  (profiles.values.flatMap (·.requiredFiles)).head?.map fun file => (⟨file⟩ : Path).directory

theorem mountPath_groups (stagingPath : Path) (profiles : Table Profile) :
    (groups stagingPath profiles).map (·.mountPath) =
      (byDirectory profiles).keys ++ (requiredDirectory profiles).toList := by
  rw [groups, List.map_append, List.map_map]
  congr 1
  rw [requiredFiles_eq, requiredDirectory]
  cases profiles.values.flatMap (·.requiredFiles) with
  | nil => rfl
  | cons first rest =>
    rw [List.eraseDups_cons]
    rfl

/-- What is staged are bundles of profiles, one for each directory, and then at most one of required
files. -/
theorem staged_split {stagingPath : Path} {profiles : Table Profile} {staged : List ConfigSource}
    (related : List.Forall₂ Gives (groups stagingPath profiles) staged) :
    ∃ bundles required, staged = bundles ++ required ∧
      bundles.map (·.mountPath) = (byDirectory profiles).keys ∧
      required.map (·.mountPath) = (requiredDirectory profiles).toList := by
  have paths := mountPath_sources related
  rw [mountPath_groups] at paths
  exact List.map_eq_append_iff.mp paths.symm

theorem shared_path {profiles : Table Profile} {bundles required : List ConfigSource}
    (directories : bundles.map (·.mountPath) = (byDirectory profiles).keys)
    (one : required.map (·.mountPath) = (requiredDirectory profiles).toList)
    {v w : ConfigSource} (first : v ∈ bundles ++ required) (second : w ∈ bundles ++ required)
    (different : v ≠ w) (same : v.mountPath = w.mountPath) :
    (v ∈ bundles ∧ w ∈ required) ∨ (v ∈ required ∧ w ∈ bundles) := by
  have distinct : (bundles.map (·.mountPath)).Nodup := by
    rw [directories]
    exact (byDirectory profiles).keys_nodup
  have alone : v ∈ required → w ∈ required → v = w := by
    intro here there
    cases directory : requiredDirectory profiles with
    | none =>
      rw [directory, Option.toList_none, List.map_eq_nil_iff] at one
      rw [one] at here
      contradiction
    | some path =>
      rw [directory, Option.toList_some, List.map_eq_singleton_iff] at one
      obtain ⟨only, rfl, -⟩ := one
      rw [List.mem_singleton.mp here, List.mem_singleton.mp there]
  rcases List.mem_append.mp first with bundle | file
  · rcases List.mem_append.mp second with bundle' | file'
    · exact absurd (List.inj_on_of_nodup_map distinct bundle bundle' same) different
    · exact .inl ⟨bundle, file'⟩
  · rcases List.mem_append.mp second with bundle' | file'
    · exact .inr ⟨file, bundle'⟩
    · exact absurd (alone file file') different

end Staging

namespace Assembler
variable {σ : Type} {a : Assembler σ} {d : Declaration} {root : Path} {plan : Plan}
  {e : Entry Service}

/-- How the deployment of a declared service came about, and what its extra volumes are. -/
theorem deployed_declared (accepted : d.violation? = none) (ok : d.resolve root = .ok plan)
    (declared : e ∈ d.services) {s s' : σ} {text : String}
    (deployed : (a.deploymentManifest e.subject plan.deployment plan.resolved).outcome s =
      (.ok text, s')) :
    ∃ settings staged pod merged,
      a.Deployed e.subject plan.deployment plan.resolved s settings staged pod text s' ∧
      settings.extras = e.settings.extras ∧
      Staging.mergeProfiles e.subject (a.sidecarsOf e.subject plan.resolved) plan.resolved =
        .ok merged ∧
      List.Forall₂ Staging.Gives (Staging.groups plan.deployment.stagingPath merged) staged := by
  obtain ⟨settings, staged, pod, made⟩ := deployed_of_ok deployed
  obtain ⟨own, completed, found⟩ :=
    Declaration.settingsFor_resolved accepted ok (List.mem_append_left _ declared)
  obtain rfl := Except.ok.inj (found.symm.trans made.found)
  obtain ⟨merged, merging, staging⟩ := Activity.outcome_lift_bind_ok.mp made.staging
  exact ⟨own, staged, pod, merged, made, (Settings.complete_keeps completed).2.2, merging,
    Staging.stageGroups_sources staging⟩

/-- The volumes behind the mounts of the custom sidecars of a declared service. A config map is
mounted from a config map unless something staged, a scratch directory or an extra volume of another
kind has its name; a scratch directory is an empty directory unless something staged has its name. -/
theorem sidecar_mounts_backed (a : Assembler σ) (d : Declaration) (root : Path) (plan : Plan)
    (e : Entry Service) (s s' : σ) (text : String) (accepted : d.violation? = none)
    (ok : d.resolve root = .ok plan) (declared : e ∈ d.services)
    (deployed : (a.deploymentManifest e.subject plan.deployment plan.resolved).outcome s =
      (.ok text, s')) :
    ∃ settings staged pod,
      a.Deployed e.subject plan.deployment plan.resolved s settings staged pod text s' ∧
      (pod.volumes.map (·.id)).Nodup ∧
      ∀ c ∈ d.environment.sidecarsFor e.subject.serviceType,
        (∀ m ∈ c.configMapMounts, ∃ v ∈ pod.volumes, v.id = m.configMapName ∧
          (v.kind = .configMap ↔ m.configMapName ∉ staged.map (·.id) ∧
            (∀ other ∈ d.environment.sidecarsFor e.subject.serviceType,
              other.scratchPath ≠ none → other.name ≠ m.configMapName) ∧
            ∀ w, e.settings.extras.volumes.find? (·.id = m.configMapName) = some w →
              w.kind = .configMap)) ∧
        (∀ path ∈ c.scratchPath, ∃ v ∈ pod.volumes, v.id = c.name ∧
          (v.kind = .emptyDir ↔ c.name ∉ staged.map (·.id)) ∧
          (v.kind = .emptyDir → v.mountPath = path)) := by
  obtain ⟨settings, staged, pod, merged, made, extras, -, related⟩ :=
    deployed_declared accepted ok declared deployed
  have secrets := Staging.kind_sources related
  have volumes := volumes_podOf made.made
  rw [Declaration.environment_resolved ok] at volumes
  have sidecars := Declaration.sidecars_accepted accepted e.subject.serviceType
  have distinct := (Declaration.distinct_sidecars sidecars).2
  have held {id : String} (member : id ∈ (offered staged settings
      (d.environment.sidecarsFor e.subject.serviceType)).map (·.id)) :
      ∃ v ∈ pod.volumes, v.id = id ∧ (offered staged settings
        (d.environment.sidecarsFor e.subject.serviceType)).find? (·.id = id) = some v := by
    obtain ⟨v, found⟩ := ConfigSource.exists_find? member
    have there : pod.volumes.find? (·.id = id) = some v := by
      rw [volumes, find?_podVolumes, found]
    exact ⟨v, List.mem_of_find?_eq_some there, ConfigSource.id_of_find? there, found⟩
  refine ⟨settings, staged, pod, made, volumes ▸ nodup_ids_podVolumes _ _ _, fun c member => ?_⟩
  rw [← extras]
  constructor
  · intro m mount
    have mine : m.configMapName ∈ (configMapVolumes [c]).map (·.id) := by
      simpa [configMapVolumes, ConfigSource.configMap] using ⟨m, mount, rfl⟩
    have map := configMapVolumes_subset member mine
    obtain ⟨v, inside, named, found⟩ := held (by
      rw [offered, List.map_append]
      exact List.mem_append_right _ map)
    exact ⟨v, inside, named, kind_offered secrets found⟩
  · intro path scratch
    have mine : c.name ∈ (scratchVolumes (d.environment.sidecarsFor e.subject.serviceType)).map
        (·.id) :=
      mem_ids_scratchVolumes.mpr ⟨c, member, by simp [Option.mem_def.mp scratch], rfl⟩
    obtain ⟨v, inside, named, found⟩ := held (by
      simp only [offered, List.map_append, List.mem_append]
      exact .inl (.inl (.inr mine)))
    exact ⟨v, inside, named, scratch_offered secrets distinct member scratch found⟩

/-- The sources that a declared service mounts, and which of them can be mounted over each other. The
bundles of profiles never are, and there is one bundle of required files at most. -/
theorem source_paths_apart (a : Assembler σ) (d : Declaration) (root : Path) (plan : Plan)
    (e : Entry Service) (s s' : σ) (text : String) (accepted : d.violation? = none)
    (ok : d.resolve root = .ok plan) (declared : e ∈ d.services)
    (deployed : (a.deploymentManifest e.subject plan.deployment plan.resolved).outcome s =
      (.ok text, s')) :
    ∃ settings staged pod merged bundles required,
      a.Deployed e.subject plan.deployment plan.resolved s settings staged pod text s' ∧
      Staging.mergeProfiles e.subject (a.sidecarsOf e.subject plan.resolved) plan.resolved =
        .ok merged ∧
      staged = bundles ++ required ∧ (bundles.map (·.mountPath)).Pairwise (· < ·) ∧
      (∀ path, path ∈ bundles.map (·.mountPath) ↔
        ∃ p ∈ merged.values, p.outputDirectory = path) ∧
      required.map (·.mountPath) = (Staging.requiredDirectory merged).toList ∧
      let scratch := scratchVolumes (d.environment.sidecarsFor e.subject.serviceType)
      let sources := podSources staged (d.environment.sidecarsFor e.subject.serviceType)
      (sources.map (·.id)).Nodup ∧ sources.Sublist (staged ++ scratch) ∧
      (∃ primary ∈ pod.containers.head?, primary.volumeMounts =
        (sources ++ e.settings.extras.volumes).map fun v => ⟨v.id, v.mountPath⟩) ∧
      ∀ v ∈ sources, ∀ w ∈ sources, v ≠ w → v.mountPath = w.mountPath →
        v ∈ scratch ∨ w ∈ scratch ∨ (v ∈ bundles ∧ w ∈ required) ∨
          (v ∈ required ∧ w ∈ bundles) := by
  obtain ⟨settings, staged, pod, merged, made, extras, merging, related⟩ :=
    deployed_declared accepted ok declared deployed
  obtain ⟨bundles, required, rfl, directories, one⟩ := Staging.staged_split related
  obtain ⟨attached, -, containers⟩ := containers_podOf made.made
  rw [Declaration.environment_resolved ok] at containers
  have ascending : (bundles.map (·.mountPath)).Pairwise (· < ·) := by
    rw [directories]
    exact List.pairwise_map.mpr (Staging.byDirectory merged).sorted
  have sub := podSources_sublist (bundles ++ required)
    (d.environment.sidecarsFor e.subject.serviceType)
  refine ⟨settings, _, pod, merged, bundles, required, made, merging, rfl, ascending, ?_, one,
    nodup_ids_podSources _ _, sub, ⟨_, by rw [containers]; rfl, ?_⟩, ?_⟩
  · intro path
    rw [directories, Staging.mem_keys_byDirectory]
  · rw [← extras]
    rfl
  · intro v held w held' different same
    rcases List.mem_append.mp (sub.subset held) with first | scratch
    · rcases List.mem_append.mp (sub.subset held') with second | scratch
      · exact .inr (.inr (Staging.shared_path directories one first second different same))
      · exact .inr (.inl scratch)
    · exact .inl scratch

end Assembler

section Crowded

def crowdedExtras : PodExtras := ⟨[], [.secret "proxy-config" "/etc/web" .empty], .empty⟩

def crowdedEntry : Entry Service :=
  { webEntry with
    settings := { Settings.listening 8080 with extras := crowdedExtras }
    profiles := [⟨"web.yml", "keys/web.yml", .empty, ["keys/web.key"]⟩] }

/-- The first three of its config maps have names that are taken. -/
def proxySidecar : CustomSidecar :=
  { crewSidecar "proxy" "proxy:1" with
    configMapMounts := [⟨"proxy-config", "/etc/proxy"⟩, ⟨"shipper", "/etc/shipper"⟩,
      ⟨"web-files-1", "/etc/files"⟩, ⟨"proxy-rules", "/etc/rules"⟩]
    mountPath := some "keys" }

def crowdedSidecars : List CustomSidecar :=
  [proxySidecar, { crewSidecar "shipper" "ship:2" with mountPath := some "keys" },
    { crewSidecar "web-files-2" "files:1" with mountPath := some "/scratch" }]

def crowdedEnvironment : Environment :=
  { Environment.empty with sidecars := Table.ofList [("web", crowdedSidecars)] }

def crowdedDeclaration : Declaration :=
  { sharingDeclaration with
    monitoring := none, services := [crowdedEntry], environment := crowdedEnvironment }

def crowdedSettings : Settings := { completed "web" 8080 with extras := crowdedExtras }

def crowdedPlan : Plan :=
  { deployment := ⟨.empty, ⟨"demo", "", crowdedEnvironment⟩, ⟨"/staging"⟩⟩
    resolved := ⟨Table.ofList [("web", crowdedSettings)],
      Table.ofList [("web", Profile.byName crowdedEntry.profiles)]⟩
    services := [crowdedEntry.subject]
    monitoring := none }

def crowdedAssembler : Assembler (List BundleRequest) := ⟨.embedded, .recording, crowdedPlan.rules⟩

def crowdedStaged : List ConfigSource :=
  [.secret "web-files-1" "keys" .empty, .secret "web-files-2" "keys" .empty]

theorem crowded_accepted : crowdedDeclaration.violation? = none := by decide +kernel

theorem crowded_resolved : crowdedDeclaration.resolve ⟨"/staging"⟩ = .ok crowdedPlan := by rfl

theorem crowded_deployed : ∃ text seen,
    (crowdedAssembler.deploymentManifest crowdedEntry.subject crowdedPlan.deployment
      crowdedPlan.resolved).outcome [] = (.ok text, seen) := by
  have alone : crowdedAssembler.sidecarsOf crowdedEntry.subject crowdedPlan.resolved = [] := rfl
  have attached : ∀ s ∈ crowdedAssembler.sidecarsOf crowdedEntry.subject crowdedPlan.resolved,
      ∃ own, crowdedPlan.resolved.settingsFor s.service = .ok own := by
    rw [alone]
    exact List.forall_mem_nil _
  exact Assembler.recorded_deployment rfl rfl rfl attached rfl []

theorem crowded_made {settings : Settings} {staged : List ConfigSource} {pod : Pod} {text : String}
    {seen : List BundleRequest}
    (made : crowdedAssembler.Deployed crowdedEntry.subject crowdedPlan.deployment
      crowdedPlan.resolved [] settings staged pod text seen) :
    settings = crowdedSettings ∧ staged = crowdedStaged ∧
      pod.volumes = crowdedStaged ++ [.emptyDir "proxy" "keys", .emptyDir "shipper" "keys",
        .secret "proxy-config" "/etc/web" .empty, .configMap "proxy-rules" "/etc/rules"] := by
  obtain rfl : crowdedSettings = settings := Except.ok.inj made.found
  obtain rfl : crowdedStaged = staged := Except.ok.inj (congrArg Prod.fst made.staging)
  refine ⟨rfl, rfl, ?_⟩
  rw [Assembler.volumes_podOf made.made]
  decide +kernel

theorem crowded_mounts_backed :
    crowdedDeclaration.violation? = none ∧
    crowdedDeclaration.resolve ⟨"/staging"⟩ = .ok crowdedPlan ∧
    crowdedEntry ∈ crowdedDeclaration.services ∧
    ∃ text seen, (crowdedAssembler.deploymentManifest crowdedEntry.subject crowdedPlan.deployment
        crowdedPlan.resolved).outcome [] = (.ok text, seen) ∧
      ∃ settings staged pod, crowdedAssembler.Deployed crowdedEntry.subject crowdedPlan.deployment
          crowdedPlan.resolved [] settings staged pod text seen ∧
        (∃ v ∈ pod.volumes, v.id = "proxy-rules" ∧ v.kind = .configMap) ∧
        (∃ v ∈ pod.volumes, v.id = "shipper" ∧ v.kind ≠ .configMap) ∧
        ∃ v ∈ pod.volumes, v.id = "proxy" ∧ v.kind = .emptyDir ∧ v.mountPath = "keys" := by
  obtain ⟨text, seen, deployed⟩ := crowded_deployed
  obtain ⟨settings, staged, pod, made, -, backed⟩ := Assembler.sidecar_mounts_backed
    crowdedAssembler crowdedDeclaration ⟨"/staging"⟩ crowdedPlan crowdedEntry [] seen text
    crowded_accepted crowded_resolved List.mem_cons_self deployed
  obtain ⟨-, rfl, -⟩ := crowded_made made
  obtain ⟨maps, scratch⟩ := backed proxySidecar (by decide +kernel)
  obtain ⟨rules, inside, named, kind⟩ := maps ⟨"proxy-rules", "/etc/rules"⟩ (by decide)
  obtain ⟨shipper, inside', named', kind'⟩ := maps ⟨"shipper", "/etc/shipper"⟩ (by decide)
  obtain ⟨own, inside₂, named₂, free, path⟩ := scratch "keys" (by decide +kernel)
  have empty := free.mpr (by decide)
  refine ⟨crowded_accepted, crowded_resolved, List.mem_cons_self, text, seen, deployed, settings,
    crowdedStaged, pod, made, ⟨rules, inside, named, ?_⟩, ⟨shipper, inside', named', ?_⟩,
    own, inside₂, named₂, empty, path empty⟩
  · exact kind.mpr ⟨by decide, by decide +kernel, by decide⟩
  · intro map
    exact absurd (kind'.mp map).2.1 (by decide +kernel)

/-- Three config maps are not mounted from config maps, and one scratch directory is a secret. -/
theorem crowded_mounts_misled :
    crowdedDeclaration.violation? = none ∧
    crowdedDeclaration.resolve ⟨"/staging"⟩ = .ok crowdedPlan ∧
    crowdedEntry ∈ crowdedDeclaration.services ∧
    ∃ text seen, (crowdedAssembler.deploymentManifest crowdedEntry.subject crowdedPlan.deployment
        crowdedPlan.resolved).outcome [] = (.ok text, seen) ∧
      ∃ settings staged pod, crowdedAssembler.Deployed crowdedEntry.subject crowdedPlan.deployment
          crowdedPlan.resolved [] settings staged pod text seen ∧
        ∃ sidecars, crowdedDeclaration.environment.sidecarsFor "web" = sidecars ∧
          (∃ c ∈ sidecars, ∀ id ∈ ["proxy-config", "shipper", "web-files-1"],
            id ∈ c.configMapMounts.map (·.configMapName) ∧
              ∀ v ∈ pod.volumes, v.id = id → v.kind ≠ .configMap) ∧
          ∃ c ∈ sidecars, c.scratchPath ≠ none ∧
            ∀ v ∈ pod.volumes, v.id = c.name → v.kind ≠ .emptyDir := by
  obtain ⟨text, seen, deployed⟩ := crowded_deployed
  obtain ⟨settings, staged, pod, made⟩ := Assembler.deployed_of_ok deployed
  obtain ⟨rfl, rfl, volumes⟩ := crowded_made made
  refine ⟨crowded_accepted, crowded_resolved, List.mem_cons_self, text, seen, deployed, _, _, pod,
    made, crowdedSidecars, rfl, ⟨proxySidecar, List.mem_cons_self, ?_⟩,
    { crewSidecar "web-files-2" "files:1" with mountPath := some "/scratch" }, ?_⟩
  · rw [volumes]
    decide
  · rw [volumes]
    decide +kernel

theorem crowded_paths_apart :
    crowdedDeclaration.violation? = none ∧
    crowdedDeclaration.resolve ⟨"/staging"⟩ = .ok crowdedPlan ∧
    crowdedEntry ∈ crowdedDeclaration.services ∧
    ∃ text seen, (crowdedAssembler.deploymentManifest crowdedEntry.subject crowdedPlan.deployment
        crowdedPlan.resolved).outcome [] = (.ok text, seen) ∧
      ∃ settings pod, crowdedAssembler.Deployed crowdedEntry.subject crowdedPlan.deployment
          crowdedPlan.resolved [] settings crowdedStaged pod text seen ∧
        ∃ bundles required, crowdedStaged = bundles ++ required ∧
          (bundles.map (·.mountPath)).Pairwise (· < ·) ∧ required.map (·.mountPath) = ["keys"] ∧
          (∀ v ∈ crowdedStaged, ∀ w ∈ crowdedStaged, v ≠ w → v.mountPath = w.mountPath →
            (v ∈ bundles ∧ w ∈ required) ∨ (v ∈ required ∧ w ∈ bundles)) := by
  obtain ⟨text, seen, deployed⟩ := crowded_deployed
  obtain ⟨settings, staged, pod, merged, bundles, required, made, merging, split, ascending, -, one,
    -, -, -, clash⟩ := Assembler.source_paths_apart crowdedAssembler crowdedDeclaration
      ⟨"/staging"⟩ crowdedPlan crowdedEntry [] seen text crowded_accepted crowded_resolved
      List.mem_cons_self deployed
  obtain ⟨-, rfl, -⟩ := crowded_made made
  obtain rfl : Profile.byName crowdedEntry.profiles = merged := Except.ok.inj merging
  have directory : (Staging.requiredDirectory (Profile.byName crowdedEntry.profiles)).toList =
      ["keys"] := by decide +kernel
  refine ⟨crowded_accepted, crowded_resolved, List.mem_cons_self, text, seen, deployed, settings,
    pod, made, bundles, required, split, ascending, one.trans directory, ?_⟩
  have source : ∀ v ∈ crowdedStaged, v ∈ Assembler.podSources crowdedStaged
      (crowdedDeclaration.environment.sidecarsFor crowdedEntry.subject.serviceType) ∧
      v ∉ scratchVolumes (crowdedDeclaration.environment.sidecarsFor
        crowdedEntry.subject.serviceType) := by decide +kernel
  intro v held w held' different same
  have first := source v held
  have second := source w held'
  rcases clash v first.1 w second.1 different same with scratch | scratch | shared
  · exact absurd scratch first.2
  · exact absurd scratch second.2
  · exact shared

/-- The bundle of the profile, that of its required file and two scratch directories are all mounted
at one path. -/
theorem crowded_paths_shared :
    crowdedDeclaration.violation? = none ∧
    crowdedDeclaration.resolve ⟨"/staging"⟩ = .ok crowdedPlan ∧
    crowdedEntry ∈ crowdedDeclaration.services ∧
    ∃ text seen, (crowdedAssembler.deploymentManifest crowdedEntry.subject crowdedPlan.deployment
        crowdedPlan.resolved).outcome [] = (.ok text, seen) ∧
      ∃ settings staged pod, crowdedAssembler.Deployed crowdedEntry.subject crowdedPlan.deployment
          crowdedPlan.resolved [] settings staged pod text seen ∧
        Assembler.podSources staged (crowdedDeclaration.environment.sidecarsFor "web") =
          [.secret "web-files-1" "keys" .empty, .secret "web-files-2" "keys" .empty,
            .emptyDir "proxy" "keys", .emptyDir "shipper" "keys"] ∧
        ¬ ∀ v ∈ Assembler.podSources staged (crowdedDeclaration.environment.sidecarsFor "web"),
          ∀ w ∈ Assembler.podSources staged (crowdedDeclaration.environment.sidecarsFor "web"),
            v ≠ w → v.mountPath ≠ w.mountPath := by
  obtain ⟨text, seen, deployed⟩ := crowded_deployed
  obtain ⟨settings, staged, pod, made⟩ := Assembler.deployed_of_ok deployed
  obtain ⟨rfl, rfl, -⟩ := crowded_made made
  have sources : Assembler.podSources crowdedStaged
      (crowdedDeclaration.environment.sidecarsFor "web") =
        [.secret "web-files-1" "keys" .empty, .secret "web-files-2" "keys" .empty,
          .emptyDir "proxy" "keys", .emptyDir "shipper" "keys"] := by decide +kernel
  refine ⟨crowded_accepted, crowded_resolved, List.mem_cons_self, text, seen, deployed, _, _, pod,
    made, sources, ?_⟩
  rw [sources]
  decide

end Crowded
end Stevedore
