import Stevedore.Assembly
import Stevedore.Proofs.Activity
import Stevedore.Proofs.Pod.Rendering

/-! What the manifests of a service are made of. With the embedded templates no rendering fails, so
that a service whose pod is made has manifests. -/
namespace Stevedore
open Json Manifest Template

theorem rendered_namespace (namespaceName : String) : ∃ text,
    TemplateSet.embedded.render .namespaceManifest [("namespace", .text namespaceName)] =
      .ok text := by
  apply Exists.intro
  apply render_of_shows
  apply shows_text
  exact shows_json _ (find_of _ _) shows_nil

theorem rendered_service (name namespaceName : String) (port : Json) : ∃ text,
    TemplateSet.embedded.render .serviceManifest
      [("name", .text name), ("namespace", .text namespaceName), ("port", port)] = .ok text := by
  apply Exists.intro
  apply render_of_shows
  iterate 7
    apply shows_text
    apply shows_json _ (find_of _ _)
  exact shows_text _ shows_nil

theorem rendered_deployment (name namespaceName version podSpec : String)
    (replicas annotations : Json) : ∃ text,
    TemplateSet.embedded.render .deploymentManifest
      [("name", .text name), ("namespace", .text namespaceName), ("replicas", replicas),
        ("version", .text version), ("podAnnotations", annotations),
        ("podSpec", .text podSpec)] = .ok text := by
  apply Exists.intro
  apply render_of_shows
  iterate 13
    apply shows_text
    apply shows_json _ (find_of _ _)
  apply shows_text
  exact shows_inline _ (by decide) (find_of _ _) shows_nil

theorem Rendered.ok {result : Except TemplateError String} {v : Json} (rendered : Rendered result v) :
    ∃ text, result = .ok text := by
  obtain ⟨text, ok, -⟩ := rendered
  exact ⟨text, ok⟩

theorem optional_rendered {α : Type} {render : α → Except TemplateError String}
    (ok : ∀ a, ∃ text, render a = .ok text) (value : Option α) :
    ∃ part, renderOptional render value = .ok part := by
  cases value with
  | none => exact ⟨none, rfl⟩
  | some a =>
    obtain ⟨text, done⟩ := ok a
    refine ⟨some text, ?_⟩
    rw [renderOptional, done]
    rfl

theorem resources_rendered (r : Resources) :
    ∃ text, TemplateSet.embedded.renderResources r = .ok text := by
  apply Exists.intro
  apply render_of_shows
  iterate 2
    apply shows_text
    apply shows_json _ (find_of _ _)
  exact shows_text _ shows_nil

/-- A container is rendered even if what it holds is no JSON that could be read back. -/
theorem container_rendered (c : Container) :
    ∃ text, TemplateSet.embedded.renderContainer c = .ok text := by
  obtain ⟨mounts, mountsOk⟩ :=
    exists_except_mapM fun m (_ : m ∈ c.volumeMounts) => (rendered_mount m).ok
  obtain ⟨port, portOk⟩ := optional_rendered (fun p => (rendered_port p).ok) c.port
  obtain ⟨probe, probeOk⟩ := optional_rendered (fun p => (rendered_probe p).ok) c.probe
  obtain ⟨preStop, preStopOk⟩ := optional_rendered (fun p => (rendered_preStop p).ok) c.preStop
  obtain ⟨resources, resourcesOk⟩ := optional_rendered resources_rendered c.resources
  obtain ⟨security, securityOk⟩ :=
    optional_rendered (fun s => (rendered_security s).ok) c.securityContext
  have whole := render_of_shows (shows_container c fun name =>
    find_of (containerBindings c mounts port probe preStop resources security) name)
  rw [TemplateSet.renderContainer, mountsOk, ok_bind, portOk, ok_bind, probeOk, ok_bind, preStopOk,
    ok_bind, resourcesOk, ok_bind, securityOk, ok_bind]
  exact ⟨_, whole⟩

theorem pod_rendered (p : Pod) : ∃ text, TemplateSet.embedded.renderPod p = .ok text := by
  obtain ⟨containers, containersOk⟩ :=
    exists_except_mapM fun c (_ : c ∈ p.containers) => container_rendered c
  obtain ⟨volumes, volumesOk⟩ :=
    exists_except_mapM fun s (_ : s ∈ p.volumes) => (rendered_volume s).ok
  have whole := render_of_shows (shows_pod p fun name =>
    find_of (podBindings p containers volumes) name)
  rw [TemplateSet.renderPod, containersOk, ok_bind, volumesOk, ok_bind]
  exact ⟨_, whole⟩

/-- What operators add to pods can be written as JSON. -/
structure Environment.WellFormed (e : Environment) : Prop where
  quantities : ∀ table ∈ e.sizing, ∀ sizing ∈ table.values,
    (ofTable sizing.requests).WellFormed ∧ (ofTable sizing.limits).WellFormed
  initContainers : ∀ serviceType, ∀ v ∈ e.initContainersFor serviceType, v.WellFormed
  hostAliases : ∀ serviceType, ∀ v ∈ e.hostAliasesFor serviceType, v.WellFormed

theorem exactly_compact {v : Json} (formed : v.WellFormed) : exactly? v.compact = some v :=
  exactly_of_spells (spells_write v formed)

theorem rawEntries_exact {entries : List Json} (formed : ∀ v ∈ entries, v.WellFormed) :
    ∀ text ∈ (rawEntries entries).getD [], (exactly? text).isSome := by
  intro text member
  unfold rawEntries at member
  split at member
  · contradiction
  · obtain ⟨v, held, rfl⟩ := List.mem_map.mp member
    rw [exactly_compact (formed v held)]
    rfl

theorem container_wellFormed {host : Service} {sizing : Option SizingTable}
    (formed : ∀ table ∈ sizing, ∀ sizing ∈ table.values,
      (ofTable sizing.requests).WellFormed ∧ (ofTable sizing.limits).WellFormed)
    (name : String) (settings : Settings) (sources : List ConfigSource) (env : Table String) :
    (Container.ofService host sizing name settings sources env).WellFormed := by
  intro r set
  change r ∈ Resources.of sizing name host.serviceType at set
  obtain ⟨found, looked, some_⟩ := Option.bind_eq_some_iff.mp set
  obtain ⟨table, held, looked⟩ := Option.bind_eq_some_iff.mp looked
  have member : found ∈ table.values := by
    rcases Option.or_eq_some_iff.mp looked with own | ⟨-, shared⟩
    · exact Table.mem_values_iff.mpr ⟨_, own⟩
    · exact Table.mem_values_iff.mpr ⟨_, shared⟩
  split at some_
  · contradiction
  · obtain rfl := Option.some.inj some_
    exact formed table held found member

theorem fromTemplate_ok (text : String) : fromTemplate (.ok text) = .ok text := rfl

namespace Staging

/-- A store that keeps its requests refuses none of them. -/
theorem recording_stages {host : Service} {sidecars : List SidecarService} {resolved : Resolved}
    {merged : Table Profile} (merging : mergeProfiles host sidecars resolved = .ok merged)
    (account : Account) (stagingPath : Path) (namespaceName : String)
    (seen : List BundleRequest) : ∃ staged seen',
      (stage .recording account host sidecars resolved stagingPath namespaceName).outcome seen =
        (.ok staged, seen') := by
  have each (gs : List StagingGroup) : ∀ seen, ∃ staged seen',
      (gs.mapM (stageGroup .recording account host namespaceName) :
        Activity (List BundleRequest) _).outcome seen = (.ok staged, seen') := by
    induction gs with
    | nil => exact fun seen => ⟨[], seen, rfl⟩
    | cons g rest ih =>
      intro seen
      obtain ⟨staged, seen', later⟩ := ih (seen ++ [request account host namespaceName g])
      exact ⟨_, seen', Activity.outcome_mapM_cons_ok.mpr ⟨_, _, staged, rfl, later, rfl⟩⟩
  obtain ⟨staged, seen', made⟩ := each (groups stagingPath merged) seen
  exact ⟨staged, seen', Activity.outcome_lift_bind_ok.mpr ⟨merged, merging, made⟩⟩

end Staging

namespace Assembler
variable {σ : Type} {a : Assembler σ} {service : Service} {settings : Settings}
  {deployment : Deployment} {resolved : Resolved}

theorem deployment_rendered (service : Service) (settings : Settings) (deployment : Deployment)
    (embedded : a.templates = .embedded) (pod : Pod) :
    ∃ text, a.renderDeployment service settings deployment pod = .ok text := by
  obtain ⟨podText, podOk⟩ := pod_rendered pod
  obtain ⟨text, ok⟩ := rendered_deployment service.canonicalName settings.namespaceName
    (Label.ofVersion deployment.configuration.version) podText
    (.integer (deployment.replicasFor service.serviceType settings).toNat)
    (.textTable settings.extras.annotations)
  refine ⟨text, ?_⟩
  simp only [renderDeployment, embedded, podOk, fromTemplate_ok, ok_bind, ok]

theorem quantities_podOf
    (formed : ∀ table ∈ deployment.sizing, ∀ sizing ∈ table.values,
      (ofTable sizing.requests).WellFormed ∧ (ofTable sizing.limits).WellFormed)
    {sidecars : List SidecarService} {staged : List ConfigSource} {pod : Pod}
    (made : podOf service settings deployment resolved sidecars staged = .ok pod) :
    ∀ c ∈ pod.containers, c.WellFormed := by
  obtain ⟨attached, containers, same⟩ := except_bind_ok.mp made
  obtain rfl := Except.ok.inj same
  intro c member
  rw [List.mem_append, List.mem_cons] at member
  rcases member with (rfl | member) | member
  · exact container_wellFormed formed _ _ _ _
  · obtain ⟨sidecar, -, own⟩ := (mem_except_mapM_ok containers c).mp member
    obtain ⟨settings, -, same⟩ := except_bind_ok.mp own
    obtain rfl := Except.ok.inj same
    exact container_wellFormed formed _ _ _ _
  · obtain ⟨sidecar, -, rfl⟩ := List.mem_map.mp member
    intro r set
    contradiction

theorem podOf_wellFormed (formed : deployment.environment.WellFormed)
    {sidecars : List SidecarService} {staged : List ConfigSource} {pod : Pod}
    (made : podOf service settings deployment resolved sidecars staged = .ok pod) :
    pod.WellFormed := by
  have quantities := quantities_podOf formed.quantities made
  obtain ⟨attached, -, same⟩ := except_bind_ok.mp made
  obtain rfl := Except.ok.inj same
  exact ⟨quantities, rawEntries_exact (formed.initContainers _),
    rawEntries_exact (formed.hostAliases _)⟩

/-- A deployment is made of settings, staged sources, a pod and its text, and only staging changes
the state. -/
theorem deployment_ok_iff {s s' : σ} {text : String} :
    (a.deploymentManifest service deployment resolved).outcome s = (.ok text, s') ↔
      ∃ settings staged pod, resolved.settingsFor service = .ok settings ∧
        (Staging.stage a.store deployment.account service (a.sidecarsOf service resolved) resolved
          deployment.stagingPath settings.namespaceName).outcome s = (.ok staged, s') ∧
        podOf service settings deployment resolved (a.sidecarsOf service resolved) staged = .ok pod ∧
        a.renderDeployment service settings deployment pod = .ok text := by
  constructor
  · intro ok
    obtain ⟨settings, found, ok⟩ := Activity.outcome_lift_bind_ok.mp ok
    obtain ⟨pod, t, prepared, rendering⟩ := Activity.outcome_bind_ok.mp ok
    obtain ⟨staged, u, staging, made⟩ := Activity.outcome_bind_ok.mp prepared
    rw [Activity.outcome_lift, Prod.mk.injEq] at made rendering
    obtain ⟨made, rfl⟩ := made
    obtain ⟨rendering, rfl⟩ := rendering
    exact ⟨settings, staged, pod, found, staging, made, rendering⟩
  · rintro ⟨settings, staged, pod, found, staging, made, rendering⟩
    refine Activity.outcome_lift_bind_ok.mpr ⟨settings, found, ?_⟩
    refine Activity.outcome_bind_ok.mpr ⟨pod, s', ?_, ?_⟩
    · refine Activity.outcome_bind_ok.mpr ⟨staged, s', staging, ?_⟩
      rw [made, Activity.outcome_lift]
    · rw [rendering, Activity.outcome_lift]

/-- How a deployment came about: from which settings, sources and pod its text was made. -/
structure Deployed (a : Assembler σ) (service : Service) (deployment : Deployment)
    (resolved : Resolved) (s : σ) (settings : Settings) (staged : List ConfigSource) (pod : Pod)
    (text : String) (s' : σ) : Prop where
  found : resolved.settingsFor service = .ok settings
  staging : (Staging.stage a.store deployment.account service (a.sidecarsOf service resolved)
    resolved deployment.stagingPath settings.namespaceName).outcome s = (.ok staged, s')
  made : podOf service settings deployment resolved (a.sidecarsOf service resolved) staged = .ok pod
  rendered : a.renderDeployment service settings deployment pod = .ok text

theorem deployed_of_ok {s s' : σ} {text : String}
    (ok : (a.deploymentManifest service deployment resolved).outcome s = (.ok text, s')) :
    ∃ settings staged pod, a.Deployed service deployment resolved s settings staged pod text s' := by
  obtain ⟨settings, staged, pod, found, staging, made, rendered⟩ := deployment_ok_iff.mp ok
  exact ⟨settings, staged, pod, found, staging, made, rendered⟩

/-- The manifests of a service hold its deployment. -/
theorem deployment_of_assembly {s s' : σ} {manifests : ServiceManifests}
    (ok : (a.assemble service deployment resolved).outcome s = (.ok manifests, s')) :
    (a.deploymentManifest service deployment resolved).outcome s =
      (.ok manifests.deploymentYaml, s') := by
  obtain ⟨settings, -, ok⟩ := Activity.outcome_lift_bind_ok.mp ok
  obtain ⟨namespaceYaml, -, ok⟩ := Activity.outcome_lift_bind_ok.mp ok
  obtain ⟨serviceYaml, -, ok⟩ := Activity.outcome_lift_bind_ok.mp ok
  obtain ⟨text, t, made, same⟩ := Activity.outcome_bind_ok.mp ok
  rw [Activity.outcome_pure, Prod.mk.injEq, Except.ok.injEq] at same
  obtain ⟨rfl, rfl⟩ := same
  exact made

/-- The manifests of a service are of the namespace that its settings name. -/
theorem settings_of_assembly {s s' : σ} {manifests : ServiceManifests}
    (ok : (a.assemble service deployment resolved).outcome s = (.ok manifests, s')) :
    ∃ settings, resolved.settingsFor service = .ok settings ∧
      manifests.namespaceName = settings.namespaceName := by
  obtain ⟨settings, found, ok⟩ := Activity.outcome_lift_bind_ok.mp ok
  obtain ⟨namespaceYaml, -, ok⟩ := Activity.outcome_lift_bind_ok.mp ok
  obtain ⟨serviceYaml, -, ok⟩ := Activity.outcome_lift_bind_ok.mp ok
  obtain ⟨text, t, -, same⟩ := Activity.outcome_bind_ok.mp ok
  rw [Activity.outcome_pure, Prod.mk.injEq, Except.ok.injEq] at same
  obtain ⟨rfl, -⟩ := same
  exact ⟨settings, found, rfl⟩

/-- What a deployment needs: settings, bundles and a pod. -/
theorem deployment_made (embedded : a.templates = .embedded)
    (found : resolved.settingsFor service = .ok settings) {staged : List ConfigSource} {s s' : σ}
    (staging : (Staging.stage a.store deployment.account service (a.sidecarsOf service resolved)
      resolved deployment.stagingPath settings.namespaceName).outcome s = (.ok staged, s'))
    {pod : Pod} (made : podOf service settings deployment resolved (a.sidecarsOf service resolved)
      staged = .ok pod) :
    ∃ text, (a.deploymentManifest service deployment resolved).outcome s = (.ok text, s') := by
  obtain ⟨text, rendering⟩ := deployment_rendered service settings deployment embedded pod
  exact ⟨text, deployment_ok_iff.mpr ⟨settings, staged, pod, found, staging, made, rendering⟩⟩

/-- A service whose deployment can be made has manifests. -/
theorem assembly_made (embedded : a.templates = .embedded)
    (found : resolved.settingsFor service = .ok settings) {staged : List ConfigSource} {s s' : σ}
    (staging : (Staging.stage a.store deployment.account service (a.sidecarsOf service resolved)
      resolved deployment.stagingPath settings.namespaceName).outcome s = (.ok staged, s'))
    {pod : Pod} (made : podOf service settings deployment resolved (a.sidecarsOf service resolved)
      staged = .ok pod) :
    ∃ manifests, (a.assemble service deployment resolved).outcome s = (.ok manifests, s') := by
  obtain ⟨namespaceYaml, namespaceOk⟩ := rendered_namespace settings.namespaceName
  obtain ⟨serviceYaml, serviceOk⟩ := rendered_service service.canonicalName settings.namespaceName
    (.integer settings.port.toNat)
  obtain ⟨text, deployed⟩ := deployment_made embedded found staging made
  refine ⟨⟨service.canonicalName, settings.namespaceName, namespaceYaml, serviceYaml, text⟩, ?_⟩
  refine Activity.outcome_lift_bind_ok.mpr ⟨settings, found, ?_⟩
  refine Activity.outcome_lift_bind_ok.mpr ⟨namespaceYaml, ?_, ?_⟩
  · simp only [namespaceManifest, found, embedded, ok_bind, namespaceOk, fromTemplate_ok]
  refine Activity.outcome_lift_bind_ok.mpr ⟨serviceYaml, ?_, ?_⟩
  · simp only [serviceManifest, found, embedded, ok_bind, serviceOk, fromTemplate_ok]
  exact Activity.outcome_bind_ok.mpr ⟨text, s', deployed, rfl⟩

/-- What keeps a service from being staged keeps it from being assembled. -/
theorem assembly_of_unstaged (embedded : a.templates = .embedded)
    (found : resolved.settingsFor service = .ok settings) {s s' : σ} {e : DeployError}
    (unstaged : (Staging.stage a.store deployment.account service (a.sidecarsOf service resolved)
      resolved deployment.stagingPath settings.namespaceName).outcome s = (.error e, s')) :
    (a.assemble service deployment resolved).outcome s = (.error e, s') := by
  obtain ⟨namespaceYaml, namespaceOk⟩ := rendered_namespace settings.namespaceName
  obtain ⟨serviceYaml, serviceOk⟩ := rendered_service service.canonicalName settings.namespaceName
    (.integer settings.port.toNat)
  have deployed : (a.deploymentManifest service deployment resolved).outcome s = (.error e, s') := by
    rw [deploymentManifest, Activity.outcome_lift_bind, found]
    simp only [stagePod, Activity.outcome_bind, unstaged]
  rw [assemble, Activity.outcome_lift_bind, found]
  simp only [namespaceManifest, serviceManifest, found, embedded, ok_bind, namespaceOk, serviceOk,
    fromTemplate_ok, Activity.outcome_bind, Activity.outcome_lift, deployed]

/-- With settings for its sidecars a service has a pod. -/
theorem pod_made {sidecars : List SidecarService}
    (attached : ∀ s ∈ sidecars, ∃ own, resolved.settingsFor s.service = .ok own)
    (staged : List ConfigSource) :
    ∃ pod, podOf service settings deployment resolved sidecars staged = .ok pod := by
  let custom := deployment.environment.sidecarsFor service.serviceType
  let sources := podSources staged custom
  have containers : ∃ containers, sidecarContainers service deployment resolved sources
      (mergedEnv sources settings) sidecars = .ok containers := by
    refine exists_except_mapM fun s member => ?_
    obtain ⟨own, found⟩ := attached s member
    exact ⟨_, except_bind_ok.mpr ⟨own, found, rfl⟩⟩
  obtain ⟨containers, built⟩ := containers
  exact ⟨_, except_bind_ok.mpr ⟨containers, built, rfl⟩⟩

/-- With settings at hand nothing but staging fails. -/
theorem failure?_assemble (embedded : a.templates = .embedded)
    (found : resolved.settingsFor service = .ok settings)
    (attached : ∀ s ∈ a.sidecarsOf service resolved,
      ∃ own, resolved.settingsFor s.service = .ok own) (s : σ) :
    failure? ((a.assemble service deployment resolved).outcome s).1 =
      failure? ((Staging.stage a.store deployment.account service (a.sidecarsOf service resolved)
        resolved deployment.stagingPath settings.namespaceName).outcome s).1 := by
  rcases staging : (Staging.stage a.store deployment.account service
    (a.sidecarsOf service resolved) resolved deployment.stagingPath
    settings.namespaceName).outcome s with ⟨e | staged, s'⟩
  · rw [assembly_of_unstaged embedded found staging]
    rfl
  · obtain ⟨pod, made⟩ := pod_made attached staged
    obtain ⟨manifests, ok⟩ := assembly_made embedded found staging made
    rw [ok]
    rfl

section Recorded
variable {a : Assembler (List BundleRequest)} {merged : Table Profile}

/-- With such a store the pod of a service fails for no other reason than its settings, those of its
sidecars and the profiles that they select. -/
theorem recorded_pod (recorded : a.store = .recording)
    (attached : ∀ s ∈ a.sidecarsOf service resolved,
      ∃ own, resolved.settingsFor s.service = .ok own)
    (merging : Staging.mergeProfiles service (a.sidecarsOf service resolved) resolved = .ok merged)
    (deployment : Deployment) (settings : Settings) (seen : List BundleRequest) :
    ∃ staged seen' pod,
      (Staging.stage a.store deployment.account service (a.sidecarsOf service resolved) resolved
        deployment.stagingPath settings.namespaceName).outcome seen = (.ok staged, seen') ∧
      podOf service settings deployment resolved (a.sidecarsOf service resolved) staged =
        .ok pod := by
  obtain ⟨staged, seen', staging⟩ := Staging.recording_stages merging deployment.account
    deployment.stagingPath settings.namespaceName seen
  rw [← recorded] at staging
  obtain ⟨pod, made⟩ := pod_made attached staged
  exact ⟨staged, seen', pod, staging, made⟩

theorem recorded_deployment (embedded : a.templates = .embedded) (recorded : a.store = .recording)
    (found : resolved.settingsFor service = .ok settings)
    (attached : ∀ s ∈ a.sidecarsOf service resolved,
      ∃ own, resolved.settingsFor s.service = .ok own)
    (merging : Staging.mergeProfiles service (a.sidecarsOf service resolved) resolved = .ok merged)
    (seen : List BundleRequest) : ∃ text seen',
      (a.deploymentManifest service deployment resolved).outcome seen = (.ok text, seen') := by
  obtain ⟨staged, seen', pod, staging, made⟩ :=
    recorded_pod recorded attached merging deployment settings seen
  obtain ⟨text, deployed⟩ := deployment_made embedded found staging made
  exact ⟨text, seen', deployed⟩

theorem recorded_assembly (embedded : a.templates = .embedded) (recorded : a.store = .recording)
    (found : resolved.settingsFor service = .ok settings)
    (attached : ∀ s ∈ a.sidecarsOf service resolved,
      ∃ own, resolved.settingsFor s.service = .ok own)
    (merging : Staging.mergeProfiles service (a.sidecarsOf service resolved) resolved = .ok merged)
    (seen : List BundleRequest) : ∃ manifests seen',
      (a.assemble service deployment resolved).outcome seen = (.ok manifests, seen') := by
  obtain ⟨staged, seen', pod, staging, made⟩ :=
    recorded_pod recorded attached merging deployment settings seen
  obtain ⟨manifests, ok⟩ := assembly_made embedded found staging made
  exact ⟨manifests, seen', ok⟩

end Recorded
end Assembler

/-- Settings that are declared without more than a port and an image. -/
def Settings.listening (port : UInt16) : Settings :=
  { port, address := none, scheme := "http", healthPath := none, targetSize := 1, env := .empty,
    enabled := true, monitored := true, artifactId := some "image:1", location := none,
    extras := .none }

end Stevedore
