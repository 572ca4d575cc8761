import Stevedore.Proofs.Assembly
import Stevedore.Proofs.UniqueSources

/-!
Which volumes back the mounts of a pod. Sources, scratch directories and config maps are volumes
of the pod that mounts them, and so are the extra volumes of its host; the extra volumes of an
attached sidecar are mounted by its container but are no volumes of the pod.
-/
namespace Stevedore

/-- Every mount of every container names a volume of the pod. -/
def Pod.MountsBacked (p : Pod) : Prop :=
  ∀ c ∈ p.containers, ∀ m ∈ c.volumeMounts, m.name ∈ p.volumes.map (·.id)

namespace Assembler
variable {σ : Type}

/-- All sources that are offered to a pod as volumes, repeated ids included. -/
def offered (staged : List ConfigSource) (settings : Settings) (custom : List CustomSidecar) :
    List ConfigSource :=
  staged ++ scratchVolumes custom ++ settings.extras.volumes ++ configMapVolumes custom

theorem mem_ids_podSources (staged : List ConfigSource) (custom : List CustomSidecar)
    (id : String) : id ∈ (podSources staged custom).map (·.id) ↔
      id ∈ (staged ++ scratchVolumes custom).map (·.id) :=
  UniqueSources.mem_ids_ofList _ id

/-- Leaving out repetitions loses no id, so that what was offered is among the volumes. -/
theorem mem_ids_podVolumes (staged : List ConfigSource) (settings : Settings)
    (custom : List CustomSidecar) (id : String) :
    id ∈ (podVolumes (podSources staged custom) settings custom).map (·.id) ↔
      id ∈ (offered staged settings custom).map (·.id) := by
  have coherent := UniqueSources.ofList_coherent (podSources staged custom)
  have extended := UniqueSources.extend_coherent coherent settings.extras.volumes
  have split : id ∈ (podVolumes (podSources staged custom) settings custom).map (·.id) ↔
      (id ∈ (podSources staged custom).map (·.id) ∨ id ∈ settings.extras.volumes.map (·.id)) ∨
        id ∈ (configMapVolumes custom).map (·.id) := by
    rw [← UniqueSources.mem_ids_ofList (podSources staged custom),
      ← UniqueSources.mem_ids_extend coherent, ← UniqueSources.mem_ids_extend extended]
    rfl
  rw [split, mem_ids_podSources]
  simp only [offered, List.map_append, List.mem_append]

theorem name_of_service_mount {host : Service} {sizing : Option SizingTable} {name : String}
    {settings : Settings} {sources : List ConfigSource} {env : Table String} (id : String) :
    id ∈ (Container.ofService host sizing name settings sources env).volumeMounts.map (·.name) ↔
      id ∈ sources.map (·.id) ∨ id ∈ settings.extras.volumes.map (·.id) := by
  simp [Container.ofService]

theorem name_of_sidecar_mount {s : CustomSidecar} {id : String}
    (mounted : id ∈ (Container.ofSidecar s).volumeMounts.map (·.name)) :
    id ∈ (scratchVolumes [s]).map (·.id) ∨ id ∈ (configMapVolumes [s]).map (·.id) := by
  simp only [Container.ofSidecar, List.map_append, List.mem_append] at mounted
  rcases mounted with scratch | configMap
  · left
    cases path : s.scratchPath with
    | none => simp [path] at scratch
    | some p => simpa [path, scratchVolumes, ConfigSource.emptyDir] using scratch
  · right
    simpa [configMapVolumes, ConfigSource.configMap] using configMap

theorem scratchVolumes_subset {s : CustomSidecar} {custom : List CustomSidecar} (member : s ∈ custom)
    {id : String} (held : id ∈ (scratchVolumes [s]).map (·.id)) :
    id ∈ (scratchVolumes custom).map (·.id) := by
  simp only [scratchVolumes, List.mem_map, List.mem_filterMap, List.mem_singleton] at held ⊢
  obtain ⟨v, ⟨_, rfl, made⟩, same⟩ := held
  exact ⟨v, ⟨_, member, made⟩, same⟩

theorem configMapVolumes_subset {s : CustomSidecar} {custom : List CustomSidecar}
    (member : s ∈ custom) {id : String} (held : id ∈ (configMapVolumes [s]).map (·.id)) :
    id ∈ (configMapVolumes custom).map (·.id) := by
  simp only [configMapVolumes, List.mem_map, List.mem_flatMap, List.mem_singleton] at held ⊢
  obtain ⟨v, ⟨_, rfl, made⟩, same⟩ := held
  exact ⟨v, ⟨_, member, made⟩, same⟩

theorem mem_sidecarContainers {host : Service} {deployment : Deployment} {resolved : Resolved}
    {sources : List ConfigSource} {env : Table String} {sidecars : List SidecarService}
    {containers : List Container}
    (made : sidecarContainers host deployment resolved sources env sidecars = .ok containers)
    (c : Container) : c ∈ containers ↔
      ∃ s ∈ sidecars, ∃ own, resolved.settingsFor s.service = .ok own ∧
        c = Container.ofService host deployment.sizing s.service.canonicalName own sources env := by
  rw [mem_except_mapM_ok made]
  simp only [except_bind_ok, pure, Except.pure, Except.ok.injEq, @eq_comm _ c]

/-- Of all containers of a pod only those of attached sidecars can mount what is no volume of it:
their extra volumes have to be offered to the pod by someone else. -/
theorem mountsBacked_podOf {service : Service} {settings : Settings} {deployment : Deployment}
    {resolved : Resolved} {sidecars : List SidecarService} {staged : List ConfigSource} {pod : Pod}
    (made : podOf service settings deployment resolved sidecars staged = .ok pod) :
    pod.MountsBacked ↔
      ∀ sidecar ∈ sidecars, ∀ own, resolved.settingsFor sidecar.service = .ok own →
        ∀ v ∈ own.extras.volumes, v.id ∈ (offered staged settings
          (deployment.environment.sidecarsFor service.serviceType)).map (·.id) := by
  obtain ⟨attached, containers, same⟩ := except_bind_ok.mp made
  cases same
  simp only [Pod.MountsBacked, mem_ids_podVolumes]
  have fromSources {id : String} (held : id ∈ (podSources staged
      (deployment.environment.sidecarsFor service.serviceType)).map (·.id)) :
      id ∈ (offered staged settings
        (deployment.environment.sidecarsFor service.serviceType)).map (·.id) := by
    rw [mem_ids_podSources] at held
    simp only [offered, List.map_append, List.mem_append] at held ⊢
    exact Or.inl (Or.inl held)
  constructor
  · intro backed sidecar member own found v volume
    have container := (mem_sidecarContainers containers _).mpr ⟨sidecar, member, own, found, rfl⟩
    have backed := List.forall_mem_map.mpr
      (backed _ (List.mem_append_left _ (List.mem_cons_of_mem _ container)))
    exact backed v.id ((name_of_service_mount v.id).mpr (Or.inr (List.mem_map_of_mem volume)))
  · intro backed c container m mount
    have mounted : m.name ∈ c.volumeMounts.map (·.name) := List.mem_map_of_mem mount
    rw [List.mem_append, List.mem_cons] at container
    rcases container with (rfl | container) | container
    · rcases (name_of_service_mount m.name).mp mounted with source | extra
      · exact fromSources source
      · simp only [offered, List.map_append, List.mem_append]
        exact Or.inl (Or.inr extra)
    · obtain ⟨sidecar, member, own, found, rfl⟩ := (mem_sidecarContainers containers c).mp container
      rcases (name_of_service_mount m.name).mp mounted with source | extra
      · exact fromSources source
      · obtain ⟨v, volume, name⟩ := List.mem_map.mp extra
        rw [← name]
        exact backed sidecar member own found v volume
    · obtain ⟨s, member, rfl⟩ := List.mem_map.mp container
      simp only [offered, List.map_append, List.mem_append]
      rcases name_of_sidecar_mount mounted with scratch | configMap
      · exact Or.inl (Or.inl (Or.inr (scratchVolumes_subset member scratch)))
      · exact Or.inr (configMapVolumes_subset member configMap)

/-- A deployment that could be made comes from a pod, and that pod's mounts are backed just if
every extra volume of an attached sidecar carries an id that is offered to the pod anyway. -/
theorem deployed_mounts_backed_iff (a : Assembler σ) (service : Service) (deployment : Deployment)
    (resolved : Resolved) (s s' : σ) (text : String)
    (ok : (a.deploymentManifest service deployment resolved).outcome s = (.ok text, s')) :
    ∃ settings staged pod, resolved.settingsFor service = .ok settings ∧
      (Staging.stage a.store deployment.account service (a.sidecarsOf service resolved) resolved
        deployment.stagingPath settings.namespaceName).outcome s = (.ok staged, s') ∧
      podOf service settings deployment resolved (a.sidecarsOf service resolved) staged = .ok pod ∧
      a.renderDeployment service settings deployment pod = .ok text ∧
      (pod.MountsBacked ↔
        ∀ sidecar ∈ a.sidecarsOf service resolved, ∀ own,
          resolved.settingsFor sidecar.service = .ok own → ∀ v ∈ own.extras.volumes,
            v.id ∈ (offered staged settings
              (deployment.environment.sidecarsFor service.serviceType)).map (·.id)) := by
  obtain ⟨settings, staged, pod, found, staging, made, rendering⟩ := deployment_ok_iff.mp ok
  exact ⟨settings, staged, pod, found, staging, made, rendering, mountsBacked_podOf made⟩

end Assembler

section Agent

def webService : Service := .named "web" "web" "web"

def agentSettings : Settings :=
  { Settings.listening 9000 with extras := ⟨[], [.emptyDir "agent-cache" "/cache"], .empty⟩ }

/-- An agent that is attached to every service and brings a volume of its own. -/
def agentAssembler : Assembler (List BundleRequest) :=
  { templates := .embedded, store := .recording
    rules := [⟨⟨.named "agent" "agent" "agent", []⟩, .always⟩] }

def agentDeployment : Deployment := ⟨.empty, .empty, ⟨""⟩⟩

def agentResolved : Resolved :=
  { settings := Table.ofList [("web", .listening 8080),
      ("agent", agentSettings)]
    profiles := .empty }

/-- The pod of the service with its agent: the agent's volume is mounted and nowhere declared. -/
def agentPod : Pod :=
  { containers := [
      Container.ofService webService none "web" (.listening 8080) [] .empty,
      Container.ofService webService none "agent"
        agentSettings [] .empty]
    initContainers := none
    hostAliases := none
    imagePullSecrets := []
    gracePeriod := 60
    volumes := [] }

theorem agent_podOf : Assembler.podOf webService (.listening 8080) agentDeployment
    agentResolved (agentAssembler.sidecarsOf webService agentResolved) [] = .ok agentPod := by
  rfl

theorem agent_deployed : ∃ text,
    (agentAssembler.deploymentManifest webService agentDeployment agentResolved).outcome [] =
      (.ok text, []) := by
  have embedded : agentAssembler.templates = .embedded := rfl
  obtain ⟨text, rendering⟩ := Assembler.deployment_rendered webService (.listening 8080)
    agentDeployment embedded agentPod
  exact ⟨text, Assembler.deployment_ok_iff.mpr
    ⟨.listening 8080, [], agentPod, rfl, rfl, agent_podOf, rendering⟩⟩

theorem agent_deployed_mounts_backed_iff : ∃ text,
    (agentAssembler.deploymentManifest webService agentDeployment agentResolved).outcome [] =
      (.ok text, []) ∧
    ∃ settings staged pod, agentResolved.settingsFor webService = .ok settings ∧
      (Staging.stage agentAssembler.store agentDeployment.account webService
        (agentAssembler.sidecarsOf webService agentResolved) agentResolved
        agentDeployment.stagingPath settings.namespaceName).outcome [] = (.ok staged, []) ∧
      Assembler.podOf webService settings agentDeployment agentResolved
        (agentAssembler.sidecarsOf webService agentResolved) staged = .ok pod ∧
      agentAssembler.renderDeployment webService settings agentDeployment pod = .ok text ∧
      (pod.MountsBacked ↔
        ∀ sidecar ∈ agentAssembler.sidecarsOf webService agentResolved, ∀ own,
          agentResolved.settingsFor sidecar.service = .ok own → ∀ v ∈ own.extras.volumes,
            v.id ∈ (Assembler.offered staged settings
              (agentDeployment.environment.sidecarsFor webService.serviceType)).map (·.id)) := by
  obtain ⟨text, ok⟩ := agent_deployed
  exact ⟨text, ok, Assembler.deployed_mounts_backed_iff agentAssembler webService agentDeployment
    agentResolved [] [] text ok⟩

/-- The deployment is made all the same, and its second container mounts what no volume backs. -/
theorem agent_mount_dangles : (∃ text,
    (agentAssembler.deploymentManifest webService agentDeployment agentResolved).outcome [] =
      (.ok text, [])) ∧
    Assembler.podOf webService (.listening 8080) agentDeployment agentResolved
      (agentAssembler.sidecarsOf webService agentResolved) [] = .ok agentPod ∧
    ¬ agentPod.MountsBacked := by
  refine ⟨agent_deployed, agent_podOf, fun backed => ?_⟩
  have held := backed _ (List.mem_cons_of_mem _ (List.mem_singleton.mpr rfl))
    ⟨"agent-cache", "/cache"⟩ (List.mem_singleton.mpr rfl)
  simp [agentPod] at held

end Agent
end Stevedore
