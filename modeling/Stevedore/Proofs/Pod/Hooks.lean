import Stevedore.Proofs.Pod.Containers

/-!
What the containers of a pod run before they stop. Whether there is a hook is up to the host of the
pod, whose script runs in its own container and in those of all attached sidecars, so that a sidecar
has the hook that it asks for just if it asks for the one of its host.
-/
namespace Stevedore

namespace Service

/-- What a service that opts in asks to be run before it stops. -/
def hook? (s : Service) : Option (List String) :=
  if s.preStop then some ["bash", s.shutdownScript] else none

theorem isSome_hook? (s : Service) : s.hook?.isSome = s.preStop := by
  unfold hook?
  split
  · next opted => exact opted.symm
  · next declined => exact (Bool.eq_false_iff.mpr declined).symm

theorem script_hook? {s : Service} {command : List String} (runs : command ∈ s.hook?) :
    command = ["bash", s.shutdownScript] := by
  unfold hook? at runs
  split at runs
  · exact (Option.some.inj runs).symm
  · contradiction

end Service

namespace Container

/-- The container has a hook just if the service opts in, and runs no other script than its own. -/
structure HooksAs (own : Service) (c : Container) : Prop where
  present : c.preStop.isSome = true ↔ own.preStop = true
  script : ∀ command ∈ c.preStop, command = ["bash", own.shutdownScript]

theorem hooksAs_iff {own : Service} {c : Container} : HooksAs own c ↔ c.preStop = own.hook? := by
  constructor
  · rintro ⟨present, script⟩
    cases runs : c.preStop with
    | none =>
      have declined : ¬ own.preStop = true := fun opted => by simpa [runs] using present.mpr opted
      exact (if_neg declined).symm
    | some command =>
      have opted : own.preStop = true := present.mp (by rw [runs, Option.isSome_some])
      rw [script command runs]
      exact (if_pos opted).symm
  · intro same
    constructor
    · rw [same, own.isSome_hook?]
    · intro command runs
      rw [same] at runs
      exact Service.script_hook? runs

theorem preStop_ofService (host : Service) (sizing : Option SizingTable) (name : String)
    (settings : Settings) (sources : List ConfigSource) (env : Table String) :
    (ofService host sizing name settings sources env).preStop = host.hook? := by
  by_cases opted : host.preStop <;>
    simp [ofService, Service.preStopCommand, Service.hook?, opted]

end Container

namespace Assembler
variable {σ : Type} {a : Assembler σ} {service : Service} {settings : Settings}
  {deployment : Deployment} {resolved : Resolved} {sidecars : List SidecarService}
  {staged : List ConfigSource} {pod : Pod}

/-- The services that have containers in the pod of a service, its own first. -/
def owners (a : Assembler σ) (service : Service) (resolved : Resolved) : List Service :=
  service :: (a.sidecarsOf service resolved).map (·.service)

/-- The container bears the name of its service and stops like the host. -/
structure StopsWith (host own : Service) (c : Container) : Prop where
  name : c.name = own.canonicalName
  preStop : c.preStop = host.hook?

theorem stops_podOf (made : podOf service settings deployment resolved sidecars staged = .ok pod) :
    ∃ containers, pod.containers = containers ++
        (deployment.environment.sidecarsFor service.serviceType).map Container.ofSidecar ∧
      List.Forall₂ (StopsWith service) (service :: sidecars.map (·.service)) containers := by
  obtain ⟨attached, related, containers⟩ := containers_podOf made
  refine ⟨_, containers, .cons ⟨rfl, Container.preStop_ofService ..⟩ ?_⟩
  refine List.forall₂_map_left_iff.mpr (related.imp fun s c attaches => ?_)
  obtain ⟨own, -, rfl⟩ := attaches
  exact ⟨rfl, Container.preStop_ofService ..⟩

theorem StopsWith.hooksAs_iff {host own : Service} {c : Container} (stops : StopsWith host own c) :
    c.HooksAs own ↔ own.hook? = host.hook? := by
  rw [Container.hooksAs_iff, stops.preStop, eq_comm]

/-- A deployment that could be made comes from a pod in which the container of every service has the
hook that the host of the pod asks for, so that it has its own just if both ask for the same. -/
theorem deployed_hooks_owned_iff (a : Assembler σ) (service : Service) (deployment : Deployment)
    (resolved : Resolved) (s s' : σ) (text : String)
    (ok : (a.deploymentManifest service deployment resolved).outcome s = (.ok text, s')) :
    ∃ settings staged pod containers,
      a.Deployed service deployment resolved s settings staged pod text s' ∧
      pod.containers = containers ++
        (deployment.environment.sidecarsFor service.serviceType).map Container.ofSidecar ∧
      List.Forall₂ (fun own c => StopsWith service own c ∧
          (c.HooksAs own ↔ own.hook? = service.hook?))
        (a.owners service resolved) containers ∧
      (List.Forall₂ Container.HooksAs (a.owners service resolved) containers ↔
        ∀ own ∈ a.owners service resolved, own.hook? = service.hook?) := by
  obtain ⟨settings, staged, pod, made⟩ := deployed_of_ok ok
  obtain ⟨containers, split, stops⟩ := stops_podOf made.made
  refine ⟨settings, staged, pod, containers, made, split, ?_, ?_⟩
  · exact stops.imp fun own c stop => ⟨stop, stop.hooksAs_iff⟩
  · exact forall₂_iff_forall (stops.imp fun own c stop => stop.hooksAs_iff)

end Assembler

section Drained

/-- A service that opts in, an agent that does not, and a mesh with a script of its own. -/
def drainedService : Service := { Service.named "web" "web" "web" with preStop := true }

def idleAgent : Service := .named "agent" "agent" "agent"

def drainedMesh : Service :=
  { Service.named "mesh" "mesh" "mesh" with preStop := true, shutdownScript := "/mesh/drain.sh" }

def drainedAssembler : Assembler (List BundleRequest) :=
  { templates := .embedded, store := .recording
    rules := [⟨⟨idleAgent, []⟩, .always⟩, ⟨⟨drainedMesh, []⟩, .always⟩] }

def drainedDeployment : Deployment := ⟨.empty, .empty, ⟨""⟩⟩

def drainedResolved : Resolved :=
  { settings := Table.ofList [("web", .listening 8080), ("agent", .listening 9000),
      ("mesh", .listening 9001)]
    profiles := .empty }

def drainedPod : Pod :=
  { containers := [
      Container.ofService drainedService none "web" (.listening 8080) [] .empty,
      Container.ofService drainedService none "agent" (.listening 9000) [] .empty,
      Container.ofService drainedService none "mesh" (.listening 9001) [] .empty]
    initContainers := none
    hostAliases := none
    imagePullSecrets := []
    gracePeriod := 60
    volumes := [] }

theorem drained_podOf : Assembler.podOf drainedService (.listening 8080) drainedDeployment
    drainedResolved (drainedAssembler.sidecarsOf drainedService drainedResolved) [] =
      .ok drainedPod := by
  rfl

theorem drained_made : ∃ text, drainedAssembler.Deployed drainedService drainedDeployment
    drainedResolved [] (.listening 8080) [] drainedPod text [] := by
  have embedded : drainedAssembler.templates = .embedded := rfl
  obtain ⟨text, rendered⟩ := Assembler.deployment_rendered drainedService (.listening 8080)
    drainedDeployment embedded drainedPod
  exact ⟨text, rfl, rfl, drained_podOf, rendered⟩

theorem drained_deployed : ∃ text,
    (drainedAssembler.deploymentManifest drainedService drainedDeployment
      drainedResolved).outcome [] = (.ok text, []) := by
  obtain ⟨text, made⟩ := drained_made
  exact ⟨text, Assembler.deployment_ok_iff.mpr
    ⟨_, _, _, made.found, made.staging, made.made, made.rendered⟩⟩

theorem drained_hooks_owned_iff : ∃ text,
    (drainedAssembler.deploymentManifest drainedService drainedDeployment
      drainedResolved).outcome [] = (.ok text, []) ∧
    ∃ settings staged pod containers,
      drainedAssembler.Deployed drainedService drainedDeployment drainedResolved [] settings staged
        pod text [] ∧
      pod.containers = containers ++ (drainedDeployment.environment.sidecarsFor
        drainedService.serviceType).map Container.ofSidecar ∧
      List.Forall₂ (fun own c => Assembler.StopsWith drainedService own c ∧
          (c.HooksAs own ↔ own.hook? = drainedService.hook?))
        [drainedService, idleAgent, drainedMesh] containers ∧
      (List.Forall₂ Container.HooksAs [drainedService, idleAgent, drainedMesh] containers ↔
        ∀ own ∈ [drainedService, idleAgent, drainedMesh], own.hook? = drainedService.hook?) := by
  obtain ⟨text, ok⟩ := drained_deployed
  exact ⟨text, ok, Assembler.deployed_hooks_owned_iff drainedAssembler drainedService
    drainedDeployment drainedResolved [] [] text ok⟩

/-- The agent, which asks for no hook, is made to run the script of its host. -/
theorem drained_hooks_not_owned : (∃ text, drainedAssembler.Deployed drainedService drainedDeployment
      drainedResolved [] (.listening 8080) [] drainedPod text []) ∧
    drainedAssembler.owners drainedService drainedResolved =
      [drainedService, idleAgent, drainedMesh] ∧
    drainedPod.containers.map (·.name) =
      [drainedService, idleAgent, drainedMesh].map (·.canonicalName) ∧
    ¬ List.Forall₂ Container.HooksAs [drainedService, idleAgent, drainedMesh]
      drainedPod.containers := by
  refine ⟨drained_made, rfl, rfl, fun owned => ?_⟩
  obtain _ | ⟨-, _ | ⟨agent, -⟩⟩ := owned
  have absent : some ["bash", Service.defaultShutdownScript] = none := Container.hooksAs_iff.mp agent
  contradiction

end Drained
end Stevedore
