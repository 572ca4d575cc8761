import Stevedore.Proofs.Staging

/-!
The containers of a pod: the service's own comes first, then one for each attached sidecar, then the
custom sidecars of its type. What makes a declaration acceptable keeps their names apart.
-/
namespace Stevedore

namespace Assembler
variable {σ : Type} {service : Service} {settings : Settings} {deployment : Deployment}
  {resolved : Resolved} {sidecars : List SidecarService} {staged : List ConfigSource} {pod : Pod}

def Attaches (host : Service) (deployment : Deployment) (resolved : Resolved)
    (sources : List ConfigSource) (env : Table String) (s : SidecarService) (c : Container) : Prop :=
  ∃ own, resolved.settingsFor s.service = .ok own ∧
    c = Container.ofService host deployment.sizing s.service.canonicalName own sources env

theorem attached_sidecarContainers {sources : List ConfigSource} {env : Table String}
    {containers : List Container}
    (made : sidecarContainers service deployment resolved sources env sidecars = .ok containers) :
    List.Forall₂ (Attaches service deployment resolved sources env) sidecars containers := by
  apply (except_mapM_forall₂ made).imp
  intro s c own
  obtain ⟨settings, found, same⟩ := except_bind_ok.mp own
  exact ⟨settings, found, (Except.ok.inj same).symm⟩

theorem containers_podOf
    (made : podOf service settings deployment resolved sidecars staged = .ok pod) :
    let custom := deployment.environment.sidecarsFor service.serviceType
    let sources := podSources staged custom
    let env := mergedEnv sources settings
    ∃ attached, List.Forall₂ (Attaches service deployment resolved sources env) sidecars attached ∧
      pod.containers = Container.ofService service deployment.sizing service.canonicalName settings
        sources env :: attached ++ custom.map Container.ofSidecar := by
  obtain ⟨attached, containers, same⟩ := except_bind_ok.mp made
  obtain rfl := Except.ok.inj same
  exact ⟨attached, attached_sidecarContainers containers, rfl⟩

theorem names_attached {sources : List ConfigSource} {env : Table String}
    {attached : List Container}
    (related : List.Forall₂ (Attaches service deployment resolved sources env) sidecars attached) :
    sidecars.map (·.service.canonicalName) = attached.map (·.name) := by
  refine map_eq_of_forall₂ related fun s c attaches => ?_
  obtain ⟨own, -, rfl⟩ := attaches
  rfl

theorem env_attached {sources : List ConfigSource} {env : Table String} {attached : List Container}
    (related : List.Forall₂ (Attaches service deployment resolved sources env) sidecars attached) :
    ∀ c ∈ attached, c.env = env := by
  intro c member
  obtain ⟨s, -, own, -, rfl⟩ := exists_of_forall₂ related member
  rfl

theorem names_podOf
    (made : podOf service settings deployment resolved sidecars staged = .ok pod) :
    pod.containers.map (·.name) =
      service.canonicalName :: sidecars.map (·.service.canonicalName) ++
        (deployment.environment.sidecarsFor service.serviceType).map (·.name) := by
  obtain ⟨attached, related, containers⟩ := containers_podOf made
  rw [containers, List.map_append, List.map_cons, ← names_attached related, List.map_map]
  rfl

end Assembler

namespace Declaration

theorem environment_resolved {d : Declaration} {root : Path} {plan : Plan}
    (ok : d.resolve root = .ok plan) : plan.deployment.environment = d.environment := by
  obtain ⟨resolved, -, made⟩ := except_bind_ok.mp ok
  obtain rfl := Except.ok.inj made
  rfl

theorem settingsFor_resolved {d : Declaration} {root : Path} {plan : Plan} {e : Entry Service}
    (accepted : d.violation? = none) (ok : d.resolve root = .ok plan) (declared : e ∈ d.entries) :
    ∃ settings, d.completeSettings e = .ok settings ∧
      plan.resolved.settingsFor e.subject = .ok settings := by
  obtain ⟨settings, completed, found⟩ := settings_resolved accepted ok declared
  refine ⟨settings, completed, ?_⟩
  rw [Resolved.settingsFor, found]

/-- Who can have containers beside the custom ones in the pod of a service. -/
def hosted (d : Declaration) (e : Entry Service) : List (Entry Service) :=
  e :: d.monitoring.toList.map (Entry.map SidecarService.service)

/-- The names of a declared service and of the monitoring sidecar and those of the custom sidecars
of the service's type keep apart. -/
theorem names_apart {d : Declaration} (accepted : d.violation? = none) {e : Entry Service}
    (declared : e ∈ d.services) :
    ((d.hosted e).map (·.subject.canonicalName) ++
      (d.environment.sidecarsFor e.subject.serviceType).map (·.name)).Nodup := by
  obtain ⟨fresh, distinct⟩ := distinct_sidecars (sidecars_accepted accepted e.subject.serviceType)
  have inside : (d.hosted e).Sublist d.entries :=
    (List.singleton_sublist.mpr declared).append (List.Sublist.refl _)
  have reserved {name : String} (held : name ∈ (d.hosted e).map (·.subject.canonicalName)) :
      name ∈ d.reservedNames e.subject.serviceType := by
    obtain ⟨f, member, rfl⟩ := List.mem_map.mp held
    rw [mem_reservedNames]
    rcases List.mem_cons.mp member with rfl | monitor
    · exact .inl ⟨f, declared, rfl, rfl⟩
    · obtain ⟨m, monitored, rfl⟩ := List.mem_map.mp monitor
      exact .inr ⟨m, Option.mem_toList.mp monitored, rfl⟩
  refine List.nodup_append.mpr ⟨?_, distinct, ?_⟩
  · exact (distinct_entries (entries_accepted accepted)).2.1.sublist (inside.map _)
  · intro name held other used same
    obtain ⟨s, member, rfl⟩ := List.mem_map.mp used
    exact (fresh s member).1 (same ▸ reserved held)

end Declaration

namespace Assembler
variable {σ : Type} {a : Assembler σ}

theorem attached_sublist {d : Declaration} {root : Path} {plan : Plan}
    (ok : d.resolve root = .ok plan) (rules : a.rules = plan.rules) (e : Entry Service)
    (resolved : Resolved) :
    (e.subject.canonicalName :: (a.sidecarsOf e.subject resolved).map
      (·.service.canonicalName)).Sublist ((d.hosted e).map (·.subject.canonicalName)) := by
  rw [Declaration.hosted, List.map_cons, List.map_map]
  apply List.Sublist.cons_cons
  rcases sidecarsOf_plan ok rules e.subject resolved with none_ | ⟨m, monitored, one⟩
  · rw [none_]
    exact List.nil_sublist _
  · rw [one, monitored]
    exact List.Sublist.refl _

/-- In the pod of a declared service every container has a name of its own: the names are those of
the service, of the monitoring sidecar where it is attached, and of the custom sidecars. -/
theorem container_names_distinct (a : Assembler σ) (d : Declaration) (root : Path) (plan : Plan)
    (e : Entry Service) (s s' : σ) (text : String) (accepted : d.violation? = none)
    (ok : d.resolve root = .ok plan) (rules : a.rules = plan.rules) (declared : e ∈ d.services)
    (deployed : (a.deploymentManifest e.subject plan.deployment plan.resolved).outcome s =
      (.ok text, s')) :
    ∃ settings staged pod,
      a.Deployed e.subject plan.deployment plan.resolved s settings staged pod text s' ∧
      pod.containers.map (·.name) =
        e.subject.canonicalName ::
          (a.sidecarsOf e.subject plan.resolved).map (·.service.canonicalName) ++
          (d.environment.sidecarsFor e.subject.serviceType).map (·.name) ∧
      (pod.containers.map (·.name)).Nodup := by
  obtain ⟨settings, staged, pod, made⟩ := deployed_of_ok deployed
  have names := names_podOf made.made
  rw [Declaration.environment_resolved ok] at names
  refine ⟨settings, staged, pod, made, names, ?_⟩
  rw [names]
  exact (Declaration.names_apart accepted declared).sublist
    ((attached_sublist ok rules e plan.resolved).append (List.Sublist.refl _))

end Assembler

section Crew

def crewSidecar (name image : String) : CustomSidecar :=
  { name, image, command := [], args := [], env := .empty, securityContext := none,
    configMapMounts := [], mountPath := none }

/-- Two custom sidecars for a service that is monitored too, and one that takes the service's own
name in the pods of another type. -/
def crewEnvironment : Environment :=
  { Environment.empty with
    sidecars := Table.ofList
      [("web", [crewSidecar "shipper" "ship:2", crewSidecar "proxy" "proxy:1"]),
        ("api", [crewSidecar "web" "web:1"])] }

def crewDeclaration : Declaration := { sharingDeclaration with environment := crewEnvironment }

def crewPlan : Plan :=
  { sharingPlan with deployment := ⟨.empty, ⟨"demo", "", crewEnvironment⟩, ⟨"/staging"⟩⟩ }

def crewAssembler : Assembler (List BundleRequest) := ⟨.embedded, .recording, crewPlan.rules⟩

theorem crew_accepted : crewDeclaration.violation? = none := by decide +kernel

theorem crew_resolved : crewDeclaration.resolve ⟨"/staging"⟩ = .ok crewPlan := by rfl

theorem crew_attached : ∀ s ∈ crewAssembler.sidecarsOf webEntry.subject crewPlan.resolved,
    ∃ own, crewPlan.resolved.settingsFor s.service = .ok own := by
  have one : crewAssembler.sidecarsOf webEntry.subject crewPlan.resolved =
    [monitorEntry.subject] := rfl
  rw [one]
  exact List.forall_mem_singleton.mpr ⟨completed "monitor" 9000, rfl⟩

theorem crew_deployed : ∃ text seen,
    (crewAssembler.deploymentManifest webEntry.subject crewPlan.deployment
      crewPlan.resolved).outcome [] = (.ok text, seen) := by
  exact Assembler.recorded_deployment rfl rfl rfl crew_attached rfl []

theorem crew_container_names :
    crewDeclaration.violation? = none ∧
    crewDeclaration.resolve ⟨"/staging"⟩ = .ok crewPlan ∧
    crewAssembler.rules = crewPlan.rules ∧ webEntry ∈ crewDeclaration.services ∧
    ∃ text seen, (crewAssembler.deploymentManifest webEntry.subject crewPlan.deployment
        crewPlan.resolved).outcome [] = (.ok text, seen) ∧
      ∃ settings staged pod, crewAssembler.Deployed webEntry.subject crewPlan.deployment
          crewPlan.resolved [] settings staged pod text seen ∧
        pod.containers.map (·.name) = ["web", "monitor", "shipper", "proxy"] ∧
        (pod.containers.map (·.name)).Nodup := by
  obtain ⟨text, seen, deployed⟩ := crew_deployed
  obtain ⟨settings, staged, pod, made, names, distinct⟩ := Assembler.container_names_distinct
    crewAssembler crewDeclaration ⟨"/staging"⟩ crewPlan webEntry [] seen text crew_accepted
    crew_resolved rfl List.mem_cons_self deployed
  exact ⟨crew_accepted, crew_resolved, rfl, List.mem_cons_self, text, seen, deployed, settings,
    staged, pod, made, names, distinct⟩

end Crew
end Stevedore
