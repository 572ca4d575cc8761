import Stevedore.Proofs.Staging

/-!
What the assembly of a service depends on. It looks under the service's own type and name and under
those of the sidecars that the rules name, so that what is declared for other services changes
neither its manifests nor what it asks the store for.
-/
namespace Stevedore

theorem except_mapM_congr {ε α β : Type} {f g : α → Except ε β} {items : List α}
    (same : ∀ item ∈ items, f item = g item) : items.mapM f = items.mapM g := by
  induction items with
  | nil => rfl
  | cons item rest ih =>
    rw [List.mapM_cons, List.mapM_cons, same item List.mem_cons_self,
      ih fun other member => same other (List.mem_cons_of_mem _ member)]

theorem except_foldlM_congr {ε α β : Type} {f g : β → α → Except ε β} {items : List α}
    (same : ∀ b, ∀ item ∈ items, f b item = g b item) (b : β) :
    items.foldlM f b = items.foldlM g b := by
  induction items generalizing b with
  | nil => rfl
  | cons item rest ih =>
    rw [List.foldlM_cons, List.foldlM_cons, same b item List.mem_cons_self]
    congr 1
    funext next
    exact ih (fun b other member => same b other (List.mem_cons_of_mem _ member)) next

namespace Deployment

/-- The sizing under a name; where there is no table there is none. -/
def sizingOf? (d : Deployment) (name : String) : Option Sizing := d.sizing.bind fun t => t.get? name

theorem lookup_sizing (d : Deployment) (container serviceType : String) :
    (d.sizing.bind fun t => t.lookup container serviceType) =
      (d.sizingOf? container).or (d.sizingOf? serviceType) := by
  unfold sizingOf?
  cases d.sizing <;> rfl

theorem replicas_sizing (d : Deployment) (serviceType : String) :
    (d.sizing.bind fun t => t.replicas serviceType) =
      (d.sizingOf? serviceType).bind (·.replicas) := by
  unfold sizingOf?
  cases d.sizing <;> rfl

end Deployment

namespace SidecarRule

/-- The types under which the assembly of a service looks for settings and profiles. -/
def typesSeen (rules : List SidecarRule) (service : Service) : List String :=
  service.serviceType :: rules.map (·.sidecar.service.serviceType)

/-- The names under which it looks for sizing. -/
def sizingsSeen (rules : List SidecarRule) (service : Service) : List String :=
  service.serviceType :: service.canonicalName :: rules.map (·.sidecar.service.canonicalName)

/-- Two deployments, each with what was resolved for it, that look the same from a service. -/
structure SeenAlike (rules : List SidecarRule) (service : Service) (d d' : Deployment)
    (r r' : Resolved) : Prop where
  account : d.account = d'.account
  name : d.configuration.name = d'.configuration.name
  version : d.configuration.version = d'.configuration.version
  stagingRoot : d.stagingRoot = d'.stagingRoot
  settings : ∀ type ∈ typesSeen rules service, r.settings.get? type = r'.settings.get? type
  profiles : ∀ type ∈ typesSeen rules service, r.profilesOf type = r'.profilesOf type
  sidecars : d.environment.sidecarsFor service.serviceType =
    d'.environment.sidecarsFor service.serviceType
  initContainers : d.environment.initContainersFor service.serviceType =
    d'.environment.initContainersFor service.serviceType
  hostAliases : d.environment.hostAliasesFor service.serviceType =
    d'.environment.hostAliasesFor service.serviceType
  sizing : ∀ name ∈ sizingsSeen rules service, d.sizingOf? name = d'.sizingOf? name

theorem own_type_seen (rules : List SidecarRule) (service : Service) :
    service.serviceType ∈ typesSeen rules service := List.mem_cons_self

theorem type_seen {rules : List SidecarRule} {rule : SidecarRule} (member : rule ∈ rules)
    (service : Service) : rule.sidecar.service.serviceType ∈ typesSeen rules service :=
  List.mem_cons_of_mem _ (List.mem_map_of_mem member)

theorem exists_of_attached {rules : List SidecarRule} {settings : Table Settings} {host : Service}
    {s : SidecarService} (member : s ∈ attached rules settings host) :
    ∃ rule ∈ rules, rule.sidecar = s := by
  obtain ⟨rule, held, same⟩ := List.mem_map.mp member
  exact ⟨rule, List.mem_of_mem_filter held, same⟩

end SidecarRule

namespace SidecarRule.SeenAlike
variable {rules : List SidecarRule} {service : Service} {d d' : Deployment} {r r' : Resolved}
  (alike : SeenAlike rules service d d' r r')
include alike

theorem stagingPath : d.stagingPath = d'.stagingPath := by
  rw [Deployment.stagingPath, alike.stagingRoot, alike.name, Deployment.stagingPath]

theorem settingsFor {s : Service} (seen : s.serviceType ∈ typesSeen rules service) :
    r.settingsFor s = r'.settingsFor s := by
  rw [Resolved.settingsFor, Resolved.settingsOf?, alike.settings _ seen]
  rfl

theorem attached : attached rules r.settings service = attached rules r'.settings service := by
  unfold SidecarRule.attached
  congr 1
  refine List.filter_congr fun rule member => ?_
  have own := alike.settings _ (own_type_seen rules service)
  have theirs := alike.settings _ (type_seen member service)
  unfold SidecarRule.holds isMonitoring
  rw [own, theirs]

theorem mergeProfiles {sidecars : List SidecarService}
    (ruled : ∀ s ∈ sidecars, ∃ rule ∈ rules, rule.sidecar = s) :
    Staging.mergeProfiles service sidecars r = Staging.mergeProfiles service sidecars r' := by
  unfold Staging.mergeProfiles
  rw [alike.profiles _ (own_type_seen rules service)]
  refine except_foldlM_congr (fun profiles s member => ?_) _
  obtain ⟨rule, held, rfl⟩ := ruled s member
  simp only [SidecarService.profilesFor, alike.profiles _ (type_seen held service)]

theorem resources {name : String} (seen : name ∈ sizingsSeen rules service) :
    Resources.of d.sizing name service.serviceType =
      Resources.of d'.sizing name service.serviceType := by
  unfold Resources.of
  rw [Deployment.lookup_sizing, Deployment.lookup_sizing, alike.sizing _ seen,
    alike.sizing _ List.mem_cons_self]

theorem ofService {name : String} (seen : name ∈ sizingsSeen rules service) (settings : Settings)
    (sources : List ConfigSource) (env : Table String) :
    Container.ofService service d.sizing name settings sources env =
      Container.ofService service d'.sizing name settings sources env := by
  unfold Container.ofService
  rw [alike.resources seen]

theorem sidecarContainers {sidecars : List SidecarService}
    (ruled : ∀ s ∈ sidecars, ∃ rule ∈ rules, rule.sidecar = s) (sources : List ConfigSource)
    (env : Table String) :
    Assembler.sidecarContainers service d r sources env sidecars =
      Assembler.sidecarContainers service d' r' sources env sidecars := by
  refine except_mapM_congr fun s member => ?_
  obtain ⟨rule, held, rfl⟩ := ruled s member
  have named : rule.sidecar.service.canonicalName ∈ sizingsSeen rules service :=
    List.mem_cons_of_mem _ (List.mem_cons_of_mem _ (List.mem_map_of_mem held))
  rw [alike.settingsFor (type_seen held service)]
  simp only [alike.ofService named]

theorem podOf (settings : Settings) {sidecars : List SidecarService}
    (ruled : ∀ s ∈ sidecars, ∃ rule ∈ rules, rule.sidecar = s) (staged : List ConfigSource) :
    Assembler.podOf service settings d r sidecars staged =
      Assembler.podOf service settings d' r' sidecars staged := by
  have own : service.canonicalName ∈ sizingsSeen rules service :=
    List.mem_cons_of_mem _ List.mem_cons_self
  simp only [Assembler.podOf, alike.sidecars, alike.initContainers, alike.hostAliases,
    alike.sidecarContainers ruled, alike.ofService own]

variable {σ : Type} {a : Assembler σ}

theorem renderDeployment (settings : Settings) (pod : Pod) :
    a.renderDeployment service settings d pod = a.renderDeployment service settings d' pod := by
  have replicas : d.replicasFor service.serviceType settings =
      d'.replicasFor service.serviceType settings := by
    rw [Deployment.replicasFor, Deployment.replicas_sizing, alike.sizing _ List.mem_cons_self,
      Deployment.replicasFor, Deployment.replicas_sizing]
  simp only [Assembler.renderDeployment, replicas, alike.version]

/-- Alike deployments make one and the same activity of a service's assembly. -/
theorem assemble (ruled : a.rules = rules) : a.assemble service d r = a.assemble service d' r' := by
  have found := alike.settingsFor (own_type_seen rules service)
  have attached : a.sidecarsOf service r = a.sidecarsOf service r' := by
    rw [Assembler.sidecarsOf, ruled, alike.attached, Assembler.sidecarsOf, ruled]
  have known : ∀ s ∈ a.sidecarsOf service r', ∃ rule ∈ rules, rule.sidecar = s := by
    intro s member
    rw [Assembler.sidecarsOf, ruled] at member
    exact exists_of_attached member
  simp only [Assembler.assemble, Assembler.namespaceManifest, Assembler.serviceManifest,
    Assembler.deploymentManifest, Assembler.stagePod, Staging.stage, found, attached,
    alike.account, alike.stagingPath, alike.mergeProfiles known, alike.podOf _ known,
    alike.renderDeployment]

end SidecarRule.SeenAlike

/-- Services are isolated from each other: where two deployments look the same from a service, its
assembly ends the same way, leaves the same store and asks for the same bundles in the same order,
whatever else is declared, with any templates and any store. -/
theorem Assembler.isolated_assembly {σ : Type} (templates : TemplateSet) (store : BundleStore σ)
    (rules : List SidecarRule) (service : Service) (d d' : Deployment) (r r' : Resolved)
    (alike : SidecarRule.SeenAlike rules service d d' r r') (state : σ) :
    let a : Assembler σ := ⟨templates, store, rules⟩
    (a.assemble service d r).outcome state = (a.assemble service d' r').outcome state ∧
      (a.observed.assemble service d r).outcome (state, []) =
        (a.observed.assemble service d' r').outcome (state, []) := by
  intro a
  constructor
  · rw [alike.assemble rfl]
  · rw [alike.assemble rfl]

section Neighbour

/-- The deployment of a service and its monitoring sidecar beside a neighbour with sidecars, init
containers, host aliases and sizing. -/
def neighbourDeployment : Deployment :=
  ⟨.empty, ⟨"demo", "", {
    sidecars := Table.ofList [("api", [⟨"proxy", "proxy:1", [], [], .empty, none, [], some "/tmp"⟩])]
    initContainers := Table.ofList [("api", [.text "init"])]
    hostAliases := Table.ofList [("api", [.null])]
    sizing := some (Table.ofList [("api", ⟨.empty, .empty, some 3⟩)]) }⟩, ⟨"/staging"⟩⟩

def neighbourResolved : Resolved :=
  (sharingPlan.resolved.addSettings "api" (.listening 8081)).addProfile "api"
    (profileAt "shared.yml" "/web/shared.yml")

theorem neighbour_alike : SidecarRule.SeenAlike sharingPlan.rules webEntry.subject
    sharingPlan.deployment neighbourDeployment sharingPlan.resolved neighbourResolved where
  account := rfl
  name := rfl
  version := rfl
  stagingRoot := rfl
  settings := by decide +kernel
  profiles := by decide +kernel
  sidecars := rfl
  initContainers := rfl
  hostAliases := rfl
  sizing := by
    intro name seen
    have other : name ≠ "api" := by
      rintro rfl
      revert seen
      decide
    change none = (Table.ofList [("api", _)]).get? name
    simp [Table.get?_ofList, Table.lookup_cons_eq, other]

theorem neighbour_isolated : SidecarRule.SeenAlike sharingPlan.rules webEntry.subject
      sharingPlan.deployment neighbourDeployment sharingPlan.resolved neighbourResolved ∧
    sharingPlan.resolved.profiles ≠ neighbourResolved.profiles ∧
    ∃ manifests seen, (sharingAssembler.assemble webEntry.subject sharingPlan.deployment
        sharingPlan.resolved).outcome [] = (.ok manifests, seen) ∧
      (sharingAssembler.assemble webEntry.subject neighbourDeployment
        neighbourResolved).outcome [] = (.ok manifests, seen) ∧
      (sharingAssembler.observed.assemble webEntry.subject sharingPlan.deployment
        sharingPlan.resolved).outcome ([], []) =
      (sharingAssembler.observed.assemble webEntry.subject neighbourDeployment
        neighbourResolved).outcome ([], []) := by
  obtain ⟨manifests, seen, assembled⟩ := sharing_assembled
  obtain ⟨same, asked⟩ := Assembler.isolated_assembly .embedded .recording sharingPlan.rules
    webEntry.subject sharingPlan.deployment neighbourDeployment sharingPlan.resolved
    neighbourResolved neighbour_alike []
  exact ⟨neighbour_alike, by decide +kernel, manifests, seen, assembled, same.symm.trans assembled,
    asked⟩

end Neighbour
end Stevedore
