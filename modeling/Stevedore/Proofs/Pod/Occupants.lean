import Stevedore.Proofs.Manifest.Deployment
import Stevedore.Proofs.Pod.Containers

/-!
Who has a container in the pod of a service: the service itself, the sidecar services whose conditions
hold, and the custom sidecars of its type, in this order. What each container is follows from its
occupant, and a reader of the manifest finds just these containers.
-/
namespace Stevedore
open Json Manifest Template
open Manifest.Fragment (label)

/-- A sidecar service, with any condition on the settings, the host and the sidecar itself. -/
structure Offer where
  sidecar : SidecarService
  condition : Table Settings → Service → SidecarService → Bool

def Offer.holds (settings : Table Settings) (host : Service) (o : Offer) : Bool :=
  o.condition settings host o.sidecar

/-- A rule decides about a host as an offer does. -/
structure SidecarRule.Decides (settings : Table Settings) (host : Service) (rule : SidecarRule)
    (o : Offer) : Prop where
  sidecar : rule.sidecar = o.sidecar
  holds : rule.holds settings host = o.holds settings host

inductive Occupant where
  | service (s : Service)
  | custom (s : CustomSidecar)

/-- The occupants of the pod of a host, as they are declared. -/
def Occupant.declared (host : Service) (deployment : Deployment) (settings : Table Settings)
    (offers : List Offer) : List Occupant :=
  .service host :: (offers.filter fun o => o.holds settings host).map (.service ·.sidecar.service) ++
    (deployment.environment.sidecarsFor host.serviceType).map .custom

/-- The entry that sizes a container: the one of its own name, or that of its host's type where
there is none. -/
def Sizing.Governs (sizing : Option SizingTable) (name hostType : String) (entry : Sizing) : Prop :=
  ∃ table ∈ sizing, (name, entry) ∈ table.entries ∨
    (∀ own, (name, own) ∉ table.entries) ∧ (hostType, entry) ∈ table.entries

namespace Container

/-- The container is that of a service with the given settings, in the pod of a host. -/
structure Runs (host : Service) (sizing : Option SizingTable) (s : Service) (own : Settings)
    (c : Container) : Prop where
  name : c.name = s.canonicalName
  image : c.image = own.artifactId
  port : c.port = some own.port
  probe : c.probe = some (Probe.of own)
  resources : ∀ r, c.resources = some r ↔ ∃ entry,
    Sizing.Governs sizing s.canonicalName host.serviceType entry ∧
    (entry.requests.entries ≠ [] ∨ entry.limits.entries ≠ []) ∧ r = ⟨entry.requests, entry.limits⟩

/-- The container is what a custom sidecar declares and nothing else. -/
structure Declares (s : CustomSidecar) (c : Container) : Prop where
  name : c.name = s.name
  image : c.image = some s.image
  command : c.command = s.command
  args : c.args = s.args
  env : c.env = s.env
  securityContext : c.securityContext = s.securityContext
  volumeMounts : c.volumeMounts =
    (s.scratchPath.map fun path => (⟨s.name, path⟩ : VolumeMount)).toList ++
      s.configMapMounts.map fun m => ⟨m.configMapName, m.mountPath⟩
  port : c.port = none
  probe : c.probe = none
  preStop : c.preStop = none
  resources : c.resources = none

end Container

/-- The container is that of an occupant. -/
def Occupant.Has (host : Service) (deployment : Deployment) (resolved : Resolved) :
    Occupant → Container → Prop
  | .service s, c => ∃ own, resolved.settings.get? s.serviceType = some own ∧
      c.Runs host deployment.sizing s own
  | .custom s, c => c.Declares s

/-- The count of replicas that is declared: that of the sizing entry of the service's type, or that of
its settings where there is none. -/
def Deployment.Scales (deployment : Deployment) (service : Service) (settings : Settings)
    (replicas : UInt32) : Prop :=
  let sized (n : UInt32) := ∃ table ∈ deployment.sizing, ∃ entry,
    (service.serviceType, entry) ∈ table.entries ∧ entry.replicas = some n
  sized replicas ∨ (∀ n, ¬ sized n) ∧ replicas = settings.targetSize

section Sizes

theorem SizingTable.lookup_eq_some_iff {table : SizingTable} {name hostType : String}
    {entry : Sizing} : table.lookup name hostType = some entry ↔
      (name, entry) ∈ table.entries ∨
        (∀ own, (name, own) ∉ table.entries) ∧ (hostType, entry) ∈ table.entries := by
  simp only [SizingTable.lookup, Option.or_eq_some_iff, Table.mem_entries_iff,
    Option.eq_none_iff_forall_ne_some]

theorem Sizing.governs_iff {sizing : Option SizingTable} {name hostType : String}
    {entry : Sizing} : Governs sizing name hostType entry ↔
      (sizing.bind fun t => t.lookup name hostType) = some entry := by
  simp only [Governs, Option.bind_eq_some_iff, SizingTable.lookup_eq_some_iff, Option.mem_def]

theorem resources_of_iff {sizing : Option SizingTable} {name hostType : String} {r : Resources} :
    Resources.of sizing name hostType = some r ↔ ∃ entry, Sizing.Governs sizing name hostType entry ∧
      (entry.requests.entries ≠ [] ∨ entry.limits.entries ≠ []) ∧
        r = ⟨entry.requests, entry.limits⟩ := by
  rw [Resources.of, Option.bind_eq_some_iff]
  refine exists_congr fun entry => and_congr Sizing.governs_iff.symm ?_
  split
  · next none_ =>
    simp only [Table.isEmpty, Bool.and_eq_true, List.isEmpty_iff] at none_
    simp [none_]
  · next some_ =>
    simp only [Table.isEmpty, Bool.and_eq_true, List.isEmpty_iff, not_and_or] at some_
    simp [some_, eq_comm]

theorem scales_replicasFor (deployment : Deployment) (service : Service) (settings : Settings) :
    deployment.Scales service settings (deployment.replicasFor service.serviceType settings) := by
  have sized (n : UInt32) : (deployment.sizing.bind fun t => t.replicas service.serviceType) = some n ↔
      ∃ table ∈ deployment.sizing, ∃ entry,
        (service.serviceType, entry) ∈ table.entries ∧ entry.replicas = some n := by
    simp only [SizingTable.replicas, Option.bind_eq_some_iff, Table.mem_entries_iff, Option.mem_def]
  simp only [Deployment.Scales, ← sized, Deployment.replicasFor]
  cases deployment.sizing.bind fun t => t.replicas service.serviceType with
  | none => exact .inr ⟨by simp, rfl⟩
  | some n => exact .inl rfl

end Sizes

section Rules
variable {settings : Table Settings} {host : Service}

theorem attached_of_decides {rules : List SidecarRule} {offers : List Offer}
    (decided : List.Forall₂ (SidecarRule.Decides settings host) rules offers) :
    SidecarRule.attached rules settings host =
      (offers.filter fun o => o.holds settings host).map (·.sidecar) := by
  unfold SidecarRule.attached
  induction decided with
  | nil => rfl
  | @cons rule o rules offers first _ ih =>
    rw [List.filter_cons, List.filter_cons, first.holds]
    split
    · rw [List.map_cons, List.map_cons, ih, first.sidecar]
    · exact ih

theorem isMonitoring_iff {s : SidecarService} :
    SidecarRule.isMonitoring settings host s = true ↔
      (∃ own ∈ settings.get? s.service.serviceType, own.enabled = true) ∧
        ∃ own ∈ settings.get? host.serviceType, own.monitored = true := by
  have held (flag : Settings → Bool) (value : Option Settings) :
      (value.map flag).getD false = true ↔ ∃ own ∈ value, flag own = true := by
    cases value <;> simp
  rw [SidecarRule.isMonitoring, Bool.and_eq_true, held, held]

end Rules

section Manifests
variable {p : Pod} {text : String}

theorem leads_containers (formed : ∀ c ∈ p.containers, c.WellFormed)
    (ok : TemplateSet.embedded.renderPod p = .ok text) :
    Leads [.field "containers"] text.toList (.list (p.containers.map (·.json))) := by
  obtain ⟨containers, volumes, containersOk, -, shown⟩ := pod_shown ok
  obtain ⟨pieces, piecesOk, spell⟩ :=
    rendered_all fun c (member : c ∈ p.containers) => rendered_container (formed c member)
  obtain rfl := Except.ok.inj (containersOk.symm.trans piecesOk)
  rw [shown, podPieces]
  simp only [List.append_assoc, List.singleton_append]
  exact leads_record _ .nil (by simp) (leads_nil (spells_list one_space spell)) _ ends_space

end Manifests

theorem settingsFor_ok_iff {resolved : Resolved} {s : Service} {settings : Settings} :
    resolved.settingsFor s = .ok settings ↔
      resolved.settings.get? s.serviceType = some settings := by
  unfold Resolved.settingsFor Resolved.settingsOf?
  cases resolved.settings.get? s.serviceType <;> simp

namespace Assembler
variable {σ : Type} {a : Assembler σ} {service : Service} {settings : Settings}
  {deployment : Deployment} {resolved : Resolved} {staged : List ConfigSource} {pod : Pod}

theorem runs_ofService (host : Service) (deployment : Deployment) (s : Service) (own : Settings)
    (sources : List ConfigSource) (env : Table String) :
    (Container.ofService host deployment.sizing s.canonicalName own sources env).Runs host
      deployment.sizing s own where
  name := rfl
  image := rfl
  port := rfl
  probe := rfl
  resources _ := resources_of_iff

theorem declares_ofSidecar (s : CustomSidecar) : (Container.ofSidecar s).Declares s := by
  constructor <;> rfl

theorem occupants_podOf {offers : List Offer}
    (found : resolved.settingsFor service = .ok settings)
    (made : podOf service settings deployment resolved
      ((offers.filter fun o => o.holds resolved.settings service).map (·.sidecar)) staged = .ok pod) :
    List.Forall₂ (Occupant.Has service deployment resolved)
      (Occupant.declared service deployment resolved.settings offers) pod.containers := by
  obtain ⟨attached, related, containers⟩ := containers_podOf made
  rw [containers, Occupant.declared]
  refine List.rel_append (.cons ?_ ?_) ?_
  · exact ⟨settings, settingsFor_ok_iff.mp found, runs_ofService _ _ _ _ _ _⟩
  · rw [List.forall₂_map_left_iff] at related ⊢
    refine related.imp fun o c attaches => ?_
    obtain ⟨own, known, rfl⟩ := attaches
    exact ⟨own, settingsFor_ok_iff.mp known, runs_ofService _ _ _ _ _ _⟩
  · rw [List.forall₂_map_left_iff, List.forall₂_map_right_iff]
    exact List.forall₂_same.mpr fun s _ => declares_ofSidecar s

/-- The containers of a deployed pod are those of its declared occupants, whatever decides about the
sidecars, and these are the containers in the manifest, beside the declared count of replicas. -/
theorem occupants_rendered (a : Assembler σ) (service : Service) (deployment : Deployment)
    (resolved : Resolved) (offers : List Offer) (s s' : σ) (text : String)
    (decides : List.Forall₂ (SidecarRule.Decides resolved.settings service) a.rules offers)
    (ok : (a.deploymentManifest service deployment resolved).outcome s = (.ok text, s')) :
    ∃ settings staged pod,
      a.Deployed service deployment resolved s settings staged pod text s' ∧
      List.Forall₂ (Occupant.Has service deployment resolved)
        (Occupant.declared service deployment resolved.settings offers) pod.containers ∧
      (∀ rule ∈ a.rules, rule.condition = .monitoring →
        (rule.holds resolved.settings service = true ↔
          (∃ own ∈ resolved.settings.get? rule.sidecar.service.serviceType, own.enabled = true) ∧
            settings.monitored = true)) ∧
      (a.templates = .embedded →
        (∀ table ∈ deployment.sizing, ∀ sizing ∈ table.values,
          (ofTable sizing.requests).WellFormed ∧ (ofTable sizing.limits).WellFormed) →
        Text.read? [.field "spec", .field "template", .field "spec", .field "containers"] text =
          some (.list (pod.containers.map (·.json))) ∧
        ∃ replicas, deployment.Scales service settings replicas ∧
          Text.read? [.field "spec", .field "replicas"] text = some (.integer replicas.toNat)) := by
  obtain ⟨settings, staged, pod, deployed⟩ := deployed_of_ok ok
  have made := deployed.made
  rw [sidecarsOf, attached_of_decides decides] at made
  have host := settingsFor_ok_iff.mp deployed.found
  refine ⟨settings, staged, pod, deployed, occupants_podOf deployed.found made, ?_, ?_⟩
  · intro rule _ monitoring
    rw [SidecarRule.holds, monitoring]
    simp only [isMonitoring_iff, host, Option.mem_some_iff, exists_eq_left']
  · intro embedded formed
    obtain ⟨podText, podOk, flat, closed, rendered⟩ := deployed.shown embedded
    have containers := leads_containers (quantities_podOf formed deployed.made) podOk
    obtain ⟨-, -, -, listed⟩ := read_deployment flat closed containers rendered
    exact ⟨listed, _, scales_replicasFor deployment service settings,
      read_replicas flat closed rendered⟩

end Assembler

section Sized

/-- The sizing of a service that has replicas too, and of its monitoring sidecar. -/
def sizedTable : SizingTable :=
  Table.ofList [("web", ⟨Table.ofList [("cpu", .text "500m")], .empty, some 3⟩),
    ("monitor", ⟨.empty, Table.ofList [("memory", .integer 64)], none⟩)]

def sizedDeployment : Deployment :=
  ⟨.empty, ⟨"demo", "", { crewEnvironment with sizing := some sizedTable }⟩, ⟨"/staging"⟩⟩

def sizedOffers : List Offer :=
  crewPlan.rules.map fun rule => ⟨rule.sidecar, SidecarRule.isMonitoring⟩

theorem sized_deployed : ∃ text seen,
    (crewAssembler.deploymentManifest webEntry.subject sizedDeployment
      crewPlan.resolved).outcome [] = (.ok text, seen) := by
  exact Assembler.recorded_deployment rfl rfl rfl crew_attached rfl []

theorem sized_formed : ∀ table ∈ sizedDeployment.sizing, ∀ sizing ∈ table.values,
    (ofTable sizing.requests).WellFormed ∧ (ofTable sizing.limits).WellFormed := by
  intro table held sizing member
  obtain rfl : sizedTable = table := Option.some.inj held
  have values : sizedTable.values = [⟨.empty, Table.ofList [("memory", .integer 64)], none⟩,
    ⟨Table.ofList [("cpu", .text "500m")], .empty, some 3⟩] := by rfl
  rw [values, List.mem_cons, List.mem_singleton] at member
  have none_ : (ofTable Table.empty).WellFormed := ⟨.nil, trivial⟩
  rcases member with rfl | rfl
  · exact ⟨none_, Table.sorted _, wellFormed_natural (show 64 < 2 ^ 64 by decide), trivial⟩
  · exact ⟨⟨Table.sorted _, trivial, trivial⟩, none_⟩

theorem sized_occupants_rendered :
    List.Forall₂ (SidecarRule.Decides crewPlan.resolved.settings webEntry.subject)
      crewAssembler.rules sizedOffers ∧
    ∃ text seen, (crewAssembler.deploymentManifest webEntry.subject sizedDeployment
        crewPlan.resolved).outcome [] = (.ok text, seen) ∧
      ∃ settings staged pod, crewAssembler.Deployed webEntry.subject sizedDeployment
          crewPlan.resolved [] settings staged pod text seen ∧
        pod.containers.length = 4 ∧
        Text.read? [.field "spec", .field "template", .field "spec", .field "containers"] text =
          some (.list (pod.containers.map (·.json))) ∧
        ∃ replicas, sizedDeployment.Scales webEntry.subject settings replicas ∧
          Text.read? [.field "spec", .field "replicas"] text =
            some (.integer replicas.toNat) := by
  have decides : List.Forall₂ (SidecarRule.Decides crewPlan.resolved.settings webEntry.subject)
      crewAssembler.rules sizedOffers := .cons ⟨rfl, rfl⟩ .nil
  obtain ⟨text, seen, ok⟩ := sized_deployed
  obtain ⟨settings, staged, pod, deployed, has, -, rendered⟩ := Assembler.occupants_rendered
    crewAssembler webEntry.subject sizedDeployment crewPlan.resolved sizedOffers [] seen text decides
    ok
  obtain ⟨listed, scaled⟩ := rendered rfl sized_formed
  exact ⟨decides, text, seen, ok, settings, staged, pod, deployed, has.length_eq.symm, listed, scaled⟩

end Sized
end Stevedore
