import Stevedore.Proofs.Label
import Stevedore.Proofs.Manifest.Reading

/-!
What a reader finds in the manifest of a deployment around its pod: the count of replicas and, on the
deployment and on its pods, the version as a label. The label is one that clusters take exactly when
what is left of the version fits into it.
-/
namespace Stevedore
open Json Manifest Template
open Manifest.Fragment (label)

section Values
variable {name space version pod text : String} {annotations : Json}

theorem leads_version (name version : String) {close : List Char}
    (ends : ∀ tail, Ends (close ++ tail)) :
    Leads [.field "app.kubernetes.io/version"]
      ('\x7b' :: joinWith [',', ' '] (deploymentLabels name version) ++ close) (.text version) := by
  have app : SpellsField _ ("app", .text name) := spellsField_write "app" trivial
  have cluster : SpellsField _ ("cluster", .text name) := spellsField_write "cluster" trivial
  have named : SpellsField _ ("app.kubernetes.io/name", .text name) :=
    spellsField_write "app.kubernetes.io/name" trivial
  exact leads_record _ (.cons app (.cons cluster (.cons named .nil))) (by simp) (leads_text version)
    [_] ends

theorem read_version {replicas : Json} (flat : Flat pod.toList) (closed : Text.Closed pod.toList)
    (ok : TemplateSet.embedded.render .deploymentManifest [("name", .text name),
      ("namespace", .text space), ("replicas", replicas), ("version", .text version),
      ("podAnnotations", annotations), ("podSpec", .text pod)] = .ok text) :
    Text.read? [.field "metadata", .field "labels", .field "app.kubernetes.io/version"] text =
      some (.text version) ∧
    Text.read? [.field "spec", .field "template", .field "metadata", .field "labels",
      .field "app.kubernetes.io/version"] text = some (.text version) := by
  simp only [Text.read?, lines_deployment flat closed ok]
  exact ⟨at_of_leads (leads_version name version ends_brace),
    at_of_leads (leads_version name version ends_brace)⟩

theorem read_replicas {replicas : UInt32} (flat : Flat pod.toList)
    (closed : Text.Closed pod.toList)
    (ok : TemplateSet.embedded.render .deploymentManifest [("name", .text name),
      ("namespace", .text space), ("replicas", .integer replicas.toNat), ("version", .text version),
      ("podAnnotations", annotations), ("podSpec", .text pod)] = .ok text) :
    Text.read? [.field "spec", .field "replicas"] text = some (.integer replicas.toNat) := by
  have small : replicas.toNat < 2 ^ 64 := by
    have := replicas.toNat_lt
    omega
  rw [Text.read?, lines_deployment flat closed ok]
  exact at_of_leads (leads_nil (spells_write _ (wellFormed_natural small)))

end Values

namespace Assembler
variable {σ : Type} {a : Assembler σ} {service : Service} {deployment : Deployment}
  {resolved : Resolved} {s s' : σ} {text : String}

/-- With the embedded templates the text of a deployment is theirs, filled from its settings and the
text of its pod. -/
theorem Deployed.shown {settings : Settings} {staged : List ConfigSource} {pod : Pod}
    (deployed : a.Deployed service deployment resolved s settings staged pod text s')
    (embedded : a.templates = .embedded) :
    ∃ podText, TemplateSet.embedded.renderPod pod = .ok podText ∧ Flat podText.toList ∧
      Text.Closed podText.toList ∧
      TemplateSet.embedded.render .deploymentManifest
        [("name", .text service.canonicalName), ("namespace", .text settings.namespaceName),
          ("replicas", .integer (deployment.replicasFor service.serviceType settings).toNat),
          ("version", .text (Label.ofVersion deployment.configuration.version)),
          ("podAnnotations", .textTable settings.extras.annotations),
          ("podSpec", .text podText)] = .ok text := by
  have rendered := deployed.rendered
  rw [renderDeployment, embedded] at rendered
  obtain ⟨podText, podOk, rendered⟩ := except_bind_ok.mp rendered
  have podOk := fromTemplate_ok_iff.mp podOk
  obtain ⟨flat, closed⟩ := flat_pod (flatEntries_podOf deployed.made) podOk
  exact ⟨podText, podOk, flat, closed, fromTemplate_ok_iff.mp rendered⟩

/-- A deployment and its pods carry one label with what sanitizing leaves of the version, or
`unknown`. It always has the form of a label, and the length of one just if no piece of the version's
allowed characters with alphanumeric characters at both ends is longer. -/
theorem version_labels_valid_iff (a : Assembler σ) (service : Service) (deployment : Deployment)
    (resolved : Resolved) (s s' : σ) (text : String) (embedded : a.templates = .embedded)
    (ok : (a.deploymentManifest service deployment resolved).outcome s = (.ok text, s')) :
    let version := deployment.configuration.version
    let label := Label.ofVersion version
    Text.read? [.field "metadata", .field "labels", .field "app.kubernetes.io/version"] text =
      some (.text label) ∧
    Text.read? [.field "spec", .field "template", .field "metadata", .field "labels",
      .field "app.kubernetes.io/version"] text = some (.text label) ∧
    1 ≤ label.length ∧
    (∀ c ∈ label.toList, c.isAlphanum = true ∨ c ∈ ['-', '_', '.']) ∧ Label.Edged label.toList ∧
    (Label.IsValue label ↔
      ∀ piece, piece <:+: Label.allowed version → Label.Edged piece → piece.length ≤ 63) := by
  intro version label
  obtain ⟨settings, staged, pod, deployed⟩ := deployed_of_ok ok
  obtain ⟨podText, -, flat, closed, rendered⟩ := deployed.shown embedded
  obtain ⟨own, pods⟩ := read_version flat closed rendered
  obtain ⟨some_, characters, edged⟩ := Label.formed_ofVersion version
  refine ⟨own, pods, some_, characters, edged, ?_⟩
  rw [← Label.length_ofVersion_le_iff]
  exact ⟨fun valid => valid.size.2, fun short => ⟨⟨some_, short⟩, characters, edged⟩⟩

end Assembler

section Lengthy

/-- A version of 64 characters, each of them allowed. -/
def lengthyVersion : String := String.ofList (List.replicate 64 'a')

def lengthyDeployment : Deployment :=
  { hostileDeployment with
    configuration := { hostileDeployment.configuration with version := lengthyVersion } }

theorem lengthy_deployed : ∃ text seen,
    (hostileAssembler.deploymentManifest hostileService lengthyDeployment hostileResolved).outcome
      [] = (.ok text, seen) := by
  have alone : hostileAssembler.sidecarsOf hostileService hostileResolved = [] := rfl
  have attached : ∀ s ∈ hostileAssembler.sidecarsOf hostileService hostileResolved,
      ∃ own, hostileResolved.settingsFor s.service = .ok own := by
    rw [alone]
    exact List.forall_mem_nil _
  exact Assembler.recorded_deployment rfl rfl rfl attached rfl []

theorem lengthy_version_labels : hostileAssembler.templates = .embedded ∧
    ∃ text seen, (hostileAssembler.deploymentManifest hostileService lengthyDeployment
        hostileResolved).outcome [] = (.ok text, seen) ∧
      Text.read? [.field "metadata", .field "labels", .field "app.kubernetes.io/version"] text =
        some (.text lengthyVersion) ∧
      (Label.IsValue lengthyVersion ↔ ∀ piece, piece <:+: Label.allowed lengthyVersion →
        Label.Edged piece → piece.length ≤ 63) := by
  obtain ⟨text, seen, ok⟩ := lengthy_deployed
  obtain ⟨own, -, -, -, -, fits⟩ := Assembler.version_labels_valid_iff hostileAssembler
    hostileService lengthyDeployment hostileResolved [] seen text rfl ok
  have same : Label.ofVersion lengthyDeployment.configuration.version = lengthyVersion := by
    decide +kernel
  rw [same] at own fits
  exact ⟨rfl, text, seen, ok, own, fits⟩

/-- The label of a version is not always one that clusters take. -/
theorem lengthy_label_invalid : ¬ ∀ version, Label.IsValue (Label.ofVersion version) := by
  intro valid
  have short := (valid lengthyVersion).size.2
  revert short
  decide +kernel

end Lengthy
end Stevedore
