import Stevedore.Proofs.Activity
import Stevedore.Proofs.Table
import Stevedore.Service.Completion

/-!
Completing settings. What an operator declared stays, little else changes, and settings that were
completed once are complete, so that completing them again changes nothing, whatever artifacts,
deployment and location are at hand by then.
-/
namespace Stevedore.Settings

theorem get?_withDefaultVariable (env : Table String) (key value name : String) :
    (withDefaultVariable env key value).get? name =
      if name = key then some ((env.get? key).getD value) else env.get? name := by
  unfold withDefaultVariable Table.contains
  cases held : env.get? key with
  | some own => by_cases same : name = key <;> simp [same, held]
  | none => simp [Table.get?_insert]

/-- The settings that completion gives once it knows where the service goes and what it runs. -/
def filled (declared : Settings) (service : Service) (location image : String) : Settings :=
  { declared with
    location := some location
    address := some (Service.address service.canonicalName location)
    artifactId := some image
    env := if service.runsOnJvm then withDefaultVariable declared.env javaOptionsName javaOptions
      else declared.env }

/-- The image of the settings, or else the one that the artifacts have for the service. -/
def RunsImage (declared : Settings) (artifacts : ArtifactSource) (service : Service)
    (deployment image : String) : Prop :=
  declared.artifactId = some image ∨
    declared.artifactId = none ∧ service.imageFor artifacts deployment = .ok image

section Outcome
variable {declared s : Settings} {artifacts : ArtifactSource} {service : Service}
  {deployment location : String}

theorem complete_ok_iff : declared.complete artifacts service deployment location = .ok s ↔
    ∃ image, declared.RunsImage artifacts service deployment image ∧
      s = declared.filled service (declared.location.getD location) image := by
  unfold complete RunsImage
  cases given : declared.artifactId with
  | some own =>
    simp only [Option.some.injEq, reduceCtorEq, false_and, or_false, exists_eq_left']
    constructor
    · intro ok
      exact (Except.ok.inj ok).symm
    · rintro rfl
      rfl
  | none =>
    simp only [reduceCtorEq, false_or, true_and]
    rw [except_bind_ok]
    constructor
    · rintro ⟨image, found, made⟩
      exact ⟨image, found, (Except.ok.inj made).symm⟩
    · rintro ⟨image, found, rfl⟩
      exact ⟨image, found, rfl⟩

/-- Completing settings leaves alone what decides about attachment and what pods get besides. -/
theorem complete_keeps
    (ok : declared.complete artifacts service deployment location = .ok s) :
    s.enabled = declared.enabled ∧ s.monitored = declared.monitored ∧ s.extras = declared.extras := by
  obtain ⟨image, -, rfl⟩ := complete_ok_iff.mp ok
  exact ⟨rfl, rfl, rfl⟩

/-- Settings of a service that lack nothing of what completion gives and have the address of the
service in the namespace that they name. -/
structure Completed (service : Service) (s : Settings) : Prop where
  located : ∃ namespaceName, s.location = some namespaceName
  addressed : s.address = some (Service.address service.canonicalName s.namespaceName)
  imaged : ∃ image, s.artifactId = some image
  fitted : service.runsOnJvm = true → s.env.contains javaOptionsName = true

theorem completed_filled (declared : Settings) (service : Service) (location image : String) :
    (declared.filled service location image).Completed service where
  located := ⟨location, rfl⟩
  addressed := rfl
  imaged := ⟨image, rfl⟩
  fitted := by
    intro onJvm
    simp [filled, onJvm, Table.contains, get?_withDefaultVariable]

/-- What is complete is what completion makes of it. -/
theorem Completed.filled_self (completed : s.Completed service) {image : String}
    (runs : s.artifactId = some image) (location : String) :
    s.filled service (s.location.getD location) image = s := by
  obtain ⟨⟨home, located⟩, addressed, -, fitted⟩ := completed
  have named : s.namespaceName = home := by rw [namespaceName, located, Option.getD_some]
  have env : (if service.runsOnJvm then withDefaultVariable s.env javaOptionsName javaOptions
      else s.env) = s.env := by
    split
    · next onJvm => exact if_pos (fitted onJvm)
    · rfl
  rw [filled, env, located, Option.getD_some, ← located, ← runs]
  rw [named] at addressed
  rw [← addressed]

theorem Completed.complete_self (completed : s.Completed service) (artifacts : ArtifactSource)
    (deployment location : String) :
    s.complete artifacts service deployment location = .ok s := by
  obtain ⟨image, runs⟩ := completed.imaged
  exact complete_ok_iff.mpr ⟨image, .inl runs, (completed.filled_self runs location).symm⟩

/-- What an operator declared is still there. -/
structure KeptIn (declared s : Settings) : Prop where
  location : ∀ namespaceName, declared.location = some namespaceName →
    s.location = some namespaceName
  artifactId : ∀ image, declared.artifactId = some image → s.artifactId = some image
  env : ∀ name value, declared.env.get? name = some value → s.env.get? name = some value

/-- Nothing else has changed than location, address and image and, of the variables, the Java options
of a service that runs on a JVM. -/
structure SameElsewhere (service : Service) (declared s : Settings) : Prop where
  fields : s = { declared with
    location := s.location, address := s.address, artifactId := s.artifactId, env := s.env }
  env : ∀ name, name ≠ javaOptionsName → s.env.get? name = declared.env.get? name
  native : service.runsOnJvm = false → s.env = declared.env

theorem get?_env_filled (declared : Settings) (service : Service) (location image name : String) :
    (declared.filled service location image).env.get? name =
      if service.runsOnJvm ∧ name = javaOptionsName then
        some ((declared.env.get? name).getD javaOptions)
      else declared.env.get? name := by
  rw [filled]
  by_cases onJvm : service.runsOnJvm
  · rw [if_pos onJvm, get?_withDefaultVariable]
    by_cases java : name = javaOptionsName <;> simp [onJvm, java]
  · simp [onJvm]

theorem keptIn_filled {image : String}
    (runs : declared.RunsImage artifacts service deployment image) :
    declared.KeptIn (declared.filled service (declared.location.getD location) image) where
  location := by
    intro namespaceName given
    rw [filled, given, Option.getD_some]
  artifactId := by
    intro own given
    rcases runs with same | ⟨missing, -⟩
    · rw [filled, ← same, given]
    · rw [given] at missing
      contradiction
  env := by
    intro name value given
    rw [get?_env_filled, given]
    simp

theorem sameElsewhere_filled (declared : Settings) (service : Service) (location image : String) :
    declared.SameElsewhere service (declared.filled service location image) where
  fields := rfl
  env := by
    intro name other
    rw [get?_env_filled, if_neg fun java => other java.2]
  native := by
    intro offJvm
    simp [filled, offJvm]

/-- Completion is a closure. It keeps what is declared, changes nothing that is not its to give and
leaves nothing out, the address of the service where it goes included; and what it gives stays as it
is when it is completed again, with whatever artifacts, for whatever deployment and location. -/
theorem completion_closed (declared s : Settings) (artifacts : ArtifactSource) (service : Service)
    (deployment location : String)
    (ok : declared.complete artifacts service deployment location = .ok s) :
    declared.KeptIn s ∧ declared.SameElsewhere service s ∧ s.Completed service ∧
      ∀ (artifacts' : ArtifactSource) (deployment' location' : String),
        s.complete artifacts' service deployment' location' = .ok s := by
  obtain ⟨image, runs, rfl⟩ := complete_ok_iff.mp ok
  have completed := completed_filled declared service (declared.location.getD location) image
  exact ⟨keptIn_filled runs, sameElsewhere_filled declared service _ image, completed,
    completed.complete_self⟩

end Outcome

section Gate

def gateService : Service := .named "spin-gate" "gate" "gate"

/-- No location and no image is declared, but Java options are. -/
def gateDeclared : Settings :=
  { port := 8084, address := some "gate.old", scheme := "http", healthPath := none, targetSize := 1,
    env := Table.ofList [(javaOptionsName, "-Xmx1g"), ("LEVEL", "info")], enabled := true,
    monitored := false, artifactId := none, location := none, extras := .none }

def gateSettings : Settings :=
  { gateDeclared with
    address := some "spin-gate.spinnaker"
    artifactId := some "registry/gate:1.31.0"
    location := some "spinnaker" }

def gateCatalog : Catalog := { registry := "registry", version := some "1.31.0", pins := .empty }

/-- The second completion has no catalog to look into and would put the service elsewhere. -/
theorem gate_completion_closed :
    gateDeclared.complete gateCatalog.source gateService "prod" "spinnaker" = .ok gateSettings ∧
      gateDeclared.KeptIn gateSettings ∧ gateDeclared.SameElsewhere gateService gateSettings ∧
      gateSettings.Completed gateService ∧
      gateSettings.complete Catalog.empty.source gateService "test" "elsewhere" =
        .ok gateSettings := by
  have ok : gateDeclared.complete gateCatalog.source gateService "prod" "spinnaker" =
      .ok gateSettings := by rfl
  obtain ⟨kept, elsewhere, completed, again⟩ := completion_closed gateDeclared gateSettings
    gateCatalog.source gateService "prod" "spinnaker" ok
  exact ⟨ok, kept, elsewhere, completed, again _ _ _⟩

end Gate
end Stevedore.Settings
