import Stevedore.Proofs.Assembly
import Stevedore.Proofs.Resolution

/-!
What an accepted declaration resolves to. It resolves if every entry has an image or a version of
its artifact; under each type then stand the settings and profiles of one entry, and under others
nothing.
-/
namespace Stevedore.Declaration

/-- An entry can be given an image: it declares one, or its artifact has a version. -/
inductive Versioned (d : Declaration) (e : Entry Service) : Prop where
  | declared {image : String} (own : e.settings.artifactId = some image)
  | pinned {pin : ArtifactPin} {version : String}
      (found : d.artifacts.pins.get? e.subject.artifactName = some pin)
      (here : pin.version = some version)
  | common {version : String} (here : d.artifacts.version = some version)

/-- Everyone's inputs are those that its own entry declares. -/
structure Inputs (d : Declaration) (plan : Plan) : Prop where
  settings : ∀ e ∈ d.entries, ∃ settings,
    e.settings.complete d.artifacts.source e.subject d.name d.location = .ok settings ∧
      plan.resolved.settings.get? e.subject.serviceType = some settings
  profiles : ∀ e ∈ d.entries, ∀ name p,
    (plan.resolved.profilesOf e.subject.serviceType).get? name = some p ↔
      p.name = name ∧ p.LastIn e.profiles
  others : ∀ type, (∀ e ∈ d.entries, e.subject.serviceType ≠ type) →
    plan.resolved.settings.get? type = none ∧ plan.resolved.profiles.get? type = none
  services : plan.services = d.services.map (·.subject)

section Versions
variable {d : Declaration} {e : Entry Service}

theorem versionOf?_eq_none_iff {c : Catalog} {artifact : String} : c.versionOf? artifact = none ↔
    (∀ pin, c.pins.get? artifact = some pin → pin.version = none) ∧ c.version = none := by
  rw [Catalog.versionOf?, Option.or_eq_none_iff, Option.bind_eq_none_iff]

theorem versioned_iff : d.Versioned e ↔
    e.settings.artifactId ≠ none ∨ d.artifacts.versionOf? e.subject.artifactName ≠ none := by
  constructor
  · rintro (own | ⟨found, here⟩ | here)
    · exact .inl (by simp [own])
    · refine .inr fun missing => ?_
      rw [(versionOf?_eq_none_iff.mp missing).1 _ found] at here
      contradiction
    · refine .inr fun missing => ?_
      rw [(versionOf?_eq_none_iff.mp missing).2] at here
      contradiction
  · rintro (own | version)
    · obtain ⟨image, own⟩ := Option.ne_none_iff_exists'.mp own
      exact .declared own
    · obtain ⟨version, here⟩ := Option.ne_none_iff_exists'.mp version
      rcases Option.or_eq_some_iff.mp here with pinned | ⟨-, common⟩
      · obtain ⟨pin, found, here⟩ := Option.bind_eq_some_iff.mp pinned
        exact .pinned found here
      · exact .common common

theorem failure?_completeSettings_iff {error : DeployError} :
    failure? (d.completeSettings e) = some error ↔
      ¬ d.Versioned e ∧ error = .missingArtifactVersion e.subject.artifactName d.name := by
  rw [versioned_iff, completeSettings, Settings.complete]
  cases own : e.settings.artifactId with
  | some image => simp [failure?, bind, Except.bind, pure, Except.pure]
  | none =>
    simp only [Service.imageFor, ArtifactSource.image?, Catalog.source]
    cases version : d.artifacts.versionOf? e.subject.artifactName with
    | some text => simp [failure?, bind, Except.bind, pure, Except.pure]
    | none => simp [failure?, bind, Except.bind, eq_comm]

theorem failure?_completeSettings_eq_none_iff :
    failure? (d.completeSettings e) = none ↔ d.Versioned e := by
  rw [Option.eq_none_iff_forall_ne_some]
  simp [failure?_completeSettings_iff]

end Versions

section Resolving
variable {d : Declaration} {root : Path} {plan : Plan}

theorem failure?_resolve (d : Declaration) (root : Path) :
    failure? (d.resolve root) = d.entries.findSome? fun e => failure? (d.completeSettings e) := by
  rw [← failure?_foldlM (failure?_addEntry d) d.entries .empty, resolve]
  cases d.entries.foldlM d.addEntry .empty <;> rfl

theorem resolve_eq_error_iff {error : DeployError} : d.resolve root = .error error ↔
    ∃ before e after, d.entries = before ++ e :: after ∧ (∀ f ∈ before, d.Versioned f) ∧
      ¬ d.Versioned e ∧ error = .missingArtifactVersion e.subject.artifactName d.name := by
  rw [← failure?_eq_some_iff, failure?_resolve, List.findSome?_eq_some_iff]
  simp only [failure?_completeSettings_iff, failure?_completeSettings_eq_none_iff]
  constructor
  · rintro ⟨before, e, after, split, here, earlier⟩
    exact ⟨before, e, after, split, earlier, here⟩
  · rintro ⟨before, e, after, split, earlier, here⟩
    exact ⟨before, e, after, split, here, earlier⟩

theorem inputs_of_resolved (accepted : d.violation? = none) (ok : d.resolve root = .ok plan) :
    Inputs d plan := by
  constructor
  · exact fun e declared => settings_resolved accepted ok declared
  · intro e declared name p
    rw [profilesOf_resolved accepted ok declared, Profile.get?_byName]
    constructor
    · intro found
      have named : p.name = name := by simpa using List.find?_some found
      exact ⟨named, by rw [Profile.LastIn, named, found]⟩
    · rintro ⟨rfl, last⟩
      exact last
  · intro type other
    have foreign : type ∉ d.entries.map (·.subject.serviceType) := by
      rintro held
      obtain ⟨e, declared, same⟩ := List.mem_map.mp held
      exact other e declared same
    have nothing := (under_resolved accepted ok).2 type foreign
    exact ⟨congrArg Prod.fst nothing, congrArg Prod.snd nothing⟩
  · exact (resolve_ok_iff.mp ok).2.2.1

/-- An accepted declaration resolves just if all its entries can be given images, and otherwise the
error names the artifact of the first one that cannot. -/
theorem resolves_own_inputs (d : Declaration) (root : Path) (accepted : d.violation? = none) :
    ((∃ plan, d.resolve root = .ok plan) ↔ ∀ e ∈ d.entries, d.Versioned e) ∧
    (∀ error, d.resolve root = .error error ↔ ∃ before e after, d.entries = before ++ e :: after ∧
      (∀ f ∈ before, d.Versioned f) ∧ ¬ d.Versioned e ∧
      error = .missingArtifactVersion e.subject.artifactName d.name) ∧
    ∀ plan, d.resolve root = .ok plan → Inputs d plan := by
  refine ⟨?_, fun error => resolve_eq_error_iff, fun plan ok => inputs_of_resolved accepted ok⟩
  rw [resolves_iff]
  simp only [failure?_completeSettings_eq_none_iff]

end Resolving
end Stevedore.Declaration

namespace Stevedore
section Pinned

def pinnedEntry (name : String) (port : UInt16) : Entry Service :=
  { subject := .named name name name
    settings := { Settings.listening port with artifactId := none }
    profiles := [] }

/-- Of two artifacts one is pinned to a version and the other to a registry only; the image of the
monitoring sidecar is declared. -/
def pinnedDeclaration (common : Option String) : Declaration :=
  { name := "demo", version := "", stagingRoot := none, location := "default", account := .empty
    artifacts :=
      { registry := "docker", version := common
        pins := Table.ofList [("api", ⟨some "2", none⟩), ("web", ⟨none, some "registry"⟩)] }
    monitoring := some
      { subject := ⟨.named "monitor" "monitor" "monitor", []⟩
        settings := .listening 9000
        profiles := [] }
    services := [pinnedEntry "api" 8081, pinnedEntry "web" 8080]
    environment := .empty }

theorem pinned_own_inputs :
    (pinnedDeclaration (some "1")).violation? = none ∧
    (∃ plan, (pinnedDeclaration (some "1")).resolve ⟨"/staging"⟩ = .ok plan ∧
      (pinnedDeclaration (some "1")).Inputs plan) ∧
    (pinnedDeclaration none).violation? = none ∧
    (pinnedDeclaration none).resolve ⟨"/staging"⟩ =
      .error (.missingArtifactVersion "web" "demo") := by
  have accepted : (pinnedDeclaration (some "1")).violation? = none := by decide +kernel
  have accepted' : (pinnedDeclaration none).violation? = none := by decide +kernel
  obtain ⟨resolves, -, inputs⟩ :=
    Declaration.resolves_own_inputs (pinnedDeclaration (some "1")) ⟨"/staging"⟩ accepted
  obtain ⟨plan, ok⟩ := resolves.mpr fun e _ => .common rfl
  obtain ⟨-, fails, -⟩ :=
    Declaration.resolves_own_inputs (pinnedDeclaration none) ⟨"/staging"⟩ accepted'
  refine ⟨accepted, ⟨plan, ok, inputs plan ok⟩, accepted', (fails _).mpr ?_⟩
  refine ⟨[pinnedEntry "api" 8081], pinnedEntry "web" 8080, _, rfl, fun f first => ?_, ?_, rfl⟩
  · have pin : (pinnedDeclaration none).artifacts.pins.get? "api" = some ⟨some "2", none⟩ := rfl
    rw [List.mem_singleton.mp first]
    exact .pinned pin rfl
  · rw [Declaration.versioned_iff]
    decide +kernel

end Pinned
end Stevedore
