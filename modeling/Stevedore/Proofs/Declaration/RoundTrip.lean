import Stevedore.Declaration.Basic
import Stevedore.Proofs.Document.Records

/-!
Declarations written as records and read back. Each type has a reader that undoes its writer, with
absent values, defaults, tables and raw values as they were, and so has the whole declaration, in
whose entries the fields of a service stand beside those of the entry.
-/
namespace Stevedore
open Document

section Types
variable {δ : Type} [Document δ]

attribute [local simp] List.lookup_append Table.lookup_cons_eq Json.lookup_field

theorem ArtifactPin.undoes : Undoes (δ := δ) decode? encode := by
  intro d p shows
  obtain ⟨fields, ok, shown⟩ := fields_shown ["version", "registry"] shows
    (names_append (names_field _ _ _) (names_field _ _ _)) (by simp)
  simp only [decode?, Option.bind_eq_bind, Option.bind_eq_some_iff]
  exact ⟨fields, ok, p.version, optional_shown shown undoes_text (by simp) (by simp),
    p.registry, optional_shown shown undoes_text (by simp) (by simp), rfl⟩

theorem Catalog.undoes : Undoes (δ := δ) decode? encode := by
  intro d c shows
  obtain ⟨fields, ok, shown⟩ := fields_shown ["registry", "version", "pins"] shows
    (names_append (names_append (.refl _) (names_field _ _ _)) (.refl _)) (by simp)
  simp only [decode?, Option.bind_eq_bind, Option.bind_eq_some_iff]
  exact ⟨fields, ok, c.registry, defaulted_shown shown undoes_text (by simp),
    c.version, optional_shown shown undoes_text (by simp) (by simp),
    c.pins, defaulted_shown shown (undoes_table ArtifactPin.undoes) (by simp), rfl⟩

theorem Account.undoes : Undoes (δ := δ) decode? encode := by
  intro d a shows
  obtain ⟨fields, ok, shown⟩ := fields_shown ["name", "context", "kubeconfigFile"] shows
    (names_append (names_append (.refl _) (names_field _ _ _)) (names_field _ _ _)) (by simp)
  simp only [decode?, Option.bind_eq_bind, Option.bind_eq_some_iff]
  exact ⟨fields, ok, a.name, required_shown shown undoes_text (by simp),
    a.context, optional_shown shown undoes_text (by simp) (by simp),
    a.kubeconfig, optional_shown shown undoes_text (by simp) (by simp), rfl⟩

theorem Profile.undoes : Undoes (δ := δ) decode? encode := by
  intro d p shows
  obtain ⟨fields, ok, shown⟩ := fields_shown ["name", "outputFile", "env", "requiredFiles"] shows
    (.refl _) (by simp)
  simp only [decode?, Option.bind_eq_bind, Option.bind_eq_some_iff]
  exact ⟨fields, ok, p.name, required_shown shown undoes_text (by simp),
    p.outputFile, required_shown shown undoes_text (by simp),
    p.env, defaulted_shown shown undoes_textTable (by simp),
    p.requiredFiles, defaulted_shown shown undoes_texts (by simp), rfl⟩

theorem SourceKind.ofWord?_word (k : SourceKind) : ofWord? k.word = some k := by
  cases k <;> rfl

theorem ConfigSource.undoes : Undoes (δ := δ) decode? encode := by
  have undoes_kind : Undoes (δ := δ) (fun d => (word? d).bind SourceKind.ofWord?)
      fun k => .text k.word := by
    intro d k shows
    cases shows with
    | text _ _ word => simp [word, SourceKind.ofWord?_word]
  intro d s shows
  obtain ⟨fields, ok, shown⟩ := fields_shown ["id", "mountPath", "env", "type"] shows
    (.refl _) (by simp)
  simp only [decode?, Option.bind_eq_bind, Option.bind_eq_some_iff]
  exact ⟨fields, ok, s.id, required_shown shown undoes_text (by simp),
    s.mountPath, required_shown shown undoes_text (by simp),
    s.env, defaulted_shown shown undoes_textTable (by simp),
    s.kind, defaulted_shown shown undoes_kind (by simp), rfl⟩

theorem PodExtras.undoes : Undoes (δ := δ) decode? encode := by
  intro d k shows
  obtain ⟨fields, ok, shown⟩ := fields_shown ["imagePullSecrets", "volumes", "podAnnotations"]
    shows (.refl _) (by simp)
  simp only [decode?, Option.bind_eq_bind, Option.bind_eq_some_iff]
  exact ⟨fields, ok, k.imagePullSecrets, defaulted_shown shown undoes_texts (by simp),
    k.volumes, defaulted_shown shown (undoes_list ConfigSource.undoes) (by simp),
    k.annotations, defaulted_shown shown undoes_textTable (by simp), rfl⟩

theorem Settings.undoes : Undoes (δ := δ) decode? encode := by
  intro d s shows
  obtain ⟨fields, ok, shown⟩ := fields_shown fieldNames shows
    (names_append (names_append (names_append (names_append (names_append (names_append
      (names_append (.refl _) (names_field _ _ _)) (.refl _)) (names_field _ _ _)) (.refl _))
      (names_field _ _ _)) (names_field _ _ _)) (.refl _)) (by simp [fieldNames])
  simp only [decode?, Option.bind_eq_bind, Option.bind_eq_some_iff]
  exact ⟨fields, ok, s.port, required_shown shown undoes_natural16 (by simp),
    s.address, optional_shown shown undoes_text (by simp) (by simp),
    s.scheme, defaulted_shown shown undoes_text (by simp),
    s.healthPath, optional_shown shown undoes_text (by simp) (by simp),
    s.targetSize, defaulted_shown shown undoes_natural32 (by simp),
    s.env, defaulted_shown shown undoes_textTable (by simp),
    s.enabled, defaulted_shown shown undoes_flag (by simp),
    s.monitored, defaulted_shown shown undoes_flag (by simp),
    s.artifactId, optional_shown shown undoes_text (by simp) (by simp),
    s.location, optional_shown shown undoes_text (by simp) (by simp),
    s.extras, defaulted_shown shown PodExtras.undoes (by simp), rfl⟩

theorem Service.undoes : Undoes (δ := δ) decode? encode := by
  intro d s shows
  obtain ⟨fields, ok, shown⟩ := fields_shown fieldNames shows (.refl _) (by simp [fieldNames])
  simp only [decode?, Option.bind_eq_bind, Option.bind_eq_some_iff]
  exact ⟨fields, ok, s.canonicalName, required_shown shown undoes_text (by simp [encodeFields]),
    s.serviceType, required_shown shown undoes_text (by simp [encodeFields]),
    s.artifactName, required_shown shown undoes_text (by simp [encodeFields]),
    s.runsOnJvm, defaulted_shown shown undoes_flag (by simp [encodeFields]),
    s.gracePeriod, defaulted_shown shown undoes_natural32 (by simp [encodeFields]),
    s.preStop, defaulted_shown shown undoes_flag (by simp [encodeFields]),
    s.shutdownScript, defaulted_shown shown undoes_text (by simp [encodeFields]), rfl⟩

theorem SidecarService.undoes : Undoes (δ := δ) decode? encode := by
  intro d s shows
  obtain ⟨fields, ok, shown, others, own⟩ := beside_shown ["profileNames"] shows rfl
    (by simp) (by simp [Service.encodeFields])
  simp only [decode?, Option.bind_eq_bind, Option.bind_eq_some_iff]
  exact ⟨fields, ok, s.profileNames, defaulted_shown shown undoes_texts (by simp [own]),
    s.service, ⟨_, others, Service.undoes (shows_self _)⟩, rfl⟩

/-- The fields of the subject and those of the entry do not get in each other's way. -/
theorem Entry.undoes {α : Type} {subjectFields : α → List (String × Json)}
    {subject? : Json → Option α} (undoes : Undoes subject? fun a => .record (subjectFields a))
    (apart : ∀ a, ∀ f ∈ subjectFields a, f.1 ∉ ownFields) :
    Undoes (δ := δ) (decode? subject?) (encode subjectFields) := by
  intro d e shows
  obtain ⟨fields, ok, shown, others, own⟩ := beside_shown ownFields shows rfl
    (by simp [ownFields]) (apart e.subject)
  have settings := own "settings" (by simp [ownFields])
  have profiles := own "profiles" (by simp [ownFields])
  simp only [decode?, Option.bind_eq_bind, Option.bind_eq_some_iff]
  exact ⟨fields, ok, e.settings, required_shown shown Settings.undoes (by simp [settings]),
    e.profiles, defaulted_shown shown (undoes_list Profile.undoes) (by simp [profiles]),
    e.subject, ⟨_, others, undoes (shows_self _)⟩, rfl⟩

theorem Service.entry_undoes :
    Undoes (δ := δ) (Entry.decode? decode?) (Entry.encode encodeFields) := by
  refine Entry.undoes Service.undoes fun s f mem => ?_
  have known : f.1 ∈ fieldNames := List.mem_map_of_mem (f := (·.1)) mem
  have apart : ∀ name ∈ fieldNames, name ∉ Entry.ownFields := by simp [fieldNames, Entry.ownFields]
  exact apart _ known

/-- Twice flattened: the fields of the service stand beside those of its sidecar and entry. -/
theorem SidecarService.entry_undoes :
    Undoes (δ := δ) (Entry.decode? decode?) (Entry.encode encodeFields) := by
  refine Entry.undoes SidecarService.undoes fun s f mem => ?_
  have known : f.1 ∈ Service.fieldNames ++ ["profileNames"] :=
    List.mem_map_of_mem (f := (·.1)) mem
  have apart : ∀ name ∈ Service.fieldNames ++ ["profileNames"], name ∉ Entry.ownFields := by
    simp [Service.fieldNames, Entry.ownFields]
  exact apart _ known

theorem ConfigMapMount.undoes : Undoes (δ := δ) decode? encode := by
  intro d m shows
  obtain ⟨fields, ok, shown⟩ := fields_shown ["configMapName", "mountPath"] shows (.refl _)
    (by simp)
  simp only [decode?, Option.bind_eq_bind, Option.bind_eq_some_iff]
  exact ⟨fields, ok, m.configMapName, required_shown shown undoes_text (by simp),
    m.mountPath, required_shown shown undoes_text (by simp), rfl⟩

theorem SecurityContext.undoes : Undoes (δ := δ) decode? encode := by
  intro d c shows
  obtain ⟨fields, ok, shown⟩ := fields_shown ["privileged"] shows (.refl _) (by simp)
  simp only [decode?, Option.bind_eq_bind, Option.bind_eq_some_iff]
  exact ⟨fields, ok, c.privileged, defaulted_shown shown undoes_flag (by simp), rfl⟩

theorem CustomSidecar.undoes : Undoes (δ := δ) decode? encode := by
  intro d s shows
  obtain ⟨fields, ok, shown⟩ := fields_shown fieldNames shows
    (names_append (names_append (names_append (.refl _) (names_field _ _ _)) (.refl _))
      (names_field _ _ _)) (by simp [fieldNames])
  simp only [decode?, Option.bind_eq_bind, Option.bind_eq_some_iff]
  exact ⟨fields, ok, s.name, required_shown shown undoes_text (by simp),
    s.image, required_shown shown undoes_text (by simp),
    s.command, defaulted_shown shown undoes_texts (by simp),
    s.args, defaulted_shown shown undoes_texts (by simp),
    s.env, defaulted_shown shown undoes_textTable (by simp),
    s.securityContext, optional_shown shown SecurityContext.undoes
      (by simp [SecurityContext.encode]) (by simp),
    s.configMapMounts, defaulted_shown shown (undoes_list ConfigMapMount.undoes) (by simp),
    s.mountPath, optional_shown shown undoes_text (by simp) (by simp), rfl⟩

theorem Sizing.undoes : Undoes (δ := δ) decode? encode := by
  intro d s shows
  obtain ⟨fields, ok, shown⟩ := fields_shown ["requests", "limits", "replicas"] shows
    (names_append (.refl _) (names_field _ _ _)) (by simp)
  simp only [decode?, Option.bind_eq_bind, Option.bind_eq_some_iff]
  exact ⟨fields, ok, s.requests, defaulted_shown shown undoes_ofTable (by simp),
    s.limits, defaulted_shown shown undoes_ofTable (by simp),
    s.replicas, optional_shown shown undoes_natural32 (by simp) (by simp), rfl⟩

theorem SizingTable.undoes : Undoes (δ := δ) decode? encode := undoes_table Sizing.undoes

theorem Environment.undoes : Undoes (δ := δ) decode? encode := by
  intro d e shows
  obtain ⟨fields, ok, shown⟩ := fields_shown
    ["sidecars", "initContainers", "hostAliases", "customSizing"] shows
    (names_append (.refl _) (names_field _ _ _)) (by simp)
  have undoes_raw : Undoes (δ := δ) (tableOf? (listOf? json?))
      fun t => .ofTable (t.mapValues .list) := by
    intro d t shows
    refine undoes_table (undoes_list undoes_json) ?_
    simpa using shows
  simp only [decode?, Option.bind_eq_bind, Option.bind_eq_some_iff]
  exact ⟨fields, ok,
    e.sidecars, defaulted_shown shown (undoes_table (undoes_list CustomSidecar.undoes)) (by simp),
    e.initContainers, defaulted_shown shown undoes_raw (by simp),
    e.hostAliases, defaulted_shown shown undoes_raw (by simp),
    e.sizing, optional_shown shown SizingTable.undoes
      (by simp [SizingTable.encode, Json.ofTable]) (by simp), rfl⟩

theorem Declaration.undoes : Undoes (δ := δ) decode? encode := by
  intro d x shows
  obtain ⟨fields, ok, shown⟩ := fields_shown fieldNames shows
    (names_append (names_append (names_append (names_append (.refl _) (names_field _ _ _))
      (.refl _)) (names_field _ _ _)) (.refl _)) (by simp [fieldNames])
  have root : (x.stagingRoot.map Path.text).map Path.mk = x.stagingRoot := by
    cases x.stagingRoot <;> rfl
  simp only [decode?, Option.bind_eq_bind, Option.bind_eq_some_iff]
  exact ⟨fields, ok, x.name, required_shown shown undoes_text (by simp),
    x.version, defaulted_shown shown undoes_text (by simp),
    x.stagingRoot.map Path.text,
      optional_shown shown undoes_text (by simp) (by simp [Function.comp_def]),
    x.location, defaulted_shown shown undoes_text (by simp),
    x.account, defaulted_shown shown Account.undoes (by simp),
    x.artifacts, defaulted_shown shown Catalog.undoes (by simp),
    x.monitoring, optional_shown shown SidecarService.entry_undoes (by simp [Entry.encode])
      (by simp),
    x.services, defaulted_shown shown (undoes_list Service.entry_undoes) (by simp),
    x.environment, defaulted_shown shown Environment.undoes (by simp), by rw [root]; rfl⟩

end Types

/-- Every declaration is read back from the tree that is written for it, and from every document
that shows this tree. -/
theorem Declaration.survives_writing (x : Declaration) :
    decode? x.encode = some x ∧
      ∀ {δ : Type} [Document δ] (d : δ), Shows d x.encode → decode? d = some x :=
  ⟨Declaration.undoes (shows_self _), fun _ shows => Declaration.undoes shows⟩

/-- A declaration with a monitoring sidecar, values of any form, and much that is left out. -/
def Declaration.monitored : Declaration :=
  let settings : Settings :=
    { port := 8008, address := some "", scheme := "http", healthPath := none, targetSize := 1,
      env := .ofList [("JAVA_OPTS", "-Xmx1g: null")], enabled := false, monitored := true,
      artifactId := none, location := some "settings", extras := PodExtras.none }
  { name := "name: x", version := "", stagingRoot := none, location := "default",
    account := { name := "~", context := some "null", kubeconfig := none },
    artifacts := Catalog.empty,
    monitoring := some
      { subject := ⟨Service.named "settings" "profiles" "monitoring-daemon", ["registry.yml"]⟩,
        settings, profiles := [⟨"registry.yml", "/opt/registry.yml", .empty, []⟩] },
    services := [],
    environment :=
      { Environment.empty with
        initContainers := .ofList [("gate", [.null, .record [("b", .list []), ("a", .integer (-1))]])],
        sizing := some (.ofList [("gate", ⟨.empty, .ofList [("cpu", .bool true)], none⟩)]) } }

theorem Declaration.monitored_survives :
    Shows monitored.encode monitored.encode ∧ decode? monitored.encode = some monitored :=
  ⟨shows_self _, (survives_writing monitored).2 monitored.encode (shows_self _)⟩

end Stevedore
