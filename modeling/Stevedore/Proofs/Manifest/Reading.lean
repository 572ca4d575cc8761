import Stevedore.Proofs.Json.Path
import Stevedore.Proofs.Manifest.Documents

/-!
Values read back from a manifest. Its outer mappings are blocks, each two spaces deeper than the one
around it. A line holds a key and then either nothing, where the mapping goes on below, or JSON.
-/
namespace Stevedore
open Json Manifest Template
open Manifest.Fragment (label)

namespace Text

/-- The value at the end of a path in a block with the given margin. -/
def inBlock? : List Json.Step → List Char → List (List Char) → Option Json
  | .field key :: path, margin, lines =>
    match lines.dropWhile fun line => !(margin ++ key.toList ++ [':']).isPrefixOf line with
    | [] => none
    | line :: below =>
      let deeper := margin ++ [' ', ' ']
      match line.drop (margin ++ key.toList ++ [':']).length with
      | [] => inBlock? path deeper (below.takeWhile deeper.isPrefixOf)
      | value => Json.at? path value
  | _, _, _ => none

def read? (path : List Json.Step) (text : String) : Option Json :=
  inBlock? path [] (lines text.toList)

example : (read? [.field "spec", .field "port", .first]
    "port: 1\nspec:\n  name: \"port: 2\"\n  port: [3, 4]\n").map Json.write = some ['3'] := by
  decide +kernel

end Text

section Leading
variable {path : List Step} {text : List Char} {v : Json}

theorem joinWith_append (before after : List (List Char)) (piece : List Char) :
    joinWith [',', ' '] (before ++ piece :: after) =
      before.flatMap (fun t => t ++ [',', ' ']) ++
        (piece ++ after.flatMap fun t => ',' :: ' ' :: t) := by
  induction before with
  | nil => exact joinWith_comma piece after
  | cons first before ih =>
    have opened : joinWith [',', ' '] (first :: (before ++ piece :: after)) =
        first ++ [',', ' '] ++ joinWith [',', ' '] (before ++ piece :: after) := by
      cases before <;> rfl
    rw [List.cons_append, opened, ih, List.flatMap_cons]
    simp only [List.append_assoc]

theorem ends_joined (pieces : List (List Char)) {tail : List Char} (ends : Ends tail) :
    Ends ((pieces.flatMap fun t => ',' :: ' ' :: t) ++ tail) := by
  cases pieces with
  | nil => exact ends
  | cons piece pieces => exact ends_cons (by simp)

/-- The field of a record that fields with other names stand before. -/
theorem leads_record (name : String) {before : List (List Char)} {fields : List (String × Json)}
    {close : List Char} (spell : SpellFields before fields) (others : ∀ f ∈ fields, f.1 ≠ name)
    (leads : Leads path text v) (after : List (List Char)) (ends : ∀ tail, Ends (close ++ tail)) :
    Leads (.field name :: path)
      ('\x7b' :: joinWith [',', ' '] (before ++ (label name ++ text) :: after) ++ close) v := by
  have found := leads_field leads spell others one_space one_space
    ((after.flatMap fun t => ',' :: ' ' :: t) ++ close) fun tail => by
      rw [List.append_assoc]
      exact ends_joined after (ends tail)
  rw [joinWith_append]
  simpa [label] using found

/-- The first of the items that are listed. -/
theorem leads_bracketed (leads : Leads path text v) (others : List (List Char)) :
    Leads (.first :: path) (bracketed (text :: others)) v := by
  have found := leads_first leads ((others.flatMap fun t => ',' :: ' ' :: t) ++ [']'])
    fun tail => by
      rw [List.append_assoc]
      exact ends_joined others (ends_cons (by simp))
  rw [bracketed, joinWith_comma]
  simpa using found

theorem ends_space (tail : List Char) : Ends ([' ', '\x7d'] ++ tail) := ends_cons (.inl rfl)

theorem ends_brace (tail : List Char) : Ends (['\x7d'] ++ tail) := ends_cons (by simp)

theorem leads_text (chars : String) : Leads [] (writeText chars) (.text chars) :=
  leads_nil (spells_text chars)

theorem leads_port (port : UInt16) :
    Leads [] (Json.integer port.toNat).write (.integer port.toNat) :=
  leads_nil (spells_write _ (wellFormed_port port))

end Leading

section Pods

theorem leads_portText {port : UInt16} {text : String}
    (ok : TemplateSet.embedded.renderPort port = .ok text) :
    Leads [.field "containerPort"] text.toList (.integer port.toNat) := by
  have shows : Shows (.of (ofFields [("port", .integer port.toNat)])) (Fragment.parts .port)
      ('\x7b' :: joinWith [',', ' '] [label "containerPort" ++ (Json.integer port.toNat).write] ++
        [' ', '\x7d']) := by
    apply shows_of_eq
    · exact shows_text _ (shows_json _ (find_of _ _) (shows_text _ shows_nil))
    · simp [joinWith]
  obtain rfl := Except.ok.inj ((render_of_shows shows).symm.trans ok)
  rw [String.toList_ofList]
  exact leads_record _ .nil (by simp) (leads_port port) [] ends_space

theorem text_of_renderOptional {α : Type} {render : α → Except TemplateError String} {value : α}
    {part : Option String} (ok : renderOptional render (some value) = .ok part) :
    ∃ text, render value = .ok text ∧ part = some text := by
  rw [renderOptional] at ok
  cases done : render value with
  | error e =>
    rw [done] at ok
    cases ok
  | ok text =>
    rw [done] at ok
    exact ⟨text, rfl, (Except.ok.inj ok).symm⟩

theorem name_of_field? {α : Type} {name : String} {encode : α → Json} {value : Option α} :
    ∀ f ∈ field? name encode value, f.1 = name := by
  cases value <;> simp [field?]

/-- What stands before the port of a container. -/
def openingPieces (c : Container) : List (List Char) :=
  [label "name" ++ (Json.text c.name).write] ++
    (c.image.map fun image => label "image" ++ (Json.text image).write).toList ++
    ((nonEmpty c.command).map fun items => label "command" ++ (texts items).write).toList ++
    ((nonEmpty c.args).map fun items => label "args" ++ (texts items).write).toList

def openingFields (c : Container) : List (String × Json) :=
  [("name", .text c.name)] ++ field? "image" .text c.image ++
    field? "command" texts (nonEmpty c.command) ++ field? "args" texts (nonEmpty c.args)

theorem spell_opening (c : Container) : SpellFields (openingPieces c) (openingFields c) := by
  have name : SpellsField _ ("name", .text c.name) := spellsField_write "name" trivial
  have image : SpellsPart _ Json.text c.image c.image := spellsPart_write fun _ => trivial
  have command : SpellsPart _ texts (nonEmpty c.command) _ := spellsPart_write wellFormed_texts
  have args : SpellsPart _ texts (nonEmpty c.args) _ := spellsPart_write wellFormed_texts
  apply spellFields_append _ (spellFields_part "args" args)
  apply spellFields_append _ (spellFields_part "command" command)
  apply spellFields_append _ (spellFields_part "image" image)
  exact .cons name .nil

theorem ports_not_opening (c : Container) : ∀ f ∈ openingFields c, f.1 ≠ "ports" := by
  intro f member
  simp only [openingFields, List.mem_append, List.mem_singleton] at member
  rcases member with ((rfl | member) | member) | member
  · exact show "name" ≠ "ports" by decide
  all_goals
    rw [name_of_field? f member]
    decide

theorem containerPieces_opening (c : Container) (mounts : List String) (port : String)
    (probe preStop resources security : Option String) :
    ∃ after, containerPieces c mounts (some port) probe preStop resources security =
      openingPieces c ++ (label "ports" ++ bracketed [port.toList]) :: after := by
  apply Exists.intro
  simp only [containerPieces, openingPieces, List.append_assoc, Option.map_some, Option.toList_some,
    List.cons_append, List.nil_append]
  rfl

/-- The name of a container is found in its text, and its port. -/
theorem leads_container {c : Container} {port : UInt16} {text : String} (listens : c.port = some port)
    (ok : TemplateSet.embedded.renderContainer c = .ok text) :
    Leads [.field "name"] text.toList (.text c.name) ∧
      Leads [.field "ports", .first, .field "containerPort"] text.toList (.integer port.toNat) := by
  obtain ⟨mounts, part, probe, preStop, resources, security, -, portOk, -, -, -, -, shown⟩ :=
    container_shown ok
  rw [listens] at portOk
  obtain ⟨portText, rendered, rfl⟩ := text_of_renderOptional portOk
  obtain ⟨after, opened⟩ := containerPieces_opening c mounts portText probe preStop resources security
  rw [shown, opened]
  constructor
  · simp only [openingPieces, List.append_assoc, List.cons_append]
    exact leads_record "name" .nil (by simp) (leads_text c.name) _ ends_space
  · exact leads_record "ports" (spell_opening c) (ports_not_opening c)
      (leads_bracketed (leads_portText rendered) []) _ ends_space

/-- A path into the first container of a pod. -/
theorem leads_primary {p : Pod} {c : Container} {others : List Container} {path : List Step}
    {v : Json} {text : String} (first : p.containers = c :: others)
    (leads : ∀ t, TemplateSet.embedded.renderContainer c = .ok t → Leads path t.toList v)
    (ok : TemplateSet.embedded.renderPod p = .ok text) :
    Leads (.field "containers" :: .first :: path) text.toList v := by
  obtain ⟨containers, volumes, containersOk, -, shown⟩ := pod_shown ok
  rw [first] at containersOk
  obtain ⟨primary, later, rendered, -, rfl⟩ := except_mapM_cons_ok.mp containersOk
  rw [shown, podPieces]
  simp only [List.append_assoc, List.singleton_append, List.map_cons]
  exact leads_record _ .nil (by simp) (leads_bracketed (leads primary rendered) _) _ ends_space

end Pods

section Lines

def namespaceLines (space : String) : List (List Char) :=
  ["apiVersion: v1".toList, "kind: Namespace".toList, "metadata:".toList,
    "  name: ".toList ++ writeText space]

def serviceLines (name space : String) (port : UInt16) : List (List Char) :=
  ["apiVersion: v1".toList, "kind: Service".toList, "metadata:".toList,
    "  name: ".toList ++ writeText name, "  namespace: ".toList ++ writeText space,
    "  labels: ".toList ++ '\x7b' :: joinWith [',', ' '] [label "app" ++ writeText name,
      label "cluster" ++ writeText name,
      label "app.kubernetes.io/managed-by" ++ writeText "fleetyard"] ++ ['\x7d'],
    "spec:".toList,
    "  selector: ".toList ++ '\x7b' :: joinWith [',', ' '] [label "cluster" ++ writeText name] ++
      [' ', '\x7d'],
    "  ports: ".toList ++ bracketed ['\x7b' :: joinWith [',', ' '] [label "protocol" ++ writeText "TCP",
      label "port" ++ (Json.integer port.toNat).write,
      label "targetPort" ++ (Json.integer port.toNat).write] ++ [' ', '\x7d']],
    "  type: ClusterIP".toList]

/-- The labels of a deployment and of its pods. -/
def deploymentLabels (name version : String) : List (List Char) :=
  [label "app" ++ writeText name, label "cluster" ++ writeText name,
    label "app.kubernetes.io/name" ++ writeText name,
    label "app.kubernetes.io/version" ++ writeText version,
    label "app.kubernetes.io/managed-by" ++ writeText "fleetyard"]

def deploymentLines (name space version pod : String) (replicas annotations : Json) :
    List (List Char) :=
  ["apiVersion: apps/v1".toList, "kind: Deployment".toList, "metadata:".toList,
    "  name: ".toList ++ writeText name, "  namespace: ".toList ++ writeText space,
    "  labels: ".toList ++ '\x7b' :: joinWith [',', ' '] (deploymentLabels name version) ++ ['\x7d'],
    "spec:".toList, "  replicas: ".toList ++ replicas.write, "  selector:".toList,
    "    matchLabels: ".toList ++ '\x7b' :: joinWith [',', ' '] [label "cluster" ++ writeText name] ++
      [' ', '\x7d'],
    "  template:".toList, "    metadata:".toList,
    "      annotations: ".toList ++ annotations.write,
    "      labels: ".toList ++ '\x7b' :: joinWith [',', ' '] (deploymentLabels name version) ++
      ['\x7d'],
    "    spec: ".toList ++ pod.toList]

variable {f : Fragment} {bindings : List (String × Json)} {text : String} {ls : List (List Char)}

theorem lines_of_shows (shows : Shows (.of (ofFields bindings)) f.parts (['\n'].intercalate ls))
    (flat : AllFlat ls) (some_ : ls ≠ []) (structured : Structured f text)
    (ok : TemplateSet.embedded.render f bindings = .ok text) : Text.lines text.toList = ls := by
  have absent : ∀ line ∈ ls, '\n' ∉ line := fun line member broken =>
    absurd (flat line member _ broken) (by decide)
  rw [Text.lines_of_closed structured.closed]
  obtain rfl := Except.ok.inj ((render_of_shows shows).symm.trans ok)
  rw [String.toList_ofList, List.splitOn_intercalate _ absent some_]

theorem lines_namespace {space : String}
    (ok : TemplateSet.embedded.render .namespaceManifest [("namespace", .text space)] = .ok text) :
    Text.lines text.toList = namespaceLines space := by
  refine lines_of_shows ?_ ?_ (by simp [namespaceLines]) (structured_namespace ok) ok
  · apply shows_of_eq
    · exact shows_text _ (shows_json _ (find_of _ _) shows_nil)
    · simp [namespaceLines, List.intercalate, Json.write]
  · simp [AllFlat, namespaceLines, Json.flat_writeText]

theorem lines_service {name space : String} {port : UInt16}
    (ok : TemplateSet.embedded.render .serviceManifest [("name", .text name),
      ("namespace", .text space), ("port", .integer port.toNat)] = .ok text) :
    Text.lines text.toList = serviceLines name space port := by
  refine lines_of_shows ?_ ?_ (by simp [serviceLines]) (structured_service ok) ok
  · apply shows_of_eq
    · iterate 7
        apply shows_text
        apply shows_json _ (find_of _ _)
      exact shows_text _ shows_nil
    · simp [serviceLines, List.intercalate, Json.write, joinWith, bracketed]
  · simp [AllFlat, serviceLines, Json.flat_writeText, Json.flat_write, joinWith, bracketed,
      Fragment.flat_label]

theorem lines_deployment {name space version pod : String} {replicas annotations : Json}
    (flat : Flat pod.toList) (closed : Text.Closed pod.toList)
    (ok : TemplateSet.embedded.render .deploymentManifest [("name", .text name),
      ("namespace", .text space), ("replicas", replicas), ("version", .text version),
      ("podAnnotations", annotations), ("podSpec", .text pod)] = .ok text) :
    Text.lines text.toList = deploymentLines name space version pod replicas annotations := by
  refine lines_of_shows ?_ ?_ (by simp [deploymentLines])
    (structured_deployment (by simp) flat closed ok) ok
  · apply shows_of_eq
    · iterate 13
        apply shows_text
        apply shows_json _ (find_of _ _)
      apply shows_text
      exact shows_inline _ (by decide) (find_of _ _) shows_nil
    · simp [deploymentLines, deploymentLabels, List.intercalate, Json.write, joinWith]
  · simp [AllFlat, deploymentLines, deploymentLabels, Json.flat_writeText, Json.flat_write, joinWith,
      Fragment.flat_label, flat]

end Lines

section Values
variable {text name space : String}

theorem read_namespace
    (ok : TemplateSet.embedded.render .namespaceManifest [("namespace", .text space)] = .ok text) :
    Text.read? [.field "metadata", .field "name"] text = some (.text space) := by
  rw [Text.read?, lines_namespace ok]
  exact at_of_leads (leads_text space)

theorem read_service {port : UInt16}
    (ok : TemplateSet.embedded.render .serviceManifest [("name", .text name),
      ("namespace", .text space), ("port", .integer port.toNat)] = .ok text) :
    Text.read? [.field "metadata", .field "namespace"] text = some (.text space) ∧
    Text.read? [.field "spec", .field "selector", .field "cluster"] text = some (.text name) ∧
    Text.read? [.field "spec", .field "ports", .first, .field "port"] text =
      some (.integer port.toNat) ∧
    Text.read? [.field "spec", .field "ports", .first, .field "targetPort"] text =
      some (.integer port.toNat) := by
  simp only [Text.read?, lines_service ok]
  have protocol : SpellsField _ ("protocol", .text "TCP") := spellsField_write "protocol" trivial
  have number : SpellsField _ ("port", .integer port.toNat) :=
    spellsField_write "port" (wellFormed_port port)
  refine ⟨?_, ?_, ?_, ?_⟩
  · exact at_of_leads (leads_text space)
  · exact at_of_leads (leads_record "cluster" .nil (by simp) (leads_text name) [] ends_space)
  · exact at_of_leads (leads_bracketed (leads_record "port" (.cons protocol .nil) (by simp)
      (leads_port port) [_] ends_space) [])
  · exact at_of_leads (leads_bracketed (leads_record "targetPort" (.cons protocol (.cons number .nil))
      (by simp) (leads_port port) [] ends_space) [])

theorem read_deployment {version pod : String} {replicas annotations v : Json} {path : List Step}
    (flat : Flat pod.toList) (closed : Text.Closed pod.toList) (leads : Leads path pod.toList v)
    (ok : TemplateSet.embedded.render .deploymentManifest [("name", .text name),
      ("namespace", .text space), ("replicas", replicas), ("version", .text version),
      ("podAnnotations", annotations), ("podSpec", .text pod)] = .ok text) :
    Text.read? [.field "metadata", .field "namespace"] text = some (.text space) ∧
    Text.read? [.field "spec", .field "selector", .field "matchLabels", .field "cluster"] text =
      some (.text name) ∧
    Text.read? [.field "spec", .field "template", .field "metadata", .field "labels",
      .field "cluster"] text = some (.text name) ∧
    Text.read? (.field "spec" :: .field "template" :: .field "spec" :: path) text = some v := by
  simp only [Text.read?, lines_deployment flat closed ok]
  have app : SpellsField _ ("app", .text name) := spellsField_write "app" trivial
  refine ⟨?_, ?_, ?_, ?_⟩
  · exact at_of_leads (leads_text space)
  · exact at_of_leads (leads_record "cluster" .nil (by simp) (leads_text name) [] ends_space)
  · exact at_of_leads (leads_record "cluster" (.cons app .nil) (by simp) (leads_text name) [_, _, _] ends_brace)
  · exact at_of_leads leads

end Values
end Stevedore
