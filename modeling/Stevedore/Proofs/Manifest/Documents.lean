import Stevedore.Proofs.Assembly
import Stevedore.Proofs.Template.Filling

/-!
The lines of manifests and the documents of their stream. They are those of the embedded templates:
every text that an input can reach is written as JSON, which has no line breaks.
-/
namespace Stevedore
open Template

namespace Text

/-- The lines of a text, each without the break that ends it. -/
def lines (cs : List Char) : List (List Char) :=
  if cs = [] then [] else (if cs.getLast? = some '\n' then cs.dropLast else cs).splitOn '\n'

def dashes : List Char := ['-', '-', '-']

/-- The parts of a text before, between and after the lines that are three dashes. -/
def documents (cs : List Char) : List (List Char) :=
  ((lines cs).splitOn dashes).map ['\n'].intercalate

/-- A text ends in a character that is not blank. -/
def Closed (cs : List Char) : Prop := ∃ c, cs.getLast? = some c ∧ isBlank c = false

/-- Texts that each follow a line of three dashes. -/
def framed (texts : List (List Char)) : List Char :=
  texts.flatMap fun cs => dashes ++ '\n' :: (cs ++ ['\n'])

variable {cs : List Char}

theorem Closed.append {rest : List Char} (closed : Closed rest) : Closed (cs ++ rest) := by
  obtain ⟨c, last, solid⟩ := closed
  exact ⟨c, by rw [List.getLast?_append, last]; rfl, solid⟩

theorem lines_of_closed (closed : Closed cs) : lines cs = cs.splitOn '\n' := by
  obtain ⟨c, last, solid⟩ := closed
  have nonempty : cs ≠ [] := by
    rintro rfl
    cases last
  have noBreak : cs.getLast? ≠ some '\n' := by
    intro same
    cases last.symm.trans same
    contradiction
  rw [lines, if_neg nonempty, if_neg noBreak]

theorem lines_break (cs : List Char) : lines (cs ++ ['\n']) = cs.splitOn '\n' := by
  simp [lines]

theorem trimEnd_of_closed {text : String} (closed : Closed text.toList) : trimEnd text = text := by
  obtain ⟨c, last, solid⟩ := closed
  obtain ⟨before, same⟩ := List.getLast?_eq_some_iff.mp last
  rw [trimEnd, dropEnd, same, List.reverse_append, List.reverse_singleton, List.singleton_append,
    List.dropWhile_cons_of_neg (by simpa using solid), List.reverse_cons, List.reverse_reverse,
    ← same, String.ofList_toList]

theorem splitOn_framed (texts : List (List Char)) : (framed texts).splitOn '\n' =
    (texts.flatMap fun cs => dashes :: cs.splitOn '\n') ++ [[]] := by
  induction texts with
  | nil => rfl
  | cons cs rest ih =>
    have opened : framed (cs :: rest) = dashes ++ '\n' :: (cs ++ '\n' :: framed rest) := by
      simp [framed]
    rw [opened, List.splitOn_append_cons_self, List.splitOn_append_cons_self, ih,
      List.splitOn_eq_singleton (by decide)]
    simp

theorem lines_framed (texts : List (List Char)) :
    lines (framed texts) = texts.flatMap fun cs => dashes :: cs.splitOn '\n' := by
  rcases List.eq_nil_or_concat texts with rfl | ⟨init, last, rfl⟩
  · rfl
  · have broken : framed (init ++ [last]) = framed init ++ (dashes ++ '\n' :: last) ++ ['\n'] := by
      simp [framed]
    have whole := splitOn_framed (init ++ [last])
    rw [broken, List.splitOn_append_cons_self] at whole
    rw [List.concat_eq_append, broken, lines_break]
    exact List.append_cancel_right whole

theorem splitOn_separated {α : Type} [BEq α] [LawfulBEq α] {separator : α} {parts : List (List α)}
    (absent : ∀ part ∈ parts, separator ∉ part) :
    (parts.flatMap (separator :: ·)).splitOn separator = [] :: parts := by
  induction parts with
  | nil => rfl
  | cons part rest ih =>
    obtain ⟨first, others⟩ := List.forall_mem_cons.mp absent
    have opened : (part :: rest).flatMap (separator :: ·) =
        [] ++ separator :: (part ++ rest.flatMap (separator :: ·)) := by
      simp
    rw [opened, List.splitOn_append_cons_self, splitOn_append first, ih others]
    simp

/-- Texts without lines of three dashes are the documents between such lines. -/
theorem documents_framed {texts : List (List Char)}
    (plain : ∀ cs ∈ texts, dashes ∉ cs.splitOn '\n') : documents (framed texts) = [] :: texts := by
  have parts : texts.flatMap (fun cs => dashes :: cs.splitOn '\n') =
      (texts.map fun cs => cs.splitOn '\n').flatMap (dashes :: ·) := by
    rw [List.flatMap_map]
  have joined : ['\n'].intercalate ∘ List.splitOn '\n' = id :=
    funext fun cs => List.intercalate_splitOn '\n'
  rw [documents, lines_framed, parts, splitOn_separated (List.forall_mem_map.mpr plain),
    List.map_cons, List.map_map, joined, List.map_id]
  rfl

end Text

namespace Manifest.Fragment

def form (f : Fragment) : Form := f.parts.flatMap Element.form

/-- A fragment on one line, of fixed text and values as JSON. -/
def isLine (f : Fragment) : Bool :=
  f.parts.all Element.isSimple && f.form.all fun o => o.all fun c => 0x20 ≤ c.toNat

/-- What a line of a template fixes before its first binding. -/
def beforeBinding : List Char → List Char
  | [] => []
  | '\x7b' :: '\x7b' :: _ => []
  | c :: rest => c :: beforeBinding rest

def lineStarts (f : Fragment) : List (List Char) := (Text.lines f.source).map beforeBinding

theorem flat_label (name : String) : Flat (label name) :=
  flat_append.mpr ⟨Json.flat_writeText name, by decide⟩

end Manifest.Fragment

section Parts
open Manifest
variable {f : Fragment} {bindings : List (String × Json)} {text : String}

theorem renderAll_of_render (ok : TemplateSet.embedded.render f bindings = .ok text) :
    ∃ bring, renderAll bring (.of (Json.ofFields bindings)) f.parts = .ok text.toList := by
  rw [TemplateSet.render, TemplateSet.renderIn, TemplateSet.elements_embedded] at ok
  split at ok
  · next shown rendered =>
    obtain rfl := Except.ok.inj ok
    split at rendered
    · next chars found =>
      obtain rfl := Except.ok.inj rendered
      rw [String.toList_ofList]
      exact ⟨_, found⟩
    · contradiction
  · contradiction

theorem fills_of_render (simple : ∀ e ∈ f.parts, e.isSimple = true)
    (ok : TemplateSet.embedded.render f bindings = .ok text) : Fills f.form text.toList := by
  obtain ⟨bring, shown⟩ := renderAll_of_render ok
  exact fills_of_renderAll (fun e member => tame_of_isSimple (simple e member)) shown

theorem flat_line (line : f.isLine = true)
    (ok : TemplateSet.embedded.render f bindings = .ok text) : Flat text.toList := by
  rw [Fragment.isLine, Bool.and_eq_true, List.all_eq_true, List.all_eq_true] at line
  refine flat_of_fills (fills_of_render line.1 ok) fun c member => ?_
  simpa using line.2 _ member

/-- All fragments but the manifests, pods and containers. -/
theorem isLine_of_part (part : f ∈ [Fragment.port, .volumeMount, .secretVolume, .emptyDirVolume,
    .configMapVolume, .execProbe, .tcpProbe, .lifecycle, .resources, .securityContext]) :
    f.isLine = true := by
  simp only [List.mem_cons, List.not_mem_nil, or_false] at part
  rcases part with rfl | rfl | rfl | rfl | rfl | rfl | rfl | rfl | rfl | rfl
  all_goals
    simp only [Fragment.isLine, Fragment.form, Fragment.parts, Fragment.label, Json.writeText,
      String.reduceToList]
    decide +kernel

theorem flat_probe {p : Probe} (ok : TemplateSet.embedded.renderProbe p = .ok text) :
    Flat text.toList := by
  unfold TemplateSet.renderProbe at ok
  cases p with
  | exec command => exact flat_line (isLine_of_part (by simp)) ok
  | tcp port => exact flat_line (isLine_of_part (by simp)) ok

theorem flat_volume {s : ConfigSource} (ok : TemplateSet.embedded.renderVolume s = .ok text) :
    Flat text.toList := by
  unfold TemplateSet.renderVolume at ok
  refine flat_line (isLine_of_part ?_) ok
  cases s.kind <;> simp

theorem flat_optional {α : Type} {render : α → Except TemplateError String} {value : Option α}
    {part : Option String} (flat : ∀ a text, render a = .ok text → Flat text.toList)
    (ok : renderOptional render value = .ok part) : ∀ t ∈ part, Flat t.toList := by
  cases value with
  | none =>
    obtain rfl := Except.ok.inj ok
    simp
  | some a =>
    cases done : render a with
    | error e =>
      rw [renderOptional, done] at ok
      cases ok
    | ok text =>
      rw [renderOptional, done] at ok
      obtain rfl := Except.ok.inj ok
      simpa using flat a text done

theorem flat_all {α : Type} {render : α → Except TemplateError String} {items : List α}
    {texts : List String} (flat : ∀ a text, render a = .ok text → Flat text.toList)
    (ok : items.mapM render = .ok texts) : AllFlat (texts.map String.toList) := by
  intro cs member
  obtain ⟨text, held, rfl⟩ := List.mem_map.mp member
  obtain ⟨a, -, done⟩ := (mem_except_mapM_ok ok text).mp held
  exact flat a text done

theorem flat_spaced {pieces : List (List Char)} (each : AllFlat pieces) :
    Flat ('\x7b' :: Json.joinWith [',', ' '] pieces ++ [' ', '\x7d']) := by
  have inside := flat_joinWith (show Flat [',', ' '] by decide) each
  simp [inside]

theorem flat_bracketed {pieces : List (List Char)} (each : AllFlat pieces) :
    Flat (bracketed pieces) := by
  have inside := flat_joinWith (show Flat [',', ' '] by decide) each
  simp [bracketed, inside]

theorem flat_field (name : String) {cs : List Char} (flat : Flat cs) :
    Flat (Fragment.label name ++ cs) := flat_append.mpr ⟨Fragment.flat_label name, flat⟩

theorem flat_fields {α : Type} {value : Option α} {shown : α → List Char} (name : String)
    (flat : ∀ a ∈ value, Flat (shown a)) :
    AllFlat (value.map fun a => Fragment.label name ++ shown a).toList := by
  cases value with
  | none => exact allFlat_nil
  | some a => exact allFlat_cons (flat_field name (flat a rfl)) allFlat_nil

/-- The text of a container, from the texts of its parts. -/
theorem container_shown {c : Container} (ok : TemplateSet.embedded.renderContainer c = .ok text) :
    ∃ mounts port probe preStop resources security,
      c.volumeMounts.mapM TemplateSet.embedded.renderMount = .ok mounts ∧
      renderOptional TemplateSet.embedded.renderPort c.port = .ok port ∧
      renderOptional TemplateSet.embedded.renderProbe c.probe = .ok probe ∧
      renderOptional TemplateSet.embedded.renderPreStop c.preStop = .ok preStop ∧
      renderOptional TemplateSet.embedded.renderResources c.resources = .ok resources ∧
      renderOptional TemplateSet.embedded.renderSecurity c.securityContext = .ok security ∧
      text.toList = '\x7b' :: Json.joinWith [',', ' ']
        (containerPieces c mounts port probe preStop resources security) ++ [' ', '\x7d'] := by
  unfold TemplateSet.renderContainer at ok
  obtain ⟨mounts, mountsOk, ok⟩ := except_bind_ok.mp ok
  obtain ⟨port, portOk, ok⟩ := except_bind_ok.mp ok
  obtain ⟨probe, probeOk, ok⟩ := except_bind_ok.mp ok
  obtain ⟨preStop, preStopOk, ok⟩ := except_bind_ok.mp ok
  obtain ⟨resources, resourcesOk, ok⟩ := except_bind_ok.mp ok
  obtain ⟨security, securityOk, ok⟩ := except_bind_ok.mp ok
  have whole := render_of_shows (shows_container c fun name =>
    find_of (containerBindings c mounts port probe preStop resources security) name)
  obtain rfl := Except.ok.inj (whole.symm.trans ok)
  rw [String.toList_ofList]
  exact ⟨mounts, port, probe, preStop, resources, security, mountsOk, portOk, probeOk, preStopOk,
    resourcesOk, securityOk, rfl⟩

theorem flat_container {c : Container} (ok : TemplateSet.embedded.renderContainer c = .ok text) :
    Flat text.toList := by
  obtain ⟨mounts, port, probe, preStop, resources, security, mountsOk, portOk, probeOk, preStopOk,
    resourcesOk, securityOk, shown⟩ := container_shown ok
  have mounts_ := flat_bracketed (flat_all
    (fun m _ done => flat_line (f := .volumeMount) (isLine_of_part (by simp)) done) mountsOk)
  have port_ := flat_optional
    (fun p _ done => flat_line (f := .port) (isLine_of_part (by simp)) done) portOk
  have ports : ∀ t ∈ port, Flat ('[' :: t.toList ++ [']']) := fun t set => by simp [port_ t set]
  have probe_ := flat_optional (fun p _ => flat_probe) probeOk
  have preStop_ := flat_optional
    (fun p _ done => flat_line (f := .lifecycle) (isLine_of_part (by simp)) done) preStopOk
  have resources_ := flat_optional
    (fun p _ done => flat_line (f := .resources) (isLine_of_part (by simp)) done) resourcesOk
  have security_ := flat_optional
    (fun p _ done => flat_line (f := .securityContext) (isLine_of_part (by simp)) done) securityOk
  rw [shown]
  apply flat_spaced
  apply allFlat_append _ (flat_fields "securityContext" security_)
  apply allFlat_append _ (flat_fields "resources" resources_)
  apply allFlat_append _ (flat_fields "lifecycle" preStop_)
  apply allFlat_append _ (flat_fields "readinessProbe" probe_)
  apply allFlat_append _ (allFlat_cons (flat_field "volumeMounts" mounts_)
    (allFlat_cons (flat_field "env" (Json.flat_write _)) allFlat_nil))
  apply allFlat_append _ (flat_fields "ports" ports)
  apply allFlat_append _ (flat_fields "args" fun _ _ => Json.flat_write _)
  apply allFlat_append _ (flat_fields "command" fun _ _ => Json.flat_write _)
  apply allFlat_append _ (flat_fields "image" fun _ _ => Json.flat_write _)
  exact allFlat_cons (flat_field "name" (Json.flat_write _)) allFlat_nil

theorem pod_shown {p : Pod} (ok : TemplateSet.embedded.renderPod p = .ok text) :
    ∃ containers volumes,
      p.containers.mapM TemplateSet.embedded.renderContainer = .ok containers ∧
      p.volumes.mapM TemplateSet.embedded.renderVolume = .ok volumes ∧
      text.toList = '\x7b' :: Json.joinWith [',', ' '] (podPieces p containers volumes) ++
        [' ', '\x7d'] := by
  unfold TemplateSet.renderPod at ok
  obtain ⟨containers, containersOk, ok⟩ := except_bind_ok.mp ok
  obtain ⟨volumes, volumesOk, ok⟩ := except_bind_ok.mp ok
  have whole := render_of_shows (shows_pod p fun name =>
    find_of (podBindings p containers volumes) name)
  obtain rfl := Except.ok.inj (whole.symm.trans ok)
  rw [String.toList_ofList]
  exact ⟨containers, volumes, containersOk, volumesOk, rfl⟩

/-- Entries that go into a pod as they are stay on one line. -/
structure Pod.FlatEntries (p : Pod) : Prop where
  initContainers : ∀ entries ∈ p.initContainers, AllFlat (entries.map String.toList)
  hostAliases : ∀ entries ∈ p.hostAliases, AllFlat (entries.map String.toList)

/-- A pod stays on one line and ends in a brace. -/
theorem flat_pod {p : Pod} (entries : p.FlatEntries)
    (ok : TemplateSet.embedded.renderPod p = .ok text) :
    Flat text.toList ∧ Text.Closed text.toList := by
  obtain ⟨containers, volumes, containersOk, volumesOk, shown⟩ := pod_shown ok
  have containers_ := flat_bracketed (flat_all (fun c _ => flat_container) containersOk)
  have volumes_ := flat_bracketed (flat_all (fun s _ => flat_volume) volumesOk)
  have secrets : AllFlat ((p.imagePullSecrets.map .text).map pullSecretText) := by
    refine List.forall_mem_map.mpr fun name _ => ?_
    simp [pullSecretText, Fragment.flat_label, Json.flat_write]
  rw [shown]
  have closing : Text.Closed [' ', '\x7d'] := ⟨'\x7d', rfl, by decide⟩
  refine ⟨flat_spaced ?_, closing.append⟩
  apply allFlat_append _ (allFlat_cons (flat_field "imagePullSecrets" (flat_bracketed secrets))
    (allFlat_cons (flat_field "terminationGracePeriodSeconds" (Json.flat_write _))
      (allFlat_cons (flat_field "volumes" volumes_) allFlat_nil)))
  apply allFlat_append _
    (flat_fields "hostAliases" fun e set => flat_bracketed (entries.hostAliases e set))
  apply allFlat_append _
    (flat_fields "initContainers" fun e set => flat_bracketed (entries.initContainers e set))
  exact allFlat_cons (flat_field "containers" containers_) allFlat_nil

end Parts

section Manifests
open Manifest
variable {f : Fragment} {text : String}

/-- A text with the fixed parts of a template and nothing but flat text between them. -/
structure Structured (f : Fragment) (text : String) : Prop where
  fills : Fills f.form text.toList
  closed : Text.Closed text.toList

/-- The templates of manifests and how many lines they have. -/
def Manifest.Fragment.manifests : List (Fragment × Nat) :=
  [(.namespaceManifest, 4), (.serviceManifest, 10), (.deploymentManifest, 15)]

/-- What the sources of the manifests say about their lines. -/
theorem lineStarts_manifests : ∀ p ∈ Fragment.manifests,
    (p.1.form.splitOn (some '\n')).map start = p.1.lineStarts ∧ p.1.lineStarts.length = p.2 ∧
      ∀ start ∈ p.1.lineStarts, ¬ start <+: Text.dashes := by decide +kernel

namespace Structured
variable {count : Nat} (structured : Structured f text) (manifest : (f, count) ∈ Fragment.manifests)
include structured manifest

/-- Line by line the text starts as its template does. -/
theorem starts : List.Forall₂ (· <+: ·) f.lineStarts (Text.lines text.toList) := by
  rw [Text.lines_of_closed structured.closed, ← (lineStarts_manifests _ manifest).1,
    List.forall₂_map_left_iff]
  exact (fills_lines structured.fills).imp fun _ _ => start_prefix

theorem count_lines : (Text.lines text.toList).length = count := by
  rw [← (structured.starts manifest).length_eq]
  exact (lineStarts_manifests _ manifest).2.1

theorem dashes_not_mem : Text.dashes ∉ text.toList.splitOn '\n' := by
  rw [← Text.lines_of_closed structured.closed]
  intro member
  obtain ⟨start, held, first⟩ := exists_of_forall₂ (structured.starts manifest) member
  exact (lineStarts_manifests _ manifest).2.2 start held first

end Structured

theorem structured_of_last {bindings : List (String × Json)} {last : Element}
    (ends : f.parts = f.parts.dropLast ++ [last])
    (simple : f.parts.dropLast.all Element.isSimple = true)
    (tame : last.Tame (.of (Json.ofFields bindings)))
    (closed : ∀ bring piece, renderElement bring (.of (Json.ofFields bindings)) last = .ok piece →
      Text.Closed piece)
    (ok : TemplateSet.embedded.render f bindings = .ok text) : Structured f text := by
  obtain ⟨bring, shown⟩ := renderAll_of_render ok
  -- only the last part, where the pod goes, needs an argument of its own
  refine ⟨fills_of_renderAll ?_ shown, ?_⟩
  · intro e member
    rw [ends] at member
    rcases List.mem_append.mp member with early | late
    · exact tame_of_isSimple (List.all_eq_true.mp simple e early)
    · rwa [List.mem_singleton.mp late]
  · rw [ends] at shown
    obtain ⟨before, piece, given, same⟩ := last_of_renderAll shown
    rw [same]
    exact (closed bring piece given).append

theorem structured_namespace {name : String} (ok : TemplateSet.embedded.render .namespaceManifest
    [("namespace", .text name)] = .ok text) : Structured .namespaceManifest text := by
  refine structured_of_last rfl (by decide +kernel) (tame_json ⟨4, 9⟩ ["namespace"])
    (fun bring piece given => ?_) ok
  have closing : Text.Closed ['"'] := ⟨'"', rfl, by decide⟩
  rw [piece_of_shows (shows_json _ (find_of _ _) shows_nil) given]
  exact closing.append

theorem structured_service {bindings : List (String × Json)}
    (ok : TemplateSet.embedded.render .serviceManifest bindings = .ok text) :
    Structured .serviceManifest text := by
  refine structured_of_last rfl (by decide +kernel) (tame_of_isSimple rfl)
    (fun bring piece given => ?_) ok
  rw [piece_of_shows (shows_text _ shows_nil) given]
  exact ⟨'P', by decide +kernel, by decide⟩

theorem structured_deployment {bindings : List (String × Json)} {pod : String}
    (bound : bindings.reverse.lookup "podSpec" = some (.text pod)) (flat : Flat pod.toList)
    (closed : Text.Closed pod.toList)
    (ok : TemplateSet.embedded.render .deploymentManifest bindings = .ok text) :
    Structured .deploymentManifest text := by
  have plain : isHelper "podSpec" = false := by decide
  have found := (find_of bindings "podSpec").trans (congrArg _ bound)
  refine structured_of_last rfl (by decide +kernel) (tame_inline ⟨15, 11⟩ plain found flat)
    (fun bring piece given => ?_) ok
  rwa [piece_of_shows (shows_inline _ plain found shows_nil) given]

end Manifests

theorem fromTemplate_ok_iff {r : Except TemplateError String} {text : String} :
    fromTemplate r = .ok text ↔ r = .ok text := by
  cases r <;> simp [fromTemplate]

def ServiceManifests.texts (m : ServiceManifests) : List String :=
  [m.namespaceYaml, m.serviceYaml, m.deploymentYaml]

theorem allFlat_rawEntries {entries : List Json} :
    ∀ texts ∈ rawEntries entries, AllFlat (texts.map String.toList) := by
  intro texts set
  rw [rawEntries] at set
  split at set
  · contradiction
  · obtain rfl := Option.some.inj set
    rw [List.map_map]
    exact List.forall_mem_map.mpr fun v _ => Json.flat_compact v

namespace Assembler
open Manifest
variable {σ : Type} {a : Assembler σ} {service : Service} {deployment : Deployment}
  {resolved : Resolved} {s s' : σ} {m : ServiceManifests}

theorem flatEntries_podOf {settings : Settings} {sidecars : List SidecarService}
    {staged : List ConfigSource} {pod : Pod}
    (made : podOf service settings deployment resolved sidecars staged = .ok pod) :
    pod.FlatEntries := by
  obtain ⟨attached, -, same⟩ := except_bind_ok.mp made
  obtain rfl := Except.ok.inj same
  exact ⟨allFlat_rawEntries, allFlat_rawEntries⟩

/-- The manifests of an assembled service are the embedded templates, filled from its settings and its
pod. -/
theorem rendered_of_assembly (embedded : a.templates = .embedded)
    (ok : (a.assemble service deployment resolved).outcome s = (.ok m, s')) :
    ∃ settings staged pod podText,
      resolved.settingsFor service = .ok settings ∧
      podOf service settings deployment resolved (a.sidecarsOf service resolved) staged = .ok pod ∧
      TemplateSet.embedded.renderPod pod = .ok podText ∧
      TemplateSet.embedded.render .namespaceManifest
        [("namespace", .text settings.namespaceName)] = .ok m.namespaceYaml ∧
      TemplateSet.embedded.render .serviceManifest
        [("name", .text service.canonicalName), ("namespace", .text settings.namespaceName),
          ("port", .integer settings.port.toNat)] = .ok m.serviceYaml ∧
      TemplateSet.embedded.render .deploymentManifest
        [("name", .text service.canonicalName), ("namespace", .text settings.namespaceName),
          ("replicas", .integer (deployment.replicasFor service.serviceType settings).toNat),
          ("version", .text (Label.ofVersion deployment.configuration.version)),
          ("podAnnotations", .textTable settings.extras.annotations),
          ("podSpec", .text podText)] = .ok m.deploymentYaml := by
  obtain ⟨settings, staged, pod, found, -, made, rendered⟩ :=
    deployment_ok_iff.mp (deployment_of_assembly ok)
  rw [renderDeployment, embedded] at rendered
  obtain ⟨podText, podOk, rendered⟩ := except_bind_ok.mp rendered
  obtain ⟨_, -, ok⟩ := Activity.outcome_lift_bind_ok.mp ok
  obtain ⟨namespaceYaml, ns, ok⟩ := Activity.outcome_lift_bind_ok.mp ok
  obtain ⟨serviceYaml, svc, ok⟩ := Activity.outcome_lift_bind_ok.mp ok
  obtain ⟨text, t, -, same⟩ := Activity.outcome_bind_ok.mp ok
  rw [Activity.outcome_pure, Prod.mk.injEq, Except.ok.injEq] at same
  obtain ⟨rfl, -⟩ := same
  simp only [namespaceManifest, serviceManifest, found, embedded, ok_bind] at ns svc
  exact ⟨settings, staged, pod, podText, found, made, fromTemplate_ok_iff.mp podOk,
    fromTemplate_ok_iff.mp ns, fromTemplate_ok_iff.mp svc, fromTemplate_ok_iff.mp rendered⟩

/-- The three texts of an assembled service are structured as their templates are. -/
theorem structured_of_assembly (embedded : a.templates = .embedded)
    (ok : (a.assemble service deployment resolved).outcome s = (.ok m, s')) :
    List.Forall₂ (fun p text => p ∈ Fragment.manifests ∧ Structured p.1 text) Fragment.manifests
      m.texts := by
  obtain ⟨settings, staged, pod, podText, -, made, podOk, ns, svc, deployed⟩ :=
    rendered_of_assembly embedded ok
  obtain ⟨flat, closed⟩ := flat_pod (flatEntries_podOf made) podOk
  have third := structured_deployment (by simp) flat closed deployed
  exact .cons ⟨by simp [Fragment.manifests], structured_namespace ns⟩
    (.cons ⟨by simp [Fragment.manifests], structured_service svc⟩
      (.cons ⟨by simp [Fragment.manifests], third⟩ .nil))

end Assembler

/-- The stream of structured texts frames each of them. -/
theorem stream_eq_framed {m : ServiceManifests}
    (closed : ∀ text ∈ m.texts, Text.Closed text.toList) :
    m.stream.toList = Text.framed (m.texts.map String.toList) := by
  simp only [ServiceManifests.texts, List.forall_mem_cons] at closed
  obtain ⟨closed₁, closed₂, closed₃, -⟩ := closed
  rw [ServiceManifests.stream, Text.trimEnd_of_closed closed₁, Text.trimEnd_of_closed closed₂,
    Text.trimEnd_of_closed closed₃]
  simp [ServiceManifests.texts, Text.framed, Text.dashes, String.toList_append]

namespace Assembler
open Manifest
variable {σ : Type} {a : Assembler σ} {service : Service} {deployment : Deployment}
  {resolved : Resolved} {s s' : σ} {m : ServiceManifests}

/-- Whatever the texts of a service are, its manifests have the lines of their templates, each line
starts as it does there, and the stream falls apart into the manifests. -/
theorem assembled_documents (embedded : a.templates = .embedded)
    (ok : (a.assemble service deployment resolved).outcome s = (.ok m, s')) :
    List.Forall₂ (fun (p : Fragment × Nat) text => (Text.lines text.toList).length = p.2 ∧
        List.Forall₂ (· <+: ·) p.1.lineStarts (Text.lines text.toList))
      [(.namespaceManifest, 4), (.serviceManifest, 10), (.deploymentManifest, 15)] m.texts ∧
    Text.documents m.stream.toList = [] :: m.texts.map String.toList := by
  have structured := structured_of_assembly embedded ok
  have each : ∀ text ∈ m.texts, Text.Closed text.toList ∧
      Text.dashes ∉ text.toList.splitOn '\n' := by
    intro text member
    obtain ⟨p, -, manifest, own⟩ := exists_of_forall₂ structured member
    exact ⟨own.closed, own.dashes_not_mem manifest⟩
  constructor
  · exact structured.imp fun p text own => ⟨own.2.count_lines own.1, own.2.starts own.1⟩
  · rw [stream_eq_framed fun text member => (each text member).1]
    exact Text.documents_framed (List.forall_mem_map.mpr fun text member => (each text member).2)

end Assembler

section Hostile

/-- A text that would begin a document of its own. -/
def hostileText : String := "web\n---\nkind: Secret\n---\n"

def hostileService : Service := .named hostileText "web" hostileText

def hostileSettings : Settings :=
  { Settings.listening 8080 with
    location := some hostileText
    env := Table.ofList [(hostileText, hostileText)]
    extras := ⟨[hostileText], [.emptyDir hostileText hostileText],
      Table.ofList [(hostileText, hostileText)]⟩ }

def hostileDeployment : Deployment :=
  { account := .empty
    configuration := ⟨hostileText, hostileText,
      { Environment.empty with
        initContainers := Table.ofList [("web", [.text hostileText])]
        hostAliases := Table.ofList [("web", [.record [(hostileText, .text hostileText)]])] }⟩
    stagingRoot := ⟨"/staging"⟩ }

def hostileResolved : Resolved := ⟨Table.ofList [("web", hostileSettings)], .empty⟩

def hostileAssembler : Assembler (List BundleRequest) := ⟨.embedded, .recording, []⟩

theorem hostile_documents : ∃ m seen,
    (hostileAssembler.assemble hostileService hostileDeployment hostileResolved).outcome [] =
      (.ok m, seen) ∧
    (m.texts.map fun text => (Text.lines text.toList).length) = [4, 10, 15] ∧
    Text.documents m.stream.toList = [] :: m.texts.map String.toList := by
  have staging : ∃ staged seen, (Staging.stage hostileAssembler.store hostileDeployment.account
      hostileService (hostileAssembler.sidecarsOf hostileService hostileResolved) hostileResolved
      hostileDeployment.stagingPath hostileSettings.namespaceName).outcome [] = (.ok staged, seen) :=
    ⟨_, _, rfl⟩
  obtain ⟨staged, seen, staging⟩ := staging
  have made : ∃ pod, Assembler.podOf hostileService hostileSettings hostileDeployment
      hostileResolved (hostileAssembler.sidecarsOf hostileService hostileResolved) staged =
        .ok pod := ⟨_, rfl⟩
  obtain ⟨pod, made⟩ := made
  obtain ⟨m, ok⟩ := Assembler.assembly_made rfl rfl staging made
  obtain ⟨lines, documents⟩ := Assembler.assembled_documents rfl ok
  refine ⟨m, seen, ok, ?_, documents⟩
  exact (map_eq_of_forall₂ lines fun _ _ both => both.1.symm).symm

end Hostile
end Stevedore
