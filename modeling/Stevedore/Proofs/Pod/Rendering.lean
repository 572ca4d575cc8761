import Stevedore.Pod.Renderer
import Stevedore.Proofs.Json.Spelling
import Stevedore.Proofs.Manifest.Embedded

/-! What the embedded templates make of a pod, read back as JSON. -/
namespace Stevedore
open Json Manifest Template
open Manifest.Fragment (label)

def VolumeMount.json (m : VolumeMount) : Json :=
  ofFields [("name", .text m.name), ("mountPath", .text m.mountPath)]

def portJson (port : UInt16) : Json := ofFields [("containerPort", .integer port.toNat)]

def Probe.json : Probe → Json
  | .exec command => ofFields [("exec", ofFields [("command", texts command)])]
  | .tcp port => ofFields [("tcpSocket", ofFields [("port", .integer port.toNat)])]

def preStopJson (command : List String) : Json :=
  ofFields [("preStop", ofFields [("exec", ofFields [("command", texts command)])])]

def Resources.json (r : Resources) : Json :=
  ofFields [("requests", ofTable r.requests), ("limits", ofTable r.limits)]

def SecurityContext.json (c : SecurityContext) : Json :=
  ofFields [("privileged", .bool c.privileged)]

def ConfigSource.json (s : ConfigSource) : Json :=
  match s.kind with
  | .secret => ofFields [("name", .text s.id), ("secret", ofFields [("secretName", .text s.id)])]
  | .emptyDir => ofFields [("name", .text s.id), ("emptyDir", ofFields [])]
  | .configMap => ofFields [("name", .text s.id), ("configMap", ofFields [("name", .text s.id)])]

/-- A container as a reader of its manifest finds it; what is not set has no field. -/
def Container.json (c : Container) : Json :=
  ofFields ([("name", .text c.name)] ++ field? "image" .text c.image ++
    field? "command" texts (nonEmpty c.command) ++ field? "args" texts (nonEmpty c.args) ++
    field? "ports" (fun port => .list [portJson port]) c.port ++
    [("volumeMounts", .list (c.volumeMounts.map (·.json))), ("env", .list (envEntries c.env))] ++
    field? "readinessProbe" Probe.json c.probe ++ field? "lifecycle" preStopJson c.preStop ++
    field? "resources" Resources.json c.resources ++
    field? "securityContext" SecurityContext.json c.securityContext)

/-- The value of an entry that goes into the manifest as it is. -/
def entryJson (entry : String) : Json := (exactly? entry).getD .null

/-- A pod as a reader of its manifest finds it. -/
def Pod.json (p : Pod) : Json :=
  ofFields ([("containers", .list (p.containers.map (·.json)))] ++
    field? "initContainers" (fun entries => .list (entries.map entryJson)) p.initContainers ++
    field? "hostAliases" (fun entries => .list (entries.map entryJson)) p.hostAliases ++
    [("imagePullSecrets", .list (p.imagePullSecrets.map fun n => ofFields [("name", .text n)])),
      ("terminationGracePeriodSeconds", .integer p.gracePeriod.toNat),
      ("volumes", .list (p.volumes.map (·.json)))])

/-- A rendering succeeds, and its text spells the value. -/
def Rendered (result : Except TemplateError String) (v : Json) : Prop :=
  ∃ text, result = .ok text ∧ Spells text.toList v

theorem renderIn_embedded {f : Fragment} {sight : Sight} {text : List Char} (depth : Nat)
    (shows : Shows sight f.parts text) :
    TemplateSet.embedded.renderIn (depth + 1) f sight = .ok text := by
  rw [TemplateSet.renderIn, TemplateSet.elements_embedded, shows]

theorem render_of_shows {f : Fragment} {bindings : List (String × Json)} {text : List Char}
    (shows : Shows (.of (ofFields bindings)) f.parts text) :
    TemplateSet.embedded.render f bindings = .ok (String.ofList text) := by
  rw [TemplateSet.render, renderIn_embedded 63 shows]

theorem rendered_of_shows {f : Fragment} {bindings : List (String × Json)} {text : List Char}
    {v : Json} (shows : Shows (.of (ofFields bindings)) f.parts text) (spells : Spells text v) :
    Rendered (TemplateSet.embedded.render f bindings) v :=
  ⟨String.ofList text, render_of_shows shows, by rwa [String.toList_ofList]⟩

section Pieces

theorem one_space : ∀ c ∈ [' '], isSpace c = true := by
  intro c member
  rw [List.mem_singleton.mp member]
  rfl

theorem spellsField_label {text : List Char} {v : Json} (name : String) (spells : Spells text v) :
    SpellsField (label name ++ text) (name, v) :=
  ⟨[' '], text, one_space, spells, by rw [label, List.append_assoc]; rfl⟩

theorem spellsField_write {v : Json} (name : String) (formed : v.WellFormed) :
    SpellsField (label name ++ v.write) (name, v) := spellsField_label name (spells_write v formed)

/-- A record with a space before its closing brace. -/
theorem spells_spaced {pieces : List (List Char)} {fields : List (String × Json)}
    (spell : SpellFields pieces fields) :
    Spells ('\x7b' :: joinWith [',', ' '] pieces ++ [' ', '\x7d']) (ofFields fields) :=
  spells_record one_space one_space spell

theorem spells_single {text : List Char} {v : Json} (name : String) (spells : Spells text v) :
    Spells ('\x7b' :: label name ++ text ++ [' ', '\x7d']) (ofFields [(name, v)]) := by
  have fields := spells_spaced (.cons (spellsField_label name spells) .nil)
  simpa [joinWith] using fields

theorem wellFormed_texts (items : List String) : (texts items).WellFormed := by
  rw [texts, WellFormed]
  induction items with
  | nil => trivial
  | cons item rest ih => exact ⟨trivial, ih⟩

theorem wellFormed_natural {n : Nat} (small : n < 2 ^ 64) : (Json.integer n).WellFormed := by
  rw [WellFormed, IsWord]
  omega

theorem wellFormed_port (port : UInt16) : (Json.integer port.toNat).WellFormed := by
  have := port.toNat_lt
  exact wellFormed_natural (by omega)

theorem rendered_mount (m : VolumeMount) :
    Rendered (TemplateSet.embedded.renderMount m) m.json := by
  unfold VolumeMount.json
  apply rendered_of_shows
  · exact shows_text _ (shows_json _ (find_of _ _) (shows_text _ (shows_json _ (find_of _ _)
      (shows_text _ shows_nil))))
  · have name : SpellsField _ ("name", .text m.name) := spellsField_write "name" trivial
    have path : SpellsField _ ("mountPath", .text m.mountPath) :=
      spellsField_write "mountPath" trivial
    simpa [joinWith] using spells_spaced (.cons name (.cons path .nil))

theorem rendered_port (port : UInt16) :
    Rendered (TemplateSet.embedded.renderPort port) (portJson port) := by
  unfold portJson
  apply rendered_of_shows
  · exact shows_text _ (shows_json _ (find_of _ _) (shows_text _ shows_nil))
  · simpa using spells_single "containerPort" (spells_write _ (wellFormed_port port))

theorem rendered_probe (p : Probe) : Rendered (TemplateSet.embedded.renderProbe p) p.json := by
  cases p with
  | exec command =>
    rw [TemplateSet.renderProbe, Probe.json]
    apply rendered_of_shows
    · exact shows_text _ (shows_json _ (find_of _ _) (shows_text _ shows_nil))
    · have inner := spells_single "command" (spells_write _ (wellFormed_texts command))
      simpa using spells_single "exec" inner
  | tcp port =>
    rw [TemplateSet.renderProbe, Probe.json]
    apply rendered_of_shows
    · exact shows_text _ (shows_json _ (find_of _ _) (shows_text _ shows_nil))
    · have port := spells_single "port" (spells_write _ (wellFormed_port port))
      simpa using spells_single "tcpSocket" port

theorem rendered_preStop (command : List String) :
    Rendered (TemplateSet.embedded.renderPreStop command) (preStopJson command) := by
  unfold preStopJson
  apply rendered_of_shows
  · exact shows_text _ (shows_json _ (find_of _ _) (shows_text _ shows_nil))
  · have inner := spells_single "command" (spells_write _ (wellFormed_texts command))
    simpa using spells_single "preStop" (spells_single "exec" inner)

theorem rendered_resources {r : Resources} (formed : (ofTable r.requests).WellFormed)
    (formed' : (ofTable r.limits).WellFormed) :
    Rendered (TemplateSet.embedded.renderResources r) r.json := by
  unfold Resources.json
  apply rendered_of_shows
  · exact shows_text _ (shows_json _ (find_of _ _) (shows_text _ (shows_json _ (find_of _ _)
      (shows_text _ shows_nil))))
  · have fields := spells_spaced (.cons (spellsField_write "requests" formed)
      (.cons (spellsField_write "limits" formed') .nil))
    simpa [joinWith] using fields

theorem rendered_security (c : SecurityContext) :
    Rendered (TemplateSet.embedded.renderSecurity c) c.json := by
  unfold SecurityContext.json
  apply rendered_of_shows
  · exact shows_text _ (shows_json _ (find_of _ _) (shows_text _ shows_nil))
  · simpa using spells_single "privileged" (spells_write (.bool c.privileged) trivial)

theorem rendered_volume (s : ConfigSource) :
    Rendered (TemplateSet.embedded.renderVolume s) s.json := by
  have name : SpellsField _ ("name", .text s.id) := spellsField_write "name" trivial
  unfold TemplateSet.renderVolume ConfigSource.json
  cases s.kind with
  | secret =>
    apply rendered_of_shows
    · exact shows_text _ (shows_json _ (find_of _ _) (shows_text _ (shows_json _ (find_of _ _)
        (shows_text _ shows_nil))))
    · have inner := spells_single "secretName" (spells_write (.text s.id) trivial)
      have fields := spells_spaced (.cons name (.cons (spellsField_label "secret" inner) .nil))
      simpa [joinWith] using fields
  | emptyDir =>
    apply rendered_of_shows
    · exact shows_text _ (shows_json _ (find_of _ _) (shows_text _ shows_nil))
    · have inner := spells_record one_space no_spaces .nil
      have fields := spells_spaced (.cons name (.cons (spellsField_label "emptyDir" inner) .nil))
      simpa [joinWith] using fields
  | configMap =>
    apply rendered_of_shows
    · exact shows_text _ (shows_json _ (find_of _ _) (shows_text _ (shows_json _ (find_of _ _)
        (shows_text _ shows_nil))))
    · have inner := spells_single "name" (spells_write (.text s.id) trivial)
      have fields := spells_spaced (.cons name (.cons (spellsField_label "configMap" inner) .nil))
      simpa [joinWith] using fields

end Pieces

section Sections

theorem joinWith_comma (first : List Char) (rest : List (List Char)) :
    joinWith [',', ' '] (first :: rest) = first ++ rest.flatMap fun t => ',' :: ' ' :: t := by
  induction rest generalizing first with
  | nil => simp [joinWith]
  | cons second rest ih => rw [joinWith_cons_cons, ih, List.flatMap_cons]; simp

theorem flatMap_optional {α : Type} (value : Option α) (f : α → List Char) :
    ((value.map f).toList.flatMap fun t => ',' :: ' ' :: t) =
      (value.map fun a => ',' :: ' ' :: f a).getD [] := by
  cases value <;> simp

theorem rendered_all {α : Type} {render : α → Except TemplateError String} {encode : α → Json}
    {items : List α} (ok : ∀ a ∈ items, Rendered (render a) (encode a)) :
    ∃ pieces, items.mapM render = .ok pieces ∧
      SpellAll (pieces.map String.toList) (items.map encode) := by
  induction items with
  | nil => exact ⟨[], rfl, .nil⟩
  | cons a rest ih =>
    obtain ⟨text, first, spells⟩ := ok a (by simp)
    obtain ⟨pieces, others, spell⟩ := ih fun b member => ok b (by simp [member])
    refine ⟨text :: pieces, ?_, .cons spells spell⟩
    rw [List.mapM_cons, first, others]
    rfl

/-- A part is there exactly when its value is, and spells it. -/
abbrev SpellsPart {α β : Type} (text : β → List Char) (encode : α → Json) (part : Option β)
    (value : Option α) : Prop :=
  Option.Rel (fun b a => Spells (text b) (encode a)) part value

theorem rendered_optional {α : Type} {render : α → Except TemplateError String}
    {encode : α → Json} {value : Option α}
    (ok : ∀ a, value = some a → Rendered (render a) (encode a)) :
    ∃ part, renderOptional render value = .ok part ∧ SpellsPart String.toList encode part value := by
  cases value with
  | none => exact ⟨none, rfl, .none⟩
  | some a =>
    obtain ⟨text, done, spells⟩ := ok a rfl
    refine ⟨some text, ?_, .some spells⟩
    rw [renderOptional, done]
    rfl

theorem spellsPart_write {α : Type} {encode : α → Json} {value : Option α}
    (formed : ∀ a, (encode a).WellFormed) : SpellsPart (fun a => (encode a).write) encode value value := by
  cases value with
  | none => exact .none
  | some a => exact .some (spells_write _ (formed a))

theorem spellFields_part {α β : Type} {text : β → List Char} {encode : α → Json} {part : Option β}
    {value : Option α} (name : String) (spells : SpellsPart text encode part value) :
    SpellFields (part.map fun b => label name ++ text b).toList (field? name encode value) := by
  cases spells with
  | none => exact .nil
  | some spells => exact .cons (spellsField_label name spells) .nil

variable {s : Sight} {rest : List Element} {text : List Char}

theorem shows_of_eq {elements : List Element} {text' : List Char} (shows : Shows s elements text')
    (same : text' = text) : Shows s elements text := same ▸ shows

theorem shows_optionalJson {α : Type} {name : String} {encode : α → Json} {value : Option α}
    (start stop : Nat) (some_ : ∀ a, encode a ≠ .null)
    (found : s.find (.way false 0 [name]) = .ok (value.map encode)) (others : Shows s rest text) :
    Shows s (Fragment.optionalJson start stop name :: rest)
      ((value.map fun a => ',' :: ' ' :: (label name ++ (encode a).write)).getD [] ++ text) := by
  apply shows_optional _ found some_ _ others
  rintro a rfl
  simpa using shows_text (',' :: ' ' :: label name) (shows_json ⟨1, start⟩ found shows_nil)

theorem shows_optionalPart {name : String} {value : Option String} (start stop : Nat)
    (plain : isHelper name = false)
    (found : s.find (.way false 0 [name]) = .ok (value.map .text)) (others : Shows s rest text) :
    Shows s (Fragment.optionalPart start stop name :: rest)
      ((value.map fun t => ',' :: ' ' :: (label name ++ t.toList)).getD [] ++ text) := by
  apply shows_optional _ found (by simp) _ others
  rintro a rfl
  simpa using shows_text (',' :: ' ' :: label name) (shows_inline ⟨1, start⟩ plain found shows_nil)

theorem shows_optionalSingle {name : String} {value : Option String} (start stop : Nat)
    (key : String) (plain : isHelper name = false)
    (found : s.find (.way false 0 [name]) = .ok (value.map .text)) (others : Shows s rest text) :
    Shows s (Fragment.optionalSingle start stop key name :: rest)
      ((value.map fun t => ',' :: ' ' :: (label key ++ ('[' :: t.toList ++ [']']))).getD [] ++
        text) := by
  apply shows_optional _ found (by simp) _ others
  rintro a rfl
  simpa using shows_text (',' :: ' ' :: label key ++ ['['])
    (shows_inline ⟨1, start⟩ plain found (shows_text [']'] shows_nil))

theorem shows_eachPart {name : String} {items : List String} (start inner stop : Nat)
    (found : s.find (.way false 0 [name]) = .ok (some (texts items))) (others : Shows s rest text) :
    Shows s (Fragment.eachPart start inner stop name :: rest)
      (joinWith [',', ' '] (items.map String.toList) ++ text) := by
  have part : ∀ v ∈ items.map Json.text, ∀ scope : Scope, scope.base = v → scope.names = [] →
      Shows (s.inner scope) [.inline ⟨1, start⟩ "this" []] (shown v) := by
    rintro v member scope base -
    obtain ⟨t, -, rfl⟩ := List.mem_map.mp member
    have this_ := find_inner s scope
    rw [base] at this_
    have shows := shows_inline ⟨1, start⟩ (show isHelper "this" = false by decide) this_ shows_nil
    rw [List.append_nil] at shows
    exact shows
  have shows := shows_each ⟨1, stop⟩ ⟨1, inner⟩ _ shown found part others
  rw [List.map_map] at shows
  exact shows

theorem shows_optionalParts {name : String} {value : Option (List String)}
    (start inner last stop : Nat)
    (found : s.find (.way false 0 [name]) = .ok (value.map texts)) (others : Shows s rest text) :
    Shows s (Fragment.optionalParts start inner last stop name :: rest)
      ((value.map fun items => ',' :: ' ' :: (label name ++
        ('[' :: joinWith [',', ' '] (items.map String.toList) ++ [']']))).getD [] ++ text) := by
  apply shows_optional _ found (by simp [texts]) _ others
  rintro items rfl
  simpa using shows_text (',' :: ' ' :: label name ++ ['['])
    (shows_eachPart start inner last found (shows_text [']'] shows_nil))

end Sections

section Whole

/-- What the template of a container sees. -/
def containerBindings (c : Container) (mounts : List String)
    (port probe preStop resources security : Option String) : List (String × Json) :=
  [("name", .text c.name)] ++ field? "image" .text c.image ++
    field? "command" texts (nonEmpty c.command) ++ field? "args" texts (nonEmpty c.args) ++
    field? "port" .text port ++
    [("volumeMounts", texts mounts), ("env", .list (envEntries c.env))] ++
    field? "readinessProbe" .text probe ++ field? "lifecycle" .text preStop ++
    field? "resources" .text resources ++ field? "securityContext" .text security

theorem wellFormed_env (env : Table String) : (Json.list (envEntries env)).WellFormed := by
  rw [WellFormed, envEntries]
  induction env.entries with
  | nil => trivial
  | cons e rest ih =>
    have ascending : "name" < "value" := by decide
    exact ⟨⟨List.pairwise_pair.mpr ascending, trivial, trivial, trivial⟩, ih⟩

/-- The fields that the template of a container writes. -/
def containerPieces (c : Container) (mounts : List String)
    (port probe preStop resources security : Option String) : List (List Char) :=
  [label "name" ++ (Json.text c.name).write] ++
    (c.image.map fun image => label "image" ++ (Json.text image).write).toList ++
    ((nonEmpty c.command).map fun items => label "command" ++ (texts items).write).toList ++
    ((nonEmpty c.args).map fun items => label "args" ++ (texts items).write).toList ++
    (port.map fun t => label "ports" ++ ('[' :: t.toList ++ [']'])).toList ++
    [label "volumeMounts" ++ ('[' :: joinWith [',', ' '] (mounts.map String.toList) ++ [']']),
      label "env" ++ (Json.list (envEntries c.env)).write] ++
    (probe.map fun t => label "readinessProbe" ++ t.toList).toList ++
    (preStop.map fun t => label "lifecycle" ++ t.toList).toList ++
    (resources.map fun t => label "resources" ++ t.toList).toList ++
    (security.map fun t => label "securityContext" ++ t.toList).toList

theorem shows_container {s : Sight} (c : Container) {mounts : List String}
    {port probe preStop resources security : Option String}
    (found : ∀ name, s.find (.way false 0 [name]) =
      .ok ((containerBindings c mounts port probe preStop resources security).reverse.lookup name)) :
    Shows s (Fragment.parts .container) ('\x7b' :: joinWith [',', ' ']
      (containerPieces c mounts port probe preStop resources security) ++ [' ', '\x7d']) := by
  simp only [containerBindings, List.reverse_append, reverse_field, List.reverse_cons,
    List.reverse_nil, List.nil_append, List.append_assoc, List.lookup_append, lookup_field, Table.lookup_cons_eq, List.lookup_nil] at found
  have bound (name : String) (value : Option Json) (same : _ = value) :
      s.find (.way false 0 [name]) = .ok value := (found name).trans (congrArg _ same)
  rw [Fragment.parts]
  apply shows_of_eq
  · apply shows_text
    apply shows_json _ (bound "name" (some (.text c.name)) (by simp))
    apply shows_optionalJson _ _ (by simp) (bound "image" (c.image.map .text) (by simp))
    apply shows_optionalJson _ _ (by simp [texts])
      (bound "command" ((nonEmpty c.command).map texts) (by simp))
    apply shows_optionalJson _ _ (by simp [texts])
      (bound "args" ((nonEmpty c.args).map texts) (by simp))
    apply shows_optionalSingle _ _ _ (by decide) (bound "port" (port.map .text) (by simp))
    apply shows_text
    apply shows_eachPart _ _ _ (bound "volumeMounts" (some (texts mounts)) (by simp))
    apply shows_text
    apply shows_json _ (bound "env" (some (.list (envEntries c.env))) (by simp))
    apply shows_optionalPart _ _ (by decide) (bound "readinessProbe" (probe.map .text) (by simp))
    apply shows_optionalPart _ _ (by decide) (bound "lifecycle" (preStop.map .text) (by simp))
    apply shows_optionalPart _ _ (by decide) (bound "resources" (resources.map .text) (by simp))
    apply shows_optionalPart _ _ (by decide)
      (bound "securityContext" (security.map .text) (by simp))
    exact shows_text _ shows_nil
  · simp [containerPieces, joinWith_comma, flatMap_optional]

/-- The parts of a container that are rendered before it, each spelling its value. -/
structure ContainerParts (c : Container) (mounts : List String)
    (port probe preStop resources security : Option String) : Prop where
  mounts : SpellAll (mounts.map String.toList) (c.volumeMounts.map (·.json))
  port : SpellsPart String.toList portJson port c.port
  probe : SpellsPart String.toList Probe.json probe c.probe
  preStop : SpellsPart String.toList preStopJson preStop c.preStop
  resources : SpellsPart String.toList Resources.json resources c.resources
  security : SpellsPart String.toList SecurityContext.json security c.securityContext

theorem spells_bracket {text : List Char} {v : Json} (spells : Spells text v) :
    Spells ('[' :: text ++ [']']) (.list [v]) := by
  have single := spells_list one_space (.cons spells .nil)
  simpa [joinWith] using single

theorem spellsPart_bracket {α : Type} {encode : α → Json} {part : Option String} {value : Option α}
    (spells : SpellsPart String.toList encode part value) :
    SpellsPart (fun t : String => '[' :: t.toList ++ [']']) (fun a => .list [encode a]) part value := by
  cases spells with
  | none => exact .none
  | some spells => exact .some (spells_bracket spells)

theorem spellFields_append {first second : List (List Char)} {fields fields' : List (String × Json)}
    (spell : SpellFields first fields) (spell' : SpellFields second fields') :
    SpellFields (first ++ second) (fields ++ fields') := List.rel_append spell spell'

theorem spells_container {c : Container} {mounts : List String}
    {port probe preStop resources security : Option String}
    (parts : ContainerParts c mounts port probe preStop resources security) :
    Spells ('\x7b' :: joinWith [',', ' ']
      (containerPieces c mounts port probe preStop resources security) ++ [' ', '\x7d']) c.json := by
  have name : SpellsField _ ("name", .text c.name) := spellsField_write "name" trivial
  have image : SpellsPart _ Json.text c.image c.image := spellsPart_write fun _ => trivial
  have command : SpellsPart _ texts (nonEmpty c.command) _ := spellsPart_write wellFormed_texts
  have args : SpellsPart _ texts (nonEmpty c.args) _ := spellsPart_write wellFormed_texts
  have port := spellsPart_bracket parts.port
  have mounts := spellsField_label "volumeMounts" (spells_list one_space parts.mounts)
  have env := spellsField_write "env" (wellFormed_env c.env)
  apply spells_spaced
  apply spellFields_append _ (spellFields_part "securityContext" parts.security)
  apply spellFields_append _ (spellFields_part "resources" parts.resources)
  apply spellFields_append _ (spellFields_part "lifecycle" parts.preStop)
  apply spellFields_append _ (spellFields_part "readinessProbe" parts.probe)
  apply spellFields_append _ (.cons mounts (.cons env .nil))
  apply spellFields_append _ (spellFields_part "ports" port)
  apply spellFields_append _ (spellFields_part "args" args)
  apply spellFields_append _ (spellFields_part "command" command)
  apply spellFields_append _ (spellFields_part "image" image)
  exact .cons name .nil

/-- The quantities of a container are values that a reader of JSON can have found. -/
def Container.WellFormed (c : Container) : Prop :=
  ∀ r ∈ c.resources, (ofTable r.requests).WellFormed ∧ (ofTable r.limits).WellFormed

theorem rendered_container {c : Container} (formed : c.WellFormed) :
    Rendered (TemplateSet.embedded.renderContainer c) c.json := by
  obtain ⟨mounts, mountsOk, mountsSpell⟩ :=
    rendered_all fun m (_ : m ∈ c.volumeMounts) => rendered_mount m
  obtain ⟨port, portOk, portSpells⟩ := rendered_optional fun p (_ : c.port = some p) => rendered_port p
  obtain ⟨probe, probeOk, probeSpells⟩ :=
    rendered_optional fun p (_ : c.probe = some p) => rendered_probe p
  obtain ⟨preStop, preStopOk, preStopSpells⟩ :=
    rendered_optional fun p (_ : c.preStop = some p) => rendered_preStop p
  obtain ⟨resources, resourcesOk, resourcesSpell⟩ :=
    rendered_optional fun r (set : c.resources = some r) =>
      rendered_resources (formed r set).1 (formed r set).2
  obtain ⟨security, securityOk, securitySpells⟩ :=
    rendered_optional fun s (_ : c.securityContext = some s) => rendered_security s
  have whole : Rendered (TemplateSet.embedded.render .container
      (containerBindings c mounts port probe preStop resources security)) c.json :=
    rendered_of_shows (shows_container c fun name => find_of _ name)
      (spells_container ⟨mountsSpell, portSpells, probeSpells, preStopSpells, resourcesSpell,
        securitySpells⟩)
  rw [TemplateSet.renderContainer, mountsOk, ok_bind, portOk, ok_bind, probeOk, ok_bind, preStopOk,
    ok_bind, resourcesOk, ok_bind, securityOk, ok_bind]
  exact whole

/-- What the template of a pod sees. -/
def podBindings (p : Pod) (containers volumes : List String) : List (String × Json) :=
  [("containers", texts containers)] ++ field? "initContainers" texts p.initContainers ++
    field? "hostAliases" texts p.hostAliases ++
    [("imagePullSecrets", texts p.imagePullSecrets),
      ("terminationGracePeriodSeconds", .integer p.gracePeriod.toNat),
      ("volumes", texts volumes)]

def bracketed (pieces : List (List Char)) : List Char := '[' :: joinWith [',', ' '] pieces ++ [']']

def pullSecretText (name : Json) : List Char :=
  '\x7b' :: label "name" ++ name.write ++ [' ', '\x7d']

/-- The fields that the template of a pod writes. -/
def podPieces (p : Pod) (containers volumes : List String) : List (List Char) :=
  [label "containers" ++ bracketed (containers.map String.toList)] ++
    (p.initContainers.map fun entries =>
      label "initContainers" ++ bracketed (entries.map String.toList)).toList ++
    (p.hostAliases.map fun entries =>
      label "hostAliases" ++ bracketed (entries.map String.toList)).toList ++
    [label "imagePullSecrets" ++ bracketed ((p.imagePullSecrets.map .text).map pullSecretText),
      label "terminationGracePeriodSeconds" ++ (Json.integer p.gracePeriod.toNat).write,
      label "volumes" ++ bracketed (volumes.map String.toList)]

theorem shows_pod {s : Sight} (p : Pod) {containers volumes : List String}
    (found : ∀ name, s.find (.way false 0 [name]) =
      .ok ((podBindings p containers volumes).reverse.lookup name)) :
    Shows s (Fragment.parts .podSpec)
      ('\x7b' :: joinWith [',', ' '] (podPieces p containers volumes) ++ [' ', '\x7d']) := by
  simp only [podBindings, List.reverse_append, reverse_field, List.reverse_cons,
    List.reverse_nil, List.nil_append, List.append_assoc, List.lookup_append, lookup_field,
    Table.lookup_cons_eq, List.lookup_nil] at found
  have bound (name : String) (value : Option Json) (same : _ = value) :
      s.find (.way false 0 [name]) = .ok value := (found name).trans (congrArg _ same)
  have secret : ∀ v ∈ p.imagePullSecrets.map Json.text, ∀ scope : Scope, scope.base = v →
      scope.names = [] → Shows (s.inner scope)
        [.text ('\x7b' :: label "name"), .json ⟨1, 404⟩ [], .text [' ', '\x7d']]
        (pullSecretText v) := by
    rintro _ - scope rfl -
    apply shows_of_eq
    · exact shows_text _ (shows_json _ (find_inner s scope) (shows_text _ shows_nil))
    · simp [pullSecretText]
  rw [Fragment.parts]
  apply shows_of_eq
  · apply shows_text
    apply shows_eachPart _ _ _ (bound "containers" (some (texts containers)) (by simp))
    apply shows_text
    apply shows_optionalParts _ _ _ _
      (bound "initContainers" (p.initContainers.map texts) (by simp))
    apply shows_optionalParts _ _ _ _ (bound "hostAliases" (p.hostAliases.map texts) (by simp))
    apply shows_text
    apply shows_each _ _ _ pullSecretText
      (bound "imagePullSecrets" (some (texts p.imagePullSecrets)) (by simp)) secret
    apply shows_text
    apply shows_json _ (bound "terminationGracePeriodSeconds"
      (some (.integer p.gracePeriod.toNat)) (by simp))
    apply shows_text
    apply shows_eachPart _ _ _ (bound "volumes" (some (texts volumes)) (by simp))
    exact shows_text _ shows_nil
  · simp [podPieces, bracketed, joinWith_comma, flatMap_optional]

theorem spells_entries {entries : List String} (valid : ∀ e ∈ entries, (exactly? e).isSome) :
    SpellAll (entries.map String.toList) (entries.map entryJson) := by
  induction entries with
  | nil => exact .nil
  | cons e rest ih =>
    obtain ⟨v, found⟩ := Option.isSome_iff_exists.mp (valid e (by simp))
    refine .cons ?_ (ih fun e' member => valid e' (by simp [member]))
    rw [entryJson, found]
    exact spells_of_exactly found

theorem spells_secrets (names : List String) :
    SpellAll ((names.map .text).map pullSecretText)
      (names.map fun n => ofFields [("name", .text n)]) := by
  induction names with
  | nil => exact .nil
  | cons n rest ih => exact .cons (spells_single "name" (spells_write (.text n) trivial)) ih

theorem spellsPart_entries {value : Option (List String)}
    (valid : ∀ e ∈ value.getD [], (exactly? e).isSome) :
    SpellsPart (fun entries : List String => bracketed (entries.map String.toList))
      (fun entries => .list (entries.map entryJson)) value value := by
  cases value with
  | none => exact .none
  | some entries => exact .some (spells_list one_space (spells_entries valid))

theorem spells_pod {p : Pod} {containers volumes : List String}
    (inits : ∀ e ∈ p.initContainers.getD [], (exactly? e).isSome)
    (aliases : ∀ e ∈ p.hostAliases.getD [], (exactly? e).isSome)
    (containersSpell : SpellAll (containers.map String.toList) (p.containers.map (·.json)))
    (volumesSpell : SpellAll (volumes.map String.toList) (p.volumes.map (·.json))) :
    Spells ('\x7b' :: joinWith [',', ' '] (podPieces p containers volumes) ++ [' ', '\x7d'])
      p.json := by
  have secrets := spellsField_label "imagePullSecrets"
    (spells_list one_space (spells_secrets p.imagePullSecrets))
  have period := spellsField_write "terminationGracePeriodSeconds"
    (wellFormed_natural (show p.gracePeriod.toNat < 2 ^ 64 by have := p.gracePeriod.toNat_lt; omega))
  have volumes := spellsField_label "volumes" (spells_list one_space volumesSpell)
  apply spells_spaced
  apply spellFields_append _ (.cons secrets (.cons period (.cons volumes .nil)))
  apply spellFields_append _ (spellFields_part "hostAliases" (spellsPart_entries aliases))
  apply spellFields_append _ (spellFields_part "initContainers" (spellsPart_entries inits))
  exact .cons (spellsField_label "containers" (spells_list one_space containersSpell)) .nil

/-- Quantities are well formed, and the entries that go into the manifest as they are hold one JSON
value each. -/
structure Pod.WellFormed (p : Pod) : Prop where
  quantities : ∀ c ∈ p.containers, c.WellFormed
  initContainers : ∀ e ∈ p.initContainers.getD [], (exactly? e).isSome
  hostAliases : ∀ e ∈ p.hostAliases.getD [], (exactly? e).isSome

theorem rendered_pod {p : Pod} (formed : p.WellFormed) :
    Rendered (TemplateSet.embedded.renderPod p) p.json := by
  obtain ⟨containers, containersOk, containersSpell⟩ :=
    rendered_all fun c (member : c ∈ p.containers) => rendered_container (formed.quantities c member)
  obtain ⟨volumes, volumesOk, volumesSpell⟩ :=
    rendered_all fun s (_ : s ∈ p.volumes) => rendered_volume s
  have whole : Rendered (TemplateSet.embedded.render .podSpec (podBindings p containers volumes))
      p.json :=
    rendered_of_shows (shows_pod p fun name => find_of _ name)
      (spells_pod formed.initContainers formed.hostAliases containersSpell volumesSpell)
  rw [TemplateSet.renderPod, containersOk, ok_bind, volumesOk, ok_bind]
  exact whole

end Whole

/-- The embedded templates turn every pod into one JSON document, and a reader of it finds the pod
again, whatever its texts are; the variables of each container ascend by name. -/
theorem Pod.render_reads_back {p : Pod} (formed : p.WellFormed) :
    ∃ text, TemplateSet.embedded.renderPod p = .ok text ∧ exactly? text = some p.json ∧
      ∀ c ∈ p.containers, c.env.keys.Pairwise (· < ·) := by
  obtain ⟨text, rendered, spells⟩ := rendered_pod formed
  have reads := exactly_of_spells spells
  rw [String.ofList_toList] at reads
  exact ⟨text, rendered, reads, fun c _ => List.pairwise_map.mpr c.env.sorted⟩

/-- A pod whose texts look like templates and like JSON. -/
def quotedPod : Pod :=
  { containers :=
      [{ name := "web \"\x7b\x7bname\x7d\x7d\"", image := some "web\\1", port := some 8080,
         command := [], args := ["-c", "\n"], volumeMounts := [⟨"cache", "/cache"⟩],
         probe := some (.tcp 8080), preStop := none, env := Table.ofList [("B", "\""), ("A", "")],
         resources := some ⟨Table.ofList [("cpu", .float ⟨0x3FB999999999999A⟩)], .empty⟩,
         securityContext := some ⟨false⟩ }]
    initContainers := some [" \x7b\"name\": [1, -0.5e3]\x7d ", "null"]
    hostAliases := some []
    imagePullSecrets := ["registry"]
    gracePeriod := 30
    volumes := [.emptyDir "cache" "/cache"] }

theorem quotedPod_wellFormed : quotedPod.WellFormed where
  quantities := by
    intro c member r set
    obtain rfl := List.mem_singleton.mp member
    obtain rfl := Option.some.inj set
    have cpu : (Json.record [("cpu", .float ⟨0x3FB999999999999A⟩)]).WellFormed :=
      ⟨by simp, rfl, trivial⟩
    exact ⟨cpu, List.Pairwise.nil, trivial⟩
  initContainers := by decide +kernel
  hostAliases := by decide +kernel

theorem quotedPod_reads_back : quotedPod.WellFormed ∧
    ∃ text, TemplateSet.embedded.renderPod quotedPod = .ok text ∧
      exactly? text = some quotedPod.json ∧
      ∀ c ∈ quotedPod.containers, c.env.keys.Pairwise (· < ·) :=
  ⟨quotedPod_wellFormed, Pod.render_reads_back quotedPod_wellFormed⟩

end Stevedore
