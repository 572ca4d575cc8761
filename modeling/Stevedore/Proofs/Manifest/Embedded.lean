import Stevedore.Proofs.Template.Showing
import Stevedore.Template.Set

/-! The embedded templates of the fragments, read once and for all. -/
namespace Stevedore.Manifest.Fragment
open Template

/-- A quoted name, a colon and a space. -/
def label (name : String) : List Char := Json.writeText name ++ [':', ' ']

/-- A section for a value that is written as JSON. -/
def optionalJson (start stop : Nat) (name : String) : Element :=
  .optional ⟨1, stop⟩ name [.text (',' :: ' ' :: label name), .json ⟨1, start⟩ [name]]

/-- A section for a part that was rendered before. -/
def optionalPart (start stop : Nat) (name : String) : Element :=
  .optional ⟨1, stop⟩ name [.text (',' :: ' ' :: label name), .inline ⟨1, start⟩ name [name]]

/-- A section for a list of one part that was rendered before. -/
def optionalSingle (start stop : Nat) (key name : String) : Element :=
  .optional ⟨1, stop⟩ name
    [.text (',' :: ' ' :: label key ++ ['[']), .inline ⟨1, start⟩ name [name], .text [']']]

/-- Parts that were rendered before, with commas. -/
def eachPart (start inner stop : Nat) (name : String) : Element :=
  .each ⟨1, stop⟩ ⟨1, inner⟩ name [.inline ⟨1, start⟩ "this" []]

/-- A section for a list of parts that were rendered before. -/
def optionalParts (start inner last stop : Nat) (name : String) : Element :=
  .optional ⟨1, stop⟩ name
    [.text (',' :: ' ' :: label name ++ ['[']), eachPart start inner last name, .text [']']]

/-- The elements of each embedded template. -/
def parts : Fragment → List Element
  | .namespaceManifest =>
    [.text "apiVersion: v1\nkind: Namespace\nmetadata:\n  name: ".toList,
      .json ⟨4, 9⟩ ["namespace"]]
  | .serviceManifest =>
    [.text "apiVersion: v1\nkind: Service\nmetadata:\n  name: ".toList, .json ⟨4, 9⟩ ["name"],
      .text "\n  namespace: ".toList, .json ⟨5, 14⟩ ["namespace"],
      .text ("\n  labels: ".toList ++ '\x7b' :: label "app"), .json ⟨6, 19⟩ ["name"],
      .text (',' :: ' ' :: label "cluster"), .json ⟨6, 45⟩ ["name"],
      .text (',' :: ' ' :: label "app.kubernetes.io/managed-by" ++ Json.writeText "fleetyard" ++
        "\x7d\nspec:\n  selector: ".toList ++ '\x7b' :: label "cluster"),
      .json ⟨8, 25⟩ ["name"],
      .text (" \x7d\n  ports: [".toList ++ '\x7b' :: label "protocol" ++ Json.writeText "TCP" ++
        ',' :: ' ' :: label "port"),
      .json ⟨9, 39⟩ ["port"], .text (',' :: ' ' :: label "targetPort"), .json ⟨9, 68⟩ ["port"],
      .text " \x7d]\n  type: ClusterIP".toList]
  | .deploymentManifest =>
    [.text "apiVersion: apps/v1\nkind: Deployment\nmetadata:\n  name: ".toList,
      .json ⟨4, 9⟩ ["name"], .text "\n  namespace: ".toList, .json ⟨5, 14⟩ ["namespace"],
      .text ("\n  labels: ".toList ++ '\x7b' :: label "app"), .json ⟨6, 19⟩ ["name"],
      .text (',' :: ' ' :: label "cluster"), .json ⟨6, 45⟩ ["name"],
      .text (',' :: ' ' :: label "app.kubernetes.io/name"), .json ⟨6, 86⟩ ["name"],
      .text (',' :: ' ' :: label "app.kubernetes.io/version"), .json ⟨6, 130⟩ ["version"],
      .text (',' :: ' ' :: label "app.kubernetes.io/managed-by" ++ Json.writeText "fleetyard" ++
        "\x7d\nspec:\n  replicas: ".toList),
      .json ⟨8, 13⟩ ["replicas"],
      .text ("\n  selector:\n    matchLabels: ".toList ++ '\x7b' :: label "cluster"),
      .json ⟨10, 30⟩ ["name"],
      .text " \x7d\n  template:\n    metadata:\n      annotations: ".toList,
      .json ⟨13, 20⟩ ["podAnnotations"],
      .text ("\n      labels: ".toList ++ '\x7b' :: label "app"), .json ⟨14, 23⟩ ["name"],
      .text (',' :: ' ' :: label "cluster"), .json ⟨14, 49⟩ ["name"],
      .text (',' :: ' ' :: label "app.kubernetes.io/name"), .json ⟨14, 90⟩ ["name"],
      .text (',' :: ' ' :: label "app.kubernetes.io/version"), .json ⟨14, 134⟩ ["version"],
      .text (',' :: ' ' :: label "app.kubernetes.io/managed-by" ++ Json.writeText "fleetyard" ++
        "\x7d\n    spec: ".toList),
      .inline ⟨15, 11⟩ "podSpec" ["podSpec"]]
  | .podSpec =>
    [.text ('\x7b' :: label "containers" ++ ['[']), eachPart 37 66 77 "containers", .text [']'],
      optionalParts 164 193 204 214 "initContainers", optionalParts 289 318 329 339 "hostAliases",
      .text (',' :: ' ' :: label "imagePullSecrets" ++ ['[']),
      .each ⟨1, 449⟩ ⟨1, 438⟩ "imagePullSecrets"
        [.text ('\x7b' :: label "name"), .json ⟨1, 404⟩ [], .text [' ', '\x7d']],
      .text (']' :: ',' :: ' ' :: label "terminationGracePeriodSeconds"),
      .json ⟨1, 494⟩ ["terminationGracePeriodSeconds"],
      .text (',' :: ' ' :: label "volumes" ++ ['[']), eachPart 563 592 603 "volumes",
      .text [']', ' ', '\x7d']]
  | .container =>
    [.text ('\x7b' :: label "name"), .json ⟨1, 10⟩ ["name"], optionalJson 57 71 "image",
      optionalJson 116 132 "command", optionalJson 171 184 "args",
      optionalSingle 225 236 "ports" "port",
      .text (',' :: ' ' :: label "volumeMounts" ++ ['[']), eachPart 284 313 324 "volumeMounts",
      .text (']' :: ',' :: ' ' :: label "env"), .json ⟨1, 343⟩ ["env"],
      optionalPart 407 427 "readinessProbe", optionalPart 476 491 "lifecycle",
      optionalPart 540 555 "resources", optionalPart 616 637 "securityContext", .text [' ', '\x7d']]
  | .port => [.text ('\x7b' :: label "containerPort"), .json ⟨1, 19⟩ ["port"], .text [' ', '\x7d']]
  | .volumeMount =>
    [.text ('\x7b' :: label "name"), .json ⟨1, 10⟩ ["name"],
      .text (',' :: ' ' :: label "mountPath"), .json ⟨1, 38⟩ ["mountPath"], .text [' ', '\x7d']]
  | .secretVolume =>
    [.text ('\x7b' :: label "name"), .json ⟨1, 10⟩ ["name"],
      .text (',' :: ' ' :: label "secret" ++ '\x7b' :: label "secretName"), .json ⟨1, 50⟩ ["name"],
      .text [' ', '\x7d', ' ', '\x7d']]
  | .emptyDirVolume =>
    [.text ('\x7b' :: label "name"), .json ⟨1, 10⟩ ["name"],
      .text (',' :: ' ' :: label "emptyDir" ++ ['\x7b', '\x7d', ' ', '\x7d'])]
  | .configMapVolume =>
    [.text ('\x7b' :: label "name"), .json ⟨1, 10⟩ ["name"],
      .text (',' :: ' ' :: label "configMap" ++ '\x7b' :: label "name"), .json ⟨1, 47⟩ ["name"],
      .text [' ', '\x7d', ' ', '\x7d']]
  | .execProbe =>
    [.text ('\x7b' :: label "exec" ++ '\x7b' :: label "command"), .json ⟨1, 22⟩ ["command"],
      .text [' ', '\x7d', ' ', '\x7d']]
  | .tcpProbe =>
    [.text ('\x7b' :: label "tcpSocket" ++ '\x7b' :: label "port"), .json ⟨1, 24⟩ ["port"],
      .text [' ', '\x7d', ' ', '\x7d']]
  | .lifecycle =>
    [.text ('\x7b' :: label "preStop" ++ '\x7b' :: label "exec" ++ '\x7b' :: label "command"),
      .json ⟨1, 34⟩ ["command"], .text [' ', '\x7d', ' ', '\x7d', ' ', '\x7d']]
  | .resources =>
    [.text ('\x7b' :: label "requests"), .json ⟨1, 14⟩ ["requests"],
      .text (',' :: ' ' :: label "limits"), .json ⟨1, 43⟩ ["limits"], .text [' ', '\x7d']]
  | .securityContext =>
    [.text ('\x7b' :: label "privileged"), .json ⟨1, 16⟩ ["privileged"], .text [' ', '\x7d']]

set_option maxRecDepth 20000 in
theorem parse_source (f : Fragment) : TemplateSet.parse? f.source = some f.parts := by
  cases f
  all_goals
    simp only [source, pieces, List.flatMap_cons, List.flatMap_nil, String.reduceToList]
    rfl

end Stevedore.Manifest.Fragment

namespace Stevedore.TemplateSet
open Manifest

theorem lookup_map_self {α β : Type} [BEq α] [LawfulBEq α] (f : α → β) {items : List α} {a : α}
    (member : a ∈ items) : (items.map fun x => (x, f x)).lookup a = some (f a) := by
  induction items with
  | nil => contradiction
  | cons b rest ih =>
    rw [List.map_cons, List.lookup_cons]
    split
    · rename_i same
      rw [eq_of_beq same]
    · rename_i different
      rcases List.mem_cons.mp member with rfl | later
      · simp at different
      · exact ih later

theorem elements_embedded (f : Fragment) : embedded.elements f = f.parts := by
  have member : f ∈ Fragment.all := by cases f <;> decide
  rw [elements, embedded, lookup_map_self _ member, Fragment.parse_source]
  rfl

end Stevedore.TemplateSet
