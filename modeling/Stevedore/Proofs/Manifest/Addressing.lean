import Stevedore.Cluster.Kubectl
import Stevedore.Proofs.Manifest.Reading
import Stevedore.Proofs.Pod.Containers

/-!
How the resources of a service and the command that connects to it find each other: by one name, one
port and one namespace, wherever they are read.
-/
namespace Stevedore

namespace Kubectl

/-- The options that take the next word as their value. -/
def valued : List String := ["--kubeconfig", "--context", "-n", "-l"]

/-- The options with their values, and the words that are neither. -/
def arguments : List String → List (String × String) × List String
  | word :: value :: rest =>
    if word ∈ valued then ((word, value) :: (arguments rest).1, (arguments rest).2)
    else ((arguments (value :: rest)).1, word :: (arguments (value :: rest)).2)
  | rest => ([], rest)

def argument? (words : List String) (flag : String) : Option String :=
  (arguments words.tail).1.lookup flag

def operands (words : List String) : List String := (arguments words.tail).2

section Words
variable {flag word space : String} {k : Kubectl}

theorem arguments_valued (known : flag ∈ valued) (value : String) (rest : List String) :
    arguments (flag :: value :: rest) =
      ((flag, value) :: (arguments rest).1, (arguments rest).2) := by
  rw [arguments, if_pos known]

theorem arguments_plain (plain : word ∉ valued) (rest : List String) :
    arguments (word :: rest) = ((arguments rest).1, word :: (arguments rest).2) := by
  cases rest with
  | nil => rfl
  | cons next rest => rw [arguments, if_neg plain]

theorem arguments_option (known : flag ∈ valued) (value : Option String) (rest : List String) :
    ∃ held : List (String × String), (∀ o ∈ held, o.1 = flag) ∧
      arguments (option flag value ++ rest) = (held ++ (arguments rest).1, (arguments rest).2) := by
  have missing : ∃ held : List (String × String), (∀ o ∈ held, o.1 = flag) ∧
      arguments ([] ++ rest) = (held ++ (arguments rest).1, (arguments rest).2) :=
    ⟨[], by simp, rfl⟩
  unfold option
  cases value with
  | none => exact missing
  | some v =>
    dsimp only
    split
    · exact missing
    · exact ⟨[(flag, v)], by simp, arguments_valued known v rest⟩

theorem lookup_append_of_ne {held : List (String × String)} (other : ∀ o ∈ held, o.1 ≠ flag)
    (rest : List (String × String)) : (held ++ rest).lookup flag = rest.lookup flag := by
  have absent : held.lookup flag = none :=
    List.lookup_eq_none_iff.mpr fun o member => bne_iff_ne.mpr (other o member).symm
  rw [List.lookup_append, absent]
  rfl

/-- What is said about the account takes none of the words behind it. -/
theorem arguments_base (k : Kubectl) (space : String) (words : List String) :
    ∃ account : List (String × String), (∀ o ∈ account, o.1 ≠ "-n" ∧ o.1 ≠ "-l") ∧
      arguments (k.base space ++ words).tail =
        (account ++ ("-n", space) :: (arguments words).1, (arguments words).2) := by
  obtain ⟨configs, config, read⟩ := arguments_option (show "--kubeconfig" ∈ valued by decide)
    k.account.kubeconfig (option "--context" k.account.context ++ "-n" :: space :: words)
  obtain ⟨contexts, context, read'⟩ := arguments_option (show "--context" ∈ valued by decide)
    k.account.context ("-n" :: space :: words)
  rw [read', arguments_valued (by decide)] at read
  refine ⟨configs ++ contexts, ?_, by simpa [base] using read⟩
  intro o held
  rcases List.mem_append.mp held with held | held
  · rw [config o held]
    decide
  · rw [context o held]
    decide

theorem namespace_of_base (k : Kubectl) (space : String) (words : List String) :
    argument? (k.base space ++ words) "-n" = some space := by
  obtain ⟨account, other, read⟩ := arguments_base k space words
  rw [argument?, read, lookup_append_of_ne fun o held => (other o held).1, List.lookup_cons_self]

theorem selector_of_base (k : Kubectl) (space : String) (words : List String) :
    argument? (k.base space ++ words) "-l" = (arguments words).1.lookup "-l" := by
  obtain ⟨account, other, read⟩ := arguments_base k space words
  rw [argument?, read, lookup_append_of_ne fun o held => (other o held).2]
  rfl

theorem operands_of_base (k : Kubectl) (space : String) (words : List String) :
    operands (k.base space ++ words) = (arguments words).2 := by
  obtain ⟨account, -, read⟩ := arguments_base k space words
  rw [operands, read]

theorem lookup_read (k : Kubectl) (space service : String) :
    argument? (k.podLookup space service) "-n" = some space ∧
      argument? (k.podLookup space service) "-l" = some ("cluster=" ++ service) := by
  refine ⟨namespace_of_base k space _, ?_⟩
  rw [podLookup, selector_of_base]
  rfl

theorem connect_read (k : Kubectl) (space : String) {pod : String} (plain : pod ∉ valued)
    (port : Nat) : argument? (k.podConnect space pod port) "-n" = some space ∧
      operands (k.podConnect space pod port) = ["port-forward", pod, toString port] := by
  refine ⟨namespace_of_base k space _, ?_⟩
  rw [podConnect, operands_of_base, arguments_plain (by decide), arguments_plain plain]
  rfl

/-- No command in place of a pod is taken for an option. -/
theorem substitution_plain (command : String) : "$(" ++ command ++ ")" ∉ valued := by
  intro member
  have dash : ∀ word ∈ valued, word.toList.head? = some '-' := by decide
  have first := dash _ member
  simp at first

theorem exactly_port (port : UInt16) :
    Json.exactly? (toString port.toNat) = some (.integer port.toNat) := by
  have same : toString port.toNat = (Json.integer port.toNat).compact := by
    rfl
  rw [same]
  exact exactly_compact (wellFormed_port port)

theorem connect_of_found (k : Kubectl) {service : Service} {resolved : Resolved}
    {settings : Settings} (found : resolved.settingsFor service = .ok settings) :
    k.connect service resolved = .ok (joined (k.podConnect settings.namespaceName
      ("$(" ++ joined (k.podLookup settings.namespaceName service.canonicalName) ++ ")")
      settings.port.toNat)) := by
  rw [Resolved.settingsFor] at found
  split at found
  · next known =>
    obtain rfl := Except.ok.inj found
    rw [connect, known]
  · contradiction

end Words
end Kubectl

/-- Wherever the manifests of a service, the requests for its bundles and the words of the commands
that reach it name its pods, their port or their namespace, they do so alike. -/
structure ServiceManifests.Addressed (m : ServiceManifests) (requests : List BundleRequest)
    (lookup connect : List String) (name space : String) (port : UInt16) : Prop where
  selector : Text.read? [.field "spec", .field "selector", .field "cluster"] m.serviceYaml =
    some (.text name)
  matchLabels : Text.read? [.field "spec", .field "selector", .field "matchLabels",
    .field "cluster"] m.deploymentYaml = some (.text name)
  podLabels : Text.read? [.field "spec", .field "template", .field "metadata", .field "labels",
    .field "cluster"] m.deploymentYaml = some (.text name)
  lookedUp : Kubectl.argument? lookup "-l" = some ("cluster=" ++ name)
  servicePort : Text.read? [.field "spec", .field "ports", .first, .field "port"]
    m.serviceYaml = some (.integer port.toNat)
  targetPort : Text.read? [.field "spec", .field "ports", .first, .field "targetPort"]
    m.serviceYaml = some (.integer port.toNat)
  /-- The first container is the service's own. -/
  primary : Text.read? [.field "spec", .field "template", .field "spec", .field "containers",
    .first, .field "name"] m.deploymentYaml = some (.text name)
  containerPort : Text.read? [.field "spec", .field "template", .field "spec",
    .field "containers", .first, .field "ports", .first, .field "containerPort"]
    m.deploymentYaml = some (.integer port.toNat)
  forwarded : ∃ number, Kubectl.operands connect =
      ["port-forward", "$(" ++ Kubectl.joined lookup ++ ")", number] ∧
    Json.exactly? number = some (.integer port.toNat)
  created : Text.read? [.field "metadata", .field "name"] m.namespaceYaml = some (.text space)
  serviceSpace : Text.read? [.field "metadata", .field "namespace"] m.serviceYaml =
    some (.text space)
  deploymentSpace : Text.read? [.field "metadata", .field "namespace"] m.deploymentYaml =
    some (.text space)
  requested : ∀ r ∈ requests, r.namespaceName = space
  lookupSpace : Kubectl.argument? lookup "-n" = some space
  connectSpace : Kubectl.argument? connect "-n" = some space

namespace Assembler
variable {σ : Type}

/-- Whatever the names, the port and the namespace are, the resources of an assembled service and the
command that connects to it address each other. -/
theorem addresses_agree (a : Assembler σ) (k : Kubectl) (service : Service)
    (deployment : Deployment) (resolved : Resolved) (s s' : σ) (m : ServiceManifests)
    (embedded : a.templates = .embedded)
    (ok : (a.assemble service deployment resolved).outcome s = (.ok m, s')) :
    ∃ settings requests, resolved.settingsFor service = .ok settings ∧
      (a.observed.assemble service deployment resolved).outcome (s, []) =
        (.ok m, (s', requests)) ∧
      let lookup := k.podLookup settings.namespaceName service.canonicalName
      let connect := k.podConnect settings.namespaceName ("$(" ++ Kubectl.joined lookup ++ ")")
        settings.port.toNat
      k.connect service resolved = .ok (Kubectl.joined connect) ∧
      m.Addressed requests lookup connect service.canonicalName settings.namespaceName
        settings.port := by
  obtain ⟨merged, settings, found, -, watched⟩ := asked_of_assembly ok
  obtain ⟨settings', staged, pod, podText, found', made, podOk, ns, svc, deployed⟩ :=
    rendered_of_assembly embedded ok
  obtain rfl := Except.ok.inj (found.symm.trans found')
  obtain ⟨flat, closed⟩ := flat_pod (flatEntries_podOf made) podOk
  obtain ⟨attached, -, containers⟩ := containers_podOf made
  have name := leads_primary containers (fun _ shown => (leads_container rfl shown).1) podOk
  have port := leads_primary containers (fun _ shown => (leads_container rfl shown).2) podOk
  obtain ⟨serviceSpace, selector, servicePort, targetPort⟩ := read_service svc
  obtain ⟨deploymentSpace, matchLabels, podLabels, primary⟩ :=
    read_deployment flat closed name deployed
  obtain ⟨-, -, -, containerPort⟩ := read_deployment flat closed port deployed
  obtain ⟨lookupSpace, lookedUp⟩ := k.lookup_read settings.namespaceName service.canonicalName
  obtain ⟨connectSpace, operands⟩ := k.connect_read settings.namespaceName
    (Kubectl.substitution_plain (Kubectl.joined
      (k.podLookup settings.namespaceName service.canonicalName))) settings.port.toNat
  refine ⟨settings, _, found, watched, ?_, ?_⟩
  · exact k.connect_of_found found
  · exact {
      selector, matchLabels, podLabels, lookedUp, servicePort, targetPort, primary, containerPort
      forwarded := ⟨_, operands, Kubectl.exactly_port settings.port⟩
      created := read_namespace ns
      serviceSpace, deploymentSpace
      requested := by
        intro r member
        obtain ⟨g, -, rfl⟩ := List.mem_map.mp member
        rfl
      lookupSpace, connectSpace }

end Assembler

def sharingKubectl : Kubectl := ⟨"kubectl", { Account.empty with context := some "-n" }⟩

theorem sharing_addresses_agree :
    sharingAssembler.templates = .embedded ∧
    ∃ m seen, (sharingAssembler.assemble webEntry.subject sharingPlan.deployment
        sharingPlan.resolved).outcome [] = (.ok m, seen) ∧
      ∃ requests, requests.length = 2 ∧
        (sharingAssembler.observed.assemble webEntry.subject sharingPlan.deployment
          sharingPlan.resolved).outcome ([], []) = (.ok m, (seen, requests)) ∧
        let lookup := sharingKubectl.podLookup "default" "web"
        let connect := sharingKubectl.podConnect "default" ("$(" ++ Kubectl.joined lookup ++ ")") 8080
        sharingKubectl.connect webEntry.subject sharingPlan.resolved =
          .ok (Kubectl.joined connect) ∧
        m.Addressed requests lookup connect "web" "default" 8080 := by
  obtain ⟨m, seen, ok⟩ := sharing_assembled
  obtain ⟨settings, requests, found, watched, line, addressed⟩ := Assembler.addresses_agree
    sharingAssembler sharingKubectl webEntry.subject sharingPlan.deployment sharingPlan.resolved []
    seen m rfl ok
  obtain rfl : completed "web" 8080 = settings := Except.ok.inj found
  obtain ⟨merged, _, merging, asked⟩ := Assembler.requests_of_assembly ok
  have both : Table.ofList [("shared.yml", profileAt "shared.yml" "/monitor/shared.yml"),
      ("web.yml", profileAt "web.yml" "/web/web.yml")] = merged := Except.ok.inj merging
  have same := congrArg (·.2.2.length) (watched.symm.trans asked)
  have two : requests.length = 2 := by
    rw [← both, List.length_map] at same
    exact same.trans (by decide +kernel)
  exact ⟨rfl, m, seen, ok, requests, two, watched, line, addressed⟩

end Stevedore
