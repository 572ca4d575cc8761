import Stevedore.Proofs.Pod.Containers
import Stevedore.Proofs.Pod.Mounts
import Stevedore.Proofs.Secrets

/-!
Assemblies one after another on one store of secrets. What a pod refers to was recorded for its own
service, no later service takes it away, and all that is recorded for a service is mounted by it.
-/
namespace Stevedore

namespace SecretStore

theorem get?_keep_of_mem {log : List Secret} {name : String} (held : name ∈ log.map (·.name)) :
    ∃ b ∈ log, b.name = name ∧ (keep .empty log).get? name = some b := by
  induction log using List.reverseRecOn with
  | nil => contradiction
  | append_singleton log last ih =>
    rw [get?_keep_snoc]
    split
    · next same => exact ⟨last, by simp, same.symm, rfl⟩
    · next different =>
      rw [List.map_append, List.mem_append] at held
      rcases held with before | now
      · obtain ⟨b, member, named, found⟩ := ih before
        exact ⟨b, List.mem_append_left _ member, named, found⟩
      · exact absurd (List.mem_singleton.mp now) different

structure Of (service : Service) (namespaceName : String) (b : Secret) : Prop where
  service : b.service = service.canonicalName
  namespaceName : b.namespaceName = namespaceName
  owned : Owned b

end SecretStore

namespace Staging
variable {tree : File.Tree} {account : Account} {service : Service} {namespaceName : String}

theorem of_made {g : StagingGroup} {b : Secret}
    (ok : SecretStore.made tree (request account service namespaceName g) = .ok b) :
    SecretStore.Of service namespaceName b := by
  obtain ⟨mine, owned⟩ := SecretStore.owned_of_made rfl rfl ok
  obtain ⟨files, rfl⟩ := SecretStore.secret_of_made ok
  exact ⟨mine, rfl, owned⟩

theorem outcome_stageGroup (g : StagingGroup) (state : SecretState) :
    (stageGroup (.secrets tree) account service namespaceName g).outcome state =
      match SecretStore.made tree (request account service namespaceName g) with
      | .ok b => (.ok (.secret b.name g.mountPath g.env), SecretStore.keep state [b])
      | .error fault => (.error (.store fault), state) := by
  rw [stageGroup, Activity.outcome_bind, outcome_create, BundleStore.secrets]
  simp only [SecretStore.create_eq state, SecretStore.answer, SecretStore.written]
  cases SecretStore.made tree (request account service namespaceName g) with
  | error fault => rfl
  | ok b => rfl

theorem stageGroup_secrets_ok {g : StagingGroup} {v : ConfigSource} {state state' : SecretState} :
    (stageGroup (.secrets tree) account service namespaceName g).outcome state = (.ok v, state') ↔
      ∃ b, SecretStore.made tree (request account service namespaceName g) = .ok b ∧
        v = .secret b.name g.mountPath g.env ∧ state' = SecretStore.keep state [b] := by
  rw [outcome_stageGroup]
  cases SecretStore.made tree (request account service namespaceName g) with
  | error fault => simp
  | ok b => simp [@eq_comm _ v, @eq_comm _ state']

/-- Staging with a store of secrets records one secret for each group, and the sources have their
names. -/
theorem stageGroups_secrets {gs : List StagingGroup} {staged : List ConfigSource}
    {state state' : SecretState}
    (ok : (gs.mapM (stageGroup (.secrets tree) account service namespaceName) :
      Activity SecretState _).outcome state = (.ok staged, state')) :
    ∃ log, List.Forall₂ (fun g b =>
        SecretStore.made tree (request account service namespaceName g) = .ok b) gs log ∧
      state' = SecretStore.keep state log ∧ staged.map (·.id) = log.map (·.name) := by
  induction gs generalizing state staged with
  | nil =>
    cases ok
    exact ⟨[], .nil, rfl, rfl⟩
  | cons g rest ih =>
    obtain ⟨v, t, others, first, later, rfl⟩ := Activity.outcome_mapM_cons_ok.mp ok
    -- what the rest keeps comes after the secret of this group
    obtain ⟨b, made, rfl, rfl⟩ := stageGroup_secrets_ok.mp first
    obtain ⟨log, related, rfl, names⟩ := ih later
    refine ⟨b :: log, .cons made related, (SecretStore.keep_append state [b] log).symm, ?_⟩
    rw [List.map_cons, List.map_cons, names]
    rfl

theorem stage_secrets {sidecars : List SidecarService} {resolved : Resolved} {stagingPath : Path}
    {staged : List ConfigSource} {state state' : SecretState}
    (ok : (stage (.secrets tree) account service sidecars resolved stagingPath
      namespaceName).outcome state = (.ok staged, state')) :
    ∃ log, state' = SecretStore.keep state log ∧ staged.map (·.id) = log.map (·.name) ∧
      ∀ b ∈ log, SecretStore.Of service namespaceName b := by
  obtain ⟨merged, -, staging⟩ := Activity.outcome_lift_bind_ok.mp ok
  obtain ⟨log, related, kept, names⟩ := stageGroups_secrets staging
  refine ⟨log, kept, names, fun b member => ?_⟩
  obtain ⟨g, -, made⟩ := exists_of_forall₂ related member
  exact of_made made

def Readable (tree : File.Tree) (files : List MountPair) : Prop :=
  files ≠ [] ∧ ∀ p ∈ files, (tree.read p.source).isOk

instance (tree : File.Tree) (files : List MountPair) : Decidable (Readable tree files) :=
  inferInstanceAs (Decidable (_ ∧ _))

theorem made_of_readable {r : BundleRequest} (readable : Readable tree r.files) :
    ∃ b, SecretStore.made tree r = .ok b := by
  have each : ∀ p ∈ r.files, ∃ file, SecretStore.readOne tree p = .ok file := by
    intro p member
    have isOk := readable.2 p member
    rw [SecretStore.readOne]
    cases found : tree.read p.source with
    | error fault => simp [found, Except.isOk, Except.toBool] at isOk
    | ok bytes => exact ⟨_, rfl⟩
  obtain ⟨files, read⟩ := exists_except_mapM each
  refine ⟨SecretStore.secret r files, ?_⟩
  rw [SecretStore.made, if_neg (by simpa using readable.1), read]
  rfl

/-- Nothing but an unreadable file keeps groups that hold files from being staged. -/
theorem stageGroups_of_readable {gs : List StagingGroup}
    (readable : ∀ g ∈ gs, Readable tree g.files) (state : SecretState) :
    ∃ staged state', (gs.mapM (stageGroup (.secrets tree) account service namespaceName) :
      Activity SecretState _).outcome state = (.ok staged, state') := by
  induction gs generalizing state with
  | nil => exact ⟨[], state, rfl⟩
  | cons g rest ih =>
    obtain ⟨first, others⟩ := List.forall_mem_cons.mp readable
    obtain ⟨b, made⟩ := made_of_readable (r := request account service namespaceName g) first
    obtain ⟨staged, state', later⟩ := ih others (SecretStore.keep state [b])
    refine ⟨.secret b.name g.mountPath g.env :: staged, state', ?_⟩
    exact Activity.outcome_mapM_cons_ok.mpr
      ⟨_, _, staged, stageGroup_secrets_ok.mpr ⟨b, made, rfl, rfl⟩, later, rfl⟩

end Staging

namespace Assembler
variable {staged : List ConfigSource} {settings : Settings} {custom : List CustomSidecar}

theorem kind_scratch {v : ConfigSource} (member : v ∈ scratchVolumes custom) :
    v.kind = .emptyDir := by
  obtain ⟨s, -, made⟩ := List.mem_filterMap.mp member
  obtain ⟨path, -, rfl⟩ := Option.map_eq_some_iff.mp made
  rfl

theorem kind_configMap {v : ConfigSource} (member : v ∈ configMapVolumes custom) :
    v.kind = .configMap := by
  obtain ⟨s, -, inside⟩ := List.mem_flatMap.mp member
  obtain ⟨m, -, rfl⟩ := List.mem_map.mp inside
  rfl

theorem volumes_podOf {service : Service} {deployment : Deployment} {resolved : Resolved}
    {sidecars : List SidecarService} {pod : Pod}
    (made : podOf service settings deployment resolved sidecars staged = .ok pod) :
    let custom := deployment.environment.sidecarsFor service.serviceType
    pod.volumes = podVolumes (podSources staged custom) settings custom := by
  obtain ⟨attached, -, same⟩ := except_bind_ok.mp made
  obtain rfl := Except.ok.inj same
  rfl

theorem secret_volume {v : ConfigSource}
    (member : v ∈ podVolumes (podSources staged custom) settings custom) (kind : v.kind = .secret) :
    v ∈ staged ∨ v ∈ settings.extras.volumes := by
  rcases UniqueSources.mem_of_mem_extend member with earlier | map
  · rcases UniqueSources.mem_of_mem_extend earlier with source | extra
    · have offered := UniqueSources.mem_of_mem_ofList (UniqueSources.mem_of_mem_ofList source)
      rcases List.mem_append.mp offered with here | scratch
      · exact .inl here
      · rw [kind_scratch scratch] at kind
        contradiction
    · exact .inr extra
  · rw [kind_configMap map] at kind
    contradiction

/-- Leaving out repetitions keeps what a search for an id finds. -/
theorem find?_podVolumes (staged : List ConfigSource) (settings : Settings)
    (custom : List CustomSidecar) (id : String) :
    (podVolumes (podSources staged custom) settings custom).find? (·.id = id) =
      (offered staged settings custom).find? (·.id = id) := by
  have coherent := UniqueSources.ofList_coherent (podSources staged custom)
  have extended := UniqueSources.extend_coherent coherent settings.extras.volumes
  have sources := UniqueSources.find?_ofList (staged ++ scratchVolumes custom) id
  have whole := UniqueSources.find?_ofList (podSources staged custom) id
  rw [podVolumes, UniqueSources.find?_extend extended, List.find?_append,
    UniqueSources.find?_extend coherent, List.find?_append, whole, podSources, sources,
    ← List.find?_append, ← List.find?_append, offered]

/-- What was staged comes first, so that nothing else stands under its ids. -/
theorem staged_volume (secrets : ∀ v ∈ staged, v.kind = .secret) {id : String}
    (held : id ∈ staged.map (·.id)) :
    ∃ v ∈ podVolumes (podSources staged custom) settings custom, v.kind = .secret ∧ v.id = id := by
  obtain ⟨v, found⟩ := ConfigSource.exists_find? held
  have first : (podVolumes (podSources staged custom) settings custom).find? (·.id = id) =
      some v := by
    rw [find?_podVolumes, offered, List.append_assoc, List.append_assoc, List.find?_append, found,
      Option.some_or]
  exact ⟨v, List.mem_of_find?_eq_some first, secrets v (List.mem_of_find?_eq_some found),
    ConfigSource.id_of_find? found⟩

end Assembler

/-- An assembly with all that it reads but the store: templates, rules and files of its own. -/
structure Commission where
  templates : TemplateSet
  rules : List SidecarRule
  tree : File.Tree
  service : Service
  deployment : Deployment
  resolved : Resolved

/-- The secrets of a pod and those recorded for its service refer to each other: what the pod takes
from a secret without declaring the volume was recorded in its namespace, and what was recorded is a
volume that the first container mounts. -/
structure Pod.ClosedUnder (p : Pod) (declared : List ConfigSource) (namespaceName : String)
    (secrets : List Secret) : Prop where
  emitted : ∀ v ∈ p.volumes, v.kind = .secret → v.id ∉ declared.map (·.id) →
    ∃ b ∈ secrets, b.name = v.id ∧ b.namespaceName = namespaceName
  referenced : ∀ b ∈ secrets, (∃ v ∈ p.volumes, v.kind = .secret ∧ v.id = b.name) ∧
    ∃ primary ∈ p.containers.head?, b.name ∈ primary.volumeMounts.map (·.name)

namespace Commission

def assembler (x : Commission) : Assembler SecretState := ⟨x.templates, .secrets x.tree, x.rules⟩

def run (x : Commission) : Activity SecretState ServiceManifests :=
  x.assembler.assemble x.service x.deployment x.resolved

/-- What the assembly of a commission leaves: its deployment, and secrets of its own with the names
of the sources that were staged. -/
theorem run_ok {x : Commission} {state state' : SecretState} {manifests : ServiceManifests}
    (ok : x.run.outcome state = (.ok manifests, state')) :
    ∃ settings staged pod log,
      x.assembler.Deployed x.service x.deployment x.resolved state settings staged pod
        manifests.deploymentYaml state' ∧
      manifests.namespaceName = settings.namespaceName ∧ state' = SecretStore.keep state log ∧
      staged.map (·.id) = log.map (·.name) ∧
      ∀ b ∈ log, SecretStore.Of x.service settings.namespaceName b := by
  obtain ⟨settings, found, names⟩ := Assembler.settings_of_assembly ok
  obtain ⟨settings', staged, pod, made⟩ :=
    Assembler.deployed_of_ok (Assembler.deployment_of_assembly ok)
  obtain rfl := Except.ok.inj (made.found.symm.trans found)
  obtain ⟨log, kept, ids, own⟩ := Staging.stage_secrets made.staging
  exact ⟨settings', staged, pod, log, made, names, kept, ids, own⟩

theorem runs_ok {xs : List Commission} {state state' : SecretState}
    {results : List ServiceManifests} (ok : (xs.mapM run).outcome state = (.ok results, state')) :
    ∃ log, state' = SecretStore.keep state log ∧
      ∀ b ∈ log, SecretStore.Owned b ∧ b.service ∈ xs.map (·.service.canonicalName) := by
  induction xs generalizing state results with
  | nil =>
    cases ok
    exact ⟨[], rfl, by simp⟩
  | cons x rest ih =>
    obtain ⟨manifests, t, others, first, later, -⟩ := Activity.outcome_mapM_cons_ok.mp ok
    obtain ⟨settings, staged, pod, log, -, -, rfl, -, own⟩ := run_ok first
    obtain ⟨log', rfl, known⟩ := ih later
    refine ⟨log ++ log', (SecretStore.keep_append _ _ _).symm, fun b member => ?_⟩
    rw [List.map_cons, List.mem_cons]
    rcases List.mem_append.mp member with here | there
    · exact ⟨(own b here).owned, .inl (own b here).service⟩
    · exact ⟨(known b there).1, .inr (known b there).2⟩

theorem service_of_run {xs : List Commission} {secrets : SecretState}
    {results : List ServiceManifests} (ok : (xs.mapM run).outcome .empty = (.ok results, secrets)) :
    ∀ b ∈ secrets.values, b.service ∈ xs.map (·.service.canonicalName) := by
  obtain ⟨log, rfl, known⟩ := runs_ok ok
  intro b member
  exact (known b (SecretStore.mem_of_mem_keep member)).2

theorem closed_of_deployed {x : Commission} {state state' : SecretState} {settings : Settings}
    {staged : List ConfigSource} {pod : Pod} {text : String} {log : List Secret}
    (made : x.assembler.Deployed x.service x.deployment x.resolved state settings staged pod text
      state')
    (ids : staged.map (·.id) = log.map (·.name))
    (own : ∀ b ∈ log, SecretStore.Of x.service settings.namespaceName b) :
    pod.ClosedUnder settings.extras.volumes settings.namespaceName
      (SecretStore.keep .empty log).values := by
  obtain ⟨merged, -, staging⟩ := Activity.outcome_lift_bind_ok.mp made.staging
  have secrets := Staging.kind_sources (Staging.stageGroups_sources staging)
  obtain ⟨attached, -, containers⟩ := Assembler.containers_podOf made.made
  have volumes := Assembler.volumes_podOf made.made
  constructor
  · intro v member kind undeclared
    rw [volumes] at member
    rcases Assembler.secret_volume member kind with here | extra
    · have named : v.id ∈ log.map (·.name) := ids ▸ List.mem_map_of_mem here
      obtain ⟨b, held, name, found⟩ := SecretStore.get?_keep_of_mem named
      exact ⟨b, Table.mem_values_iff.mpr ⟨v.id, found⟩, name, (own b held).namespaceName⟩
    · exact absurd (List.mem_map_of_mem extra) undeclared
  · intro b member
    have held : b.name ∈ staged.map (·.id) :=
      ids ▸ List.mem_map_of_mem (SecretStore.mem_of_mem_keep member)
    rw [volumes, containers]
    refine ⟨Assembler.staged_volume secrets held, _, rfl, ?_⟩
    rw [Assembler.name_of_service_mount, Assembler.mem_ids_podSources, List.map_append,
      List.mem_append]
    exact .inl (.inl held)

theorem secretsFor_between {before after : List Commission} {x : Commission}
    {namespaceName : String} {earlier log later : List Secret}
    (distinct : ((before ++ x :: after).map (·.service.canonicalName)).Nodup)
    (knownBefore : ∀ b ∈ earlier,
      SecretStore.Owned b ∧ b.service ∈ before.map (·.service.canonicalName))
    (own : ∀ b ∈ log, SecretStore.Of x.service namespaceName b)
    (knownAfter : ∀ b ∈ later,
      SecretStore.Owned b ∧ b.service ∈ after.map (·.service.canonicalName)) :
    SecretStore.secretsFor (SecretStore.keep .empty (earlier ++ (log ++ later)))
      x.service.canonicalName = (SecretStore.keep .empty log).values := by
  rw [List.map_append, List.map_cons, List.nodup_middle, List.nodup_cons, List.mem_append,
    not_or] at distinct
  obtain ⟨⟨notBefore, notAfter⟩, -⟩ := distinct
  have owned : ∀ b ∈ earlier ++ (log ++ later), SecretStore.Owned b := by
    simp only [List.forall_mem_append]
    exact ⟨fun b member => (knownBefore b member).1, fun b member => (own b member).owned,
      fun b member => (knownAfter b member).1⟩
  have first : ∀ b ∈ earlier, b.service ≠ x.service.canonicalName := fun b member same =>
    notBefore (same ▸ (knownBefore b member).2)
  have last : ∀ b ∈ later, b.service ≠ x.service.canonicalName := fun b member same =>
    notAfter (same ▸ (knownAfter b member).2)
  rw [SecretStore.secretsFor_keep owned, List.filter_append, List.filter_append,
    SecretStore.filter_other first, SecretStore.filter_own fun b member => (own b member).service,
    SecretStore.filter_other last, List.append_nil, List.nil_append]

/-- Services with names of their own are assembled one after another on one store. Whatever was
kept before and whatever is kept later, the pod of each refers to what was recorded for it, and all
that was recorded for it is mounted by it; nothing is recorded for any other service. -/
theorem secret_references_closed (before after : List Commission) (x : Commission)
    (results : List ServiceManifests) (secrets : SecretState)
    (distinct : ((before ++ x :: after).map (·.service.canonicalName)).Nodup)
    (ok : ((before ++ x :: after).mapM run).outcome .empty = (.ok results, secrets)) :
    (∀ b ∈ secrets.values, b.service ∈ (before ++ x :: after).map (·.service.canonicalName)) ∧
    ∃ earlier manifests later state state' settings staged pod,
      results = earlier ++ manifests :: later ∧ earlier.length = before.length ∧
      x.run.outcome state = (.ok manifests, state') ∧
      x.assembler.Deployed x.service x.deployment x.resolved state settings staged pod
        manifests.deploymentYaml state' ∧
      pod.containers.head?.map (·.name) = some x.service.canonicalName ∧
      pod.ClosedUnder settings.extras.volumes manifests.namespaceName
        (SecretStore.secretsFor secrets x.service.canonicalName) := by
  refine ⟨service_of_run ok, ?_⟩
  obtain ⟨earlier, state, manifests, state', later, led, here, left, rfl⟩ :=
    Activity.outcome_mapM_split ok
  obtain ⟨settings, staged, pod, log, made, namespaceName, rfl, ids, own⟩ := run_ok here
  obtain ⟨logBefore, rfl, knownBefore⟩ := runs_ok led
  obtain ⟨logAfter, rfl, knownAfter⟩ := runs_ok left
  refine ⟨earlier, manifests, later, _, _, settings, staged, pod, rfl, ?_, here, made, ?_, ?_⟩
  · have related := Activity.forall₂_of_mapM (R := fun _ _ => True)
      (fun _ _ _ _ _ => trivial) led
    exact related.length_eq.symm
  · obtain ⟨attached, -, containers⟩ := Assembler.containers_podOf made.made
    rw [containers]
    rfl
  · rw [namespaceName, ← SecretStore.keep_append, ← SecretStore.keep_append,
      secretsFor_between distinct knownBefore own knownAfter]
    exact closed_of_deployed made ids own

end Commission

section Certificates

def apiService : Service := .named "web-files" "api" "api"

/-- The pod takes a secret that is not the store's, and says so. -/
def apiSettings : Settings :=
  { Settings.listening 8081 with
    extras := ⟨[], [.secret "certificates" "/certificates" .empty], .empty⟩ }

def certificatesTree : File.Tree :=
  { entries := [(["staging"], .directory), (["staging", "demo"], .directory),
      (["staging", "demo", "web.yml"], .file [112, 111, 114, 116]),
      (["staging", "demo", "api.yml"], .file [104, 111, 115, 116])]
    workingDirectory := [] }

def certificatesDeployment : Deployment := ⟨.empty, ⟨"demo", "", .empty⟩, ⟨"/staging"⟩⟩

def certificatesResolved : Resolved :=
  { settings := Table.ofList [("web", .listening 8080), ("api", apiSettings)]
    profiles := Table.ofList
      [("web", Table.ofList [("web.yml", profileAt "web.yml" "/web/web.yml")]),
        ("api", Table.ofList [("api.yml", profileAt "api.yml" "/api/api.yml")])] }

def certificatesCommission (service : Service) : Commission :=
  { templates := .embedded, rules := [], tree := certificatesTree, service
    deployment := certificatesDeployment, resolved := certificatesResolved }

theorem certificates_run (service : Service) {settings : Settings}
    (found : certificatesResolved.settingsFor service = .ok settings)
    (readable : ∀ g ∈ Staging.groups certificatesDeployment.stagingPath
      (certificatesResolved.profilesOf service.serviceType),
        Staging.Readable certificatesTree g.files) (state : SecretState) :
    ∃ manifests state',
      (certificatesCommission service).run.outcome state = (.ok manifests, state') := by
  obtain ⟨staged, state', made⟩ := Staging.stageGroups_of_readable readable state
  have staging : (Staging.stage (.secrets certificatesTree) certificatesDeployment.account service
      [] certificatesResolved certificatesDeployment.stagingPath
      settings.namespaceName).outcome state = (.ok staged, state') :=
    Activity.outcome_lift_bind_ok.mpr ⟨_, rfl, made⟩
  have pod : ∃ pod, Assembler.podOf service settings certificatesDeployment certificatesResolved []
      staged = .ok pod := ⟨_, rfl⟩
  obtain ⟨pod, built⟩ := pod
  obtain ⟨manifests, ok⟩ := Assembler.assembly_made
    (a := (certificatesCommission service).assembler) rfl found staging built
  exact ⟨manifests, state', ok⟩

theorem certificates_references_closed :
    ([webService, apiService].map (·.canonicalName)).Nodup ∧
    ∃ first second secrets,
      ([certificatesCommission webService, certificatesCommission apiService].mapM
        Commission.run).outcome .empty = (.ok [first, second], secrets) ∧
      ∃ state state' settings staged pod,
        (certificatesCommission apiService).assembler.Deployed apiService certificatesDeployment
          certificatesResolved state settings staged pod second.deploymentYaml state' ∧
        pod.ClosedUnder [.secret "certificates" "/certificates" .empty] second.namespaceName
          (SecretStore.secretsFor secrets "web-files") := by
  have distinct : ([webService, apiService].map (·.canonicalName)).Nodup := by decide
  obtain ⟨first, state, led⟩ := certificates_run webService rfl (by decide +kernel) .empty
  obtain ⟨second, secrets, here⟩ := certificates_run apiService rfl (by decide +kernel) state
  have ok : ([certificatesCommission webService, certificatesCommission apiService].mapM
      Commission.run).outcome .empty = (.ok [first, second], secrets) :=
    Activity.outcome_mapM_cons_ok.mpr ⟨first, state, [second], led,
      Activity.outcome_mapM_cons_ok.mpr ⟨second, secrets, [], here, rfl, rfl⟩, rfl⟩
  obtain ⟨-, earlier, manifests, later, t, t', settings, staged, pod, same, count, -, made, -,
    closed⟩ := Commission.secret_references_closed [certificatesCommission webService] []
      (certificatesCommission apiService) [first, second] secrets distinct ok
  obtain rfl : apiSettings = settings := Except.ok.inj made.found
  obtain ⟨only, rfl⟩ := List.length_eq_one_iff.mp count
  obtain ⟨rfl, rfl, rfl⟩ : first = only ∧ second = manifests ∧ [] = later := by simpa using same
  exact ⟨distinct, first, second, secrets, ok, t, t', apiSettings, staged, pod, made, closed⟩

end Certificates
end Stevedore
