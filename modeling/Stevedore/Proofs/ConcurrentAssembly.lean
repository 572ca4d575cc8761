import Stevedore.Proofs.Assembly
import Stevedore.Proofs.Interleaving

/-! The assemblies of several services at once, with secrets in one store: in every order of their
calls they end like assembly of one service after another. -/
namespace Stevedore

/-- A request of the service's own. -/
def BundleRequest.Of (service : Service) (request : BundleRequest) : Prop :=
  request.service = service.canonicalName ∧ request.stem = Staging.stem service

namespace Assembler
variable {σ : Type}

theorem job_asks (a : Assembler σ) (service : Service) (deployment : Deployment)
    (resolved : Resolved) : (a.job service deployment resolved).Asks (BundleRequest.Of service) := by
  unfold job
  refine Job.asks_bind trivial fun settings => ?_
  refine Job.asks_bind trivial fun namespaceYaml => ?_
  refine Job.asks_bind trivial fun serviceYaml => ?_
  refine Job.asks_bind trivial fun profiles => ?_
  refine Job.asks_bind (Job.asks_mapM fun g member => ?_) fun staged => ?_
  · refine Job.asks_bind ⟨⟨rfl, rfl⟩, fun answer => ?_⟩ fun name => trivial
    cases answer <;> trivial
  refine Job.asks_bind trivial fun pod => ?_
  exact Job.asks_bind trivial fun deploymentYaml => trivial

section Services
variable (a : Assembler SecretState) (tree : File.Tree) (deployment : Deployment)
  (resolved : Resolved)

def secretsOf (service : Service) : List Secret :=
  (a.job service deployment resolved).secrets tree

theorem owned_secretsOf (service : Service) :
    ∀ s ∈ a.secretsOf tree deployment resolved service,
      s.service = service.canonicalName ∧ SecretStore.Owned s := by
  intro s member
  obtain ⟨request, own, made⟩ := Job.made_of_mem_secrets (a.job_asks service deployment resolved)
    member
  exact SecretStore.owned_of_made own.1 own.2 made

/-- Services of different names write secrets of different names. -/
theorem names_apart_secretsOf {service other : Service}
    (apart : service.canonicalName ≠ other.canonicalName) :
    ∀ s ∈ a.secretsOf tree deployment resolved service,
      ∀ t ∈ a.secretsOf tree deployment resolved other, s.name ≠ t.name := by
  intro s wrote t wrote' same
  obtain ⟨own, owned⟩ := a.owned_secretsOf tree deployment resolved service s wrote
  obtain ⟨theirs, owned'⟩ := a.owned_secretsOf tree deployment resolved other t wrote'
  apply apart
  rw [← own, ← theirs]
  exact SecretStore.service_of_name owned owned' same

variable {a tree} (secretsAt : a.store = .secrets tree)
include secretsAt

theorem outcome_assemble (service : Service) (state : SecretState) :
    (a.assemble service deployment resolved).outcome state =
      ((a.job service deployment resolved).result tree,
        SecretStore.keep state (a.secretsOf tree deployment resolved service)) := by
  rw [← a.job_follows, secretsAt, Job.perform_secrets]
  rfl

/-- One after another the assemblies keep what each of them writes, in order. -/
theorem foldl_assemble (services : List Service) (state : SecretState) :
    services.foldl (fun state s => ((a.assemble s deployment resolved).outcome state).2) state =
      SecretStore.keep state (services.flatMap (a.secretsOf tree deployment resolved)) := by
  induction services generalizing state with
  | nil => rfl
  | cons service rest ih =>
    rw [List.foldl_cons, ih, outcome_assemble deployment resolved secretsAt, List.flatMap_cons,
      SecretStore.keep_append]

theorem fst_assembleAll {declared services : List Service}
    (enabled : enabledServices declared resolved = .ok services) (state : SecretState) :
    ((a.assembleAll declared deployment resolved).outcome state).1 =
      (services.map fun s => ((a.assemble s deployment resolved).outcome .empty).1).mapM id := by
  rw [assembleAll, enabled, Activity.lift_ok_bind]
  apply Activity.fst_outcome_mapM
  intro service s
  rw [outcome_assemble deployment resolved secretsAt, outcome_assemble deployment resolved secretsAt]

end Services
end Assembler

/-- Among the writes of distinct services each has its own part. -/
theorem filter_flatMap_service {services : List Service} {written : Service → List Secret}
    (distinct : (services.map (·.canonicalName)).Nodup)
    (mine : ∀ service, ∀ s ∈ written service, s.service = service.canonicalName)
    {service : Service} (member : service ∈ services) :
    ((services.flatMap written).filter fun s => s.service = service.canonicalName) =
      written service := by
  induction services with
  | nil => contradiction
  | cons first rest ih =>
    obtain ⟨absent, distinct⟩ := List.nodup_cons.mp distinct
    rw [List.flatMap_cons, List.filter_append]
    rcases List.mem_cons.mp member with rfl | later
    · have others : ∀ s ∈ rest.flatMap written, s.service ≠ service.canonicalName := by
        intro s member same
        obtain ⟨other, held, wrote⟩ := List.mem_flatMap.mp member
        rw [mine other s wrote] at same
        exact absent (List.mem_map.mpr ⟨other, held, same⟩)
      rw [SecretStore.filter_own (mine service), SecretStore.filter_other others, List.append_nil]
    · have different : ∀ s ∈ written first, s.service ≠ service.canonicalName := by
        intro s member same
        rw [mine first s member] at same
        exact absent (List.mem_map.mpr ⟨service, later, same.symm⟩)
      rw [SecretStore.filter_other different, List.nil_append, ih distinct later]

namespace Assembler
variable (a : Assembler SecretState) (tree : File.Tree) (services : List Service)
  (deployment : Deployment) (resolved : Resolved)

/-- The assemblies of all services, none of which has made a call yet. -/
def pool : Pool ServiceManifests :=
  { secrets := .empty, jobs := services.map fun s => a.job s deployment resolved }

theorem merging_pool (distinct : (services.map (·.canonicalName)).Nodup) :
    Pool.Merging tree (services.map (·.canonicalName))
      (services.flatMap (a.secretsOf tree deployment resolved))
      (a.pool services deployment resolved) [] where
  kept := rfl
  counted := by rw [pool, List.length_map, List.length_map]
  known := fun s member => by contradiction
  parts := by
    intro i inside job found
    rw [List.length_map] at inside
    rw [pool, List.getElem?_map, List.getElem?_eq_getElem inside] at found
    obtain rfl := Option.some.inj found
    rw [List.getElem_map, List.filter_nil, List.nil_append, filter_flatMap_service distinct
      (fun service s member => (a.owned_secretsOf tree deployment resolved service s member).1)
      (List.getElem_mem inside)]
    rfl

variable {tree services}

/-- Jobs that have all ended have kept some log, in which every service has the part that it has
where one is assembled after another. -/
theorem log_of_ended (distinct : (services.map (·.canonicalName)).Nodup) (order : List Nat)
    {results : List (Except DeployError ServiceManifests)}
    (ended : ((a.pool services deployment resolved).run tree order).jobs = results.map .ended) :
    ∃ log, ((a.pool services deployment resolved).run tree order).secrets =
        SecretStore.keep .empty log ∧ (∀ s ∈ log, SecretStore.Owned s) ∧
      ∀ owner, (log.filter fun s => s.service = owner) =
        (services.flatMap (a.secretsOf tree deployment resolved)).filter fun s =>
          s.service = owner := by
  obtain ⟨log, merging⟩ := Pool.merging_run distinct
    (a.merging_pool tree services deployment resolved distinct) order
  have others : ∀ s ∈ services.flatMap (a.secretsOf tree deployment resolved),
      s.service ∈ services.map (·.canonicalName) := by
    intro s member
    obtain ⟨service, held, wrote⟩ := List.mem_flatMap.mp member
    rw [(a.owned_secretsOf tree deployment resolved service s wrote).1]
    exact List.mem_map_of_mem held
  have parts := Pool.filter_of_ended merging ended others
  refine ⟨log, merging.kept, fun s member => ?_, parts⟩
  have held : s ∈ log.filter fun t => t.service = s.service :=
    List.mem_filter.mpr ⟨member, decide_eq_true rfl⟩
  rw [parts] at held
  obtain ⟨service, -, wrote⟩ := List.mem_flatMap.mp (List.mem_filter.mp held).1
  exact (a.owned_secretsOf tree deployment resolved service s wrote).2

theorem results_of_ended {a : Assembler SecretState} (secretsAt : a.store = .secrets tree)
    (services : List Service) (order : List Nat)
    {results : List (Except DeployError ServiceManifests)}
    (ended : ((a.pool services deployment resolved).run tree order).jobs = results.map .ended) :
    results = services.map
      fun s => ((a.assemble s deployment resolved).outcome .empty).1 := by
  have same := Pool.map_result_run tree (a.pool services deployment resolved) order
  rw [ended, pool, List.map_map, List.map_map] at same
  have left : results.map (Job.result tree ∘ Job.ended) = results := List.map_id results
  rw [← left, same]
  apply List.map_congr_left
  intro service _
  rw [outcome_assemble deployment resolved secretsAt]
  rfl

variable (tree services)

def collected (results : List (Except DeployError ServiceManifests)) :
    Except DeployError (List ServiceManifests) := results.mapM id

/-- Services with distinct names can be assembled at once, each by a job that makes the calls of its
assembly. In every order of turns all jobs can still be brought to their ends; and in every order
that has brought them there, each result is the one of its service alone, the secrets are those of
assembly one after another, each service has the secrets that it has alone, and the results in order
are those of assembling all. -/
theorem interleaved_assembly (templates : TemplateSet) (rules : List SidecarRule)
    (distinct : (services.map (·.canonicalName)).Nodup) :
    let a : Assembler SecretState := ⟨templates, .secrets tree, rules⟩
    let start := a.pool services deployment resolved
    (∀ (σ : Type) (store : BundleStore σ) (s : Service) (state : σ),
      (a.job s deployment resolved).perform store state =
        ((⟨templates, store, rules⟩ : Assembler σ).assemble s deployment resolved).outcome state) ∧
    (∀ order, ∃ more, ∃ results : List (Except DeployError ServiceManifests),
      (start.run tree (order ++ more)).jobs = results.map .ended) ∧
    ∀ order, ∀ results : List (Except DeployError ServiceManifests),
      (start.run tree order).jobs = results.map .ended →
      results = services.map (fun s => ((a.assemble s deployment resolved).outcome .empty).1) ∧
      (start.run tree order).secrets = services.foldl
        (fun state s => ((a.assemble s deployment resolved).outcome state).2) .empty ∧
      (∀ s ∈ services, SecretStore.secretsFor (start.run tree order).secrets s.canonicalName =
        ((a.assemble s deployment resolved).outcome .empty).2.values) ∧
      ∀ declared, enabledServices declared resolved = .ok services →
        collected results = ((a.assembleAll declared deployment resolved).outcome .empty).1 := by
  intro a start
  have secretsAt : a.store = .secrets tree := rfl
  refine ⟨fun σ store s state => ?_, fun order => ?_, fun order results ended => ?_⟩
  · exact (⟨templates, store, rules⟩ : Assembler σ).job_follows s deployment resolved state
  · obtain ⟨more, results, ended⟩ := Pool.all_end tree (start.run tree order)
    exact ⟨more, results, by rw [Pool.run_append, ended]⟩
  obtain ⟨log, kept, owned, parts⟩ := a.log_of_ended deployment resolved distinct order ended
  have alone := results_of_ended deployment resolved secretsAt services order ended
  refine ⟨alone, ?_, fun s member => ?_, fun declared enabled => ?_⟩
  · rw [kept, foldl_assemble deployment resolved secretsAt]
    refine SecretStore.keep_eq_of_filter (fun s member => ?_) parts
    rcases List.mem_append.mp member with here | there
    · exact owned s here
    · obtain ⟨service, -, wrote⟩ := List.mem_flatMap.mp there
      exact (a.owned_secretsOf tree deployment resolved service s wrote).2
  · rw [kept, SecretStore.secretsFor_keep owned, parts, filter_flatMap_service distinct
      (fun service s member => (a.owned_secretsOf tree deployment resolved service s member).1)
      member, outcome_assemble deployment resolved secretsAt]
  · rw [collected, alone, fst_assembleAll deployment resolved secretsAt enabled]

end Assembler

section Pair

/-- Two services of which one has the name that the other one's bundles begin with. -/
def pairServices : List Service := [.named "web" "web" "web", .named "web-files" "api" "api"]

/-- Only the first of them has its profile staged. -/
def pairTree : File.Tree :=
  { entries := [(["staging"], .directory), (["staging", "demo"], .directory),
      (["staging", "demo", "web.yml"], .file [112, 111, 114, 116])]
    workingDirectory := [] }

def pairDeployment : Deployment := ⟨.empty, ⟨"demo", "", .empty⟩, ⟨"/staging"⟩⟩

def pairResolved : Resolved :=
  { settings := Table.ofList [("web", .listening 8080), ("api", .listening 8081)]
    profiles := Table.ofList
      [("web", Table.ofList [("web.yml", ⟨"web.yml", "/web/web.yml", .empty, []⟩)]),
        ("api", Table.ofList [("api.yml", ⟨"api.yml", "/api/api.yml", .empty, []⟩)])] }

def pairAssembler : Assembler SecretState := ⟨.embedded, .secrets pairTree, []⟩

theorem pair_interleaved : (pairServices.map (·.canonicalName)).Nodup ∧
    ∃ more, ∃ results : List (Except DeployError ServiceManifests),
      let ended := (pairAssembler.pool pairServices pairDeployment pairResolved).run pairTree
        ([1, 0] ++ more)
      ended.jobs = results.map .ended ∧
      results = pairServices.map (fun s =>
        ((pairAssembler.assemble s pairDeployment pairResolved).outcome .empty).1) ∧
      ended.secrets = pairServices.foldl (fun state s =>
        ((pairAssembler.assemble s pairDeployment pairResolved).outcome state).2) .empty ∧
      (∀ s ∈ pairServices, SecretStore.secretsFor ended.secrets s.canonicalName =
        ((pairAssembler.assemble s pairDeployment pairResolved).outcome .empty).2.values) ∧
      Assembler.collected results =
        ((pairAssembler.assembleAll pairServices pairDeployment pairResolved).outcome .empty).1 := by
  have distinct : (pairServices.map (·.canonicalName)).Nodup := by decide
  obtain ⟨-, always, agree⟩ := Assembler.interleaved_assembly pairTree pairServices pairDeployment
    pairResolved .embedded [] distinct
  obtain ⟨more, results, ended⟩ := always [1, 0]
  obtain ⟨alone, secrets, own, all⟩ := agree _ results ended
  exact ⟨distinct, more, results, ended, alone, secrets, own, all pairServices rfl⟩

end Pair
end Stevedore
