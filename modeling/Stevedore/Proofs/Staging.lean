import Stevedore.Proofs.Assembly
import Stevedore.Proofs.Resolution
import Stevedore.Proofs.Job

/-! Which files a store is asked for. Profiles are merged by name, grouped by directory, and every
group becomes one request, so that a profile is asked for unless another one took its name. -/
namespace Stevedore

/-- A store that notes what it is asked for, and answers like the one it wraps. -/
def BundleStore.observed {σ : Type} (store : BundleStore σ) :
    BundleStore (σ × List BundleRequest) :=
  { create := fun request (s, seen) =>
      let (answer, t) := store.create request s
      (answer, (t, seen ++ [request])) }

def Assembler.observed {σ : Type} (a : Assembler σ) : Assembler (σ × List BundleRequest) :=
  { templates := a.templates, store := a.store.observed, rules := a.rules }

namespace Staging
variable {host : Service} {sidecar : SidecarService} {resolved : Resolved}

/-- The profiles that a host is asked to mount, by sidecar and name, in the order of both. -/
def asked (host : Service) (sidecars : List SidecarService) : List (SidecarService × String) :=
  sidecars.flatMap fun s => (s.profileNamesFor host).map fun name => (s, name)

/-- The profile of that name under the type of the sidecar. -/
def supplied? (resolved : Resolved) (a : SidecarService × String) : Option Profile :=
  (resolved.profilesOf a.1.service.serviceType).get? a.2

theorem addSidecarProfiles_ok {entries : List (String × Option Profile)}
    {t t' : Table Profile} (ok : entries.foldlM (addSidecarProfile sidecar host) t = .ok t') :
    t' = (entries.filterMap (·.2)).foldl (fun t p => t.insert p.name p) t := by
  induction entries generalizing t with
  | nil => exact (Except.ok.inj ok).symm
  | cons first rest ih =>
    rw [List.foldlM_cons] at ok
    obtain ⟨next, added, ok⟩ := except_bind_ok.mp ok
    obtain ⟨name, _ | p⟩ := first
    · cases added
    · obtain rfl := Except.ok.inj added
      exact ih ok

theorem mergeProfiles_ok {sidecars : List SidecarService} {merged : Table Profile}
    (ok : mergeProfiles host sidecars resolved = .ok merged) :
    merged = ((asked host sidecars).filterMap (supplied? resolved)).foldl
      (fun t p => t.insert p.name p) (resolved.profilesOf host.serviceType) := by
  unfold mergeProfiles at ok
  generalize resolved.profilesOf host.serviceType = own at ok ⊢
  induction sidecars generalizing own with
  | nil => exact (Except.ok.inj ok).symm
  | cons sidecar rest ih =>
    rw [List.foldlM_cons] at ok
    obtain ⟨next, added, ok⟩ := except_bind_ok.mp ok
    have theirs : (sidecar.profilesFor resolved host).filterMap (·.2) =
        ((sidecar.profileNamesFor host).map fun name => (sidecar, name)).filterMap
          (supplied? resolved) := by
      rw [SidecarService.profilesFor, List.filterMap_map, List.filterMap_map]
      rfl
    rw [ih next ok, addSidecarProfiles_ok added, theirs, asked, asked, List.flatMap_cons,
      List.filterMap_append, List.foldl_append]

theorem get?_addSidecarProfiles {table t t' : Table Profile} (keyed : Profile.Keyed table)
    {names : List String} (ok : (names.map fun name => (name, table.get? name)).foldlM
      (addSidecarProfile sidecar host) t = .ok t') (name : String) :
    t'.get? name = if name ∈ names then table.get? name else t.get? name := by
  induction names generalizing t with
  | nil =>
    obtain rfl := Except.ok.inj ok
    simp
  | cons first rest ih =>
    rw [List.map_cons, List.foldlM_cons] at ok
    obtain ⟨next, added, ok⟩ := except_bind_ok.mp ok
    rw [ih ok]
    cases found : table.get? first with
    | none =>
      rw [found] at added
      cases added
    | some p =>
      rw [found] at added
      obtain rfl := Except.ok.inj added
      have named : p.name = first := keyed first p found
      rw [Table.get?_insert, named]
      by_cases later : name ∈ rest
      · simp [later]
      · by_cases same : name = first
        · simp [same, found]
        · simp [later, same]

/-- What a sidecar leaves under a name: its own profile, if it selects one of that name. -/
def selectFrom (resolved : Resolved) (host : Service) (name : String) (found : Option Profile)
    (sidecar : SidecarService) : Option Profile :=
  if name ∈ sidecar.profileNamesFor host then
    (resolved.profilesOf sidecar.service.serviceType).get? name
  else found

theorem get?_mergeProfiles {sidecars : List SidecarService} {merged : Table Profile}
    (keyed : ∀ s ∈ sidecars, Profile.Keyed (resolved.profilesOf s.service.serviceType))
    (ok : mergeProfiles host sidecars resolved = .ok merged) (name : String) :
    merged.get? name = sidecars.foldl (selectFrom resolved host name)
      ((resolved.profilesOf host.serviceType).get? name) := by
  unfold mergeProfiles at ok
  generalize resolved.profilesOf host.serviceType = own at ok ⊢
  induction sidecars generalizing own with
  | nil =>
    obtain rfl := Except.ok.inj ok
    rfl
  | cons sidecar rest ih =>
    rw [List.foldlM_cons] at ok
    obtain ⟨next, added, ok⟩ := except_bind_ok.mp ok
    have covered := get?_addSidecarProfiles (keyed sidecar List.mem_cons_self) added name
    rw [ih (fun s member => keyed s (List.mem_cons_of_mem _ member)) next ok, List.foldl_cons,
      selectFrom, covered]

/-- What sidecars bring stands under its own name. -/
theorem keyed_mergeProfiles {sidecars : List SidecarService} {merged : Table Profile}
    (keyed : Profile.Keyed (resolved.profilesOf host.serviceType))
    (ok : mergeProfiles host sidecars resolved = .ok merged) : Profile.Keyed merged := by
  rw [mergeProfiles_ok ok]
  exact Profile.keyed_foldl_insert keyed _

theorem getD_foldl_modify (profiles : List Profile) (t : Table (List Profile))
    (directory : String) :
    ((profiles.foldl (fun t p => t.modify p.outputDirectory [] (· ++ [p])) t).get?
      directory).getD [] =
        (t.get? directory).getD [] ++ profiles.filter fun p => p.outputDirectory = directory := by
  induction profiles generalizing t with
  | nil => simp
  | cons p rest ih =>
    rw [List.foldl_cons, ih, Table.get?_modify]
    by_cases same : p.outputDirectory = directory
    · simp [same]
    · simp [same, Ne.symm same]

/-- Under a directory stand the profiles that land in it, in order. -/
theorem getD_byDirectory (profiles : Table Profile) (directory : String) :
    ((byDirectory profiles).get? directory).getD [] =
      profiles.values.filter fun p => p.outputDirectory = directory := by
  rw [byDirectory, getD_foldl_modify, Table.get?_empty, Option.getD_none, List.nil_append]

/-- Every profile stands under the directory it lands in. -/
theorem found_byDirectory {profiles : Table Profile} {p : Profile} (member : p ∈ profiles.values) :
    ∃ members, (byDirectory profiles).get? p.outputDirectory = some members ∧ p ∈ members := by
  have held : p ∈ ((byDirectory profiles).get? p.outputDirectory).getD [] := by
    rw [getD_byDirectory]
    exact List.mem_filter.mpr ⟨member, by simp⟩
  cases found : (byDirectory profiles).get? p.outputDirectory with
  | none =>
    rw [found] at held
    contradiction
  | some members =>
    rw [found] at held
    exact ⟨members, rfl, held⟩

theorem ne_nil_of_byDirectory {profiles : Table Profile} {e : String × List Profile}
    (member : e ∈ (byDirectory profiles).entries) : e.2 ≠ [] := by
  have step (items : List Profile) (t : Table (List Profile))
      (filled : ∀ k members, t.get? k = some members → members ≠ []) (k : String)
      (members : List Profile) (found : (items.foldl
        (fun t p => t.modify p.outputDirectory [] (· ++ [p])) t).get? k = some members) :
      members ≠ [] := by
    induction items generalizing t with
    | nil => exact filled k members found
    | cons p rest ih =>
      refine ih _ (fun k members held => ?_) found
      rw [Table.get?_modify] at held
      split at held
      · obtain rfl := Option.some.inj held
        simp
      · exact filled k members held
  exact step profiles.values .empty (by simp) e.1 e.2 (Table.mem_entries_iff.mp member)

theorem foldl_fresh (seen files : List String) :
    files.foldl (fun seen file => if seen.contains file then seen else seen ++ [file]) seen =
      seen ++ (files.filter (· ∉ seen)).eraseDups := by
  induction files generalizing seen with
  | nil => simp
  | cons file rest ih =>
    rw [List.foldl_cons]
    by_cases old : file ∈ seen
    · rw [if_pos (List.contains_iff_mem.mpr old), ih, List.filter_cons_of_neg (by simpa using old)]
    · have later : rest.filter (· ∉ seen ++ [file]) =
          (rest.filter (· ∉ seen)).filter (fun other => !other == file) := by
        rw [List.filter_filter]
        refine List.filter_congr fun other _ => ?_
        by_cases same : other = file <;> simp [same]
      rw [if_neg (fun held => old (List.contains_iff_mem.mp held)), ih, later,
        List.filter_cons_of_pos (by simpa using old), List.eraseDups_cons, List.append_assoc]
      rfl

theorem requiredFiles_eq (profiles : Table Profile) :
    requiredFiles profiles = (profiles.values.flatMap (·.requiredFiles)).eraseDups := by
  rw [requiredFiles, foldl_fresh]
  simp

/-- No profile is lost in grouping. -/
theorem exists_group (stagingPath : Path) {profiles : Table Profile} {p : Profile}
    (member : p ∈ profiles.values) : ∃ g ∈ groups stagingPath profiles,
      (⟨p.stagedFile stagingPath, ⟨p.outputFile⟩⟩ : MountPair) ∈ g.files := by
  obtain ⟨members, found, held⟩ := found_byDirectory member
  refine ⟨directoryGroup stagingPath p.outputDirectory members, ?_, ?_⟩
  · apply List.mem_append_left
    exact List.mem_map.mpr ⟨_, Table.mem_entries_iff.mpr found, rfl⟩
  · exact List.mem_map_of_mem held

variable {σ : Type} {store : BundleStore σ} {account : Account} {service : Service}
  {namespaceName : String}

/-- A source for a group is mounted where the group lands and brings its variables. -/
def Gives (g : StagingGroup) (v : ConfigSource) : Prop := ∃ name, v = .secret name g.mountPath g.env

/-- Every group becomes one source, in order. -/
theorem stageGroups_sources {gs : List StagingGroup} {sources : List ConfigSource} {s s' : σ}
    (ok : (gs.mapM (stageGroup store account service namespaceName) : Activity σ _).outcome s =
      (.ok sources, s')) : List.Forall₂ Gives gs sources := by
  refine Activity.forall₂_of_mapM (fun g s v s' made => ?_) ok
  obtain ⟨name, t, -, last⟩ := Activity.outcome_bind_ok.mp made
  rw [Activity.outcome_pure] at last
  cases last
  exact ⟨name, rfl⟩

theorem env_sources {gs : List StagingGroup} {sources : List ConfigSource}
    (related : List.Forall₂ Gives gs sources) : gs.map (·.env) = sources.map (·.env) := by
  refine map_eq_of_forall₂ related fun g v given => ?_
  obtain ⟨name, rfl⟩ := given
  rfl

/-- All that is staged is secret. -/
theorem kind_sources {gs : List StagingGroup} {sources : List ConfigSource}
    (related : List.Forall₂ Gives gs sources) : ∀ v ∈ sources, v.kind = .secret := by
  intro v member
  obtain ⟨g, -, name, rfl⟩ := exists_of_forall₂ related member
  rfl

theorem outcome_create (store : BundleStore σ) (r : BundleRequest) (s : σ) :
    (create store r).outcome s =
      ((store.create r s).1.mapError .store, (store.create r s).2) := by
  change create store r s = _
  unfold create
  rcases store.create r s with ⟨_ | _, t⟩
  · rfl
  · rfl

theorem create_observed {request : BundleRequest} {s s' : σ} {seen seen' : List BundleRequest}
    {name : String} (ok : (create store.observed request).outcome (s, seen) =
      (.ok name, (s', seen'))) : seen' = seen ++ [request] := by
  rw [outcome_create] at ok
  exact (congrArg (·.2.2) ok).symm

/-- Every group becomes one request, in order. -/
theorem stageGroups_observed {gs : List StagingGroup} {sources : List ConfigSource} {s s' : σ}
    {seen seen' : List BundleRequest}
    (ok : (gs.mapM (stageGroup store.observed account service namespaceName) :
      Activity (σ × List BundleRequest) _).outcome (s, seen) = (.ok sources, (s', seen'))) :
    seen' = seen ++ gs.map (request account service namespaceName) := by
  induction gs generalizing s seen sources with
  | nil =>
    rw [List.mapM_nil, Activity.outcome_pure] at ok
    cases ok
    simp
  | cons g rest ih =>
    obtain ⟨source, ⟨t, seen₁⟩, others, first, later, -⟩ := Activity.outcome_mapM_cons_ok.mp ok
    obtain ⟨name, ⟨u, seen₂⟩, created, last⟩ := Activity.outcome_bind_ok.mp first
    rw [Activity.outcome_pure] at last
    cases last
    rw [ih later, create_observed created]
    simp

end Staging

namespace Assembler
variable {σ : Type} {a : Assembler σ} {service : Service} {deployment : Deployment}
  {resolved : Resolved}

/-- Being observed changes nothing for a job. -/
theorem perform_observed {α : Type} (store : BundleStore σ) (job : Job α) (s : σ)
    (seen : List BundleRequest) : ∃ seen', job.perform store.observed (s, seen) =
      ((job.perform store s).1, ((job.perform store s).2, seen')) := by
  induction job generalizing s seen with
  | ended result => exact ⟨seen, rfl⟩
  | asks request next ih => exact ih _ _ _

theorem outcome_observed (a : Assembler σ) (service : Service) (deployment : Deployment)
    (resolved : Resolved) (s : σ) : ∃ seen,
      (a.observed.assemble service deployment resolved).outcome (s, []) =
        (((a.assemble service deployment resolved).outcome s).1,
          ((a.assemble service deployment resolved).outcome s).2, seen) := by
  rw [← a.job_follows service deployment resolved s,
    ← a.observed.job_follows service deployment resolved (s, [])]
  exact perform_observed a.store (a.job service deployment resolved) s []

theorem assemble_observed {s s' : σ} {manifests : ServiceManifests}
    (ok : (a.assemble service deployment resolved).outcome s = (.ok manifests, s')) :
    ∃ seen, (a.observed.assemble service deployment resolved).outcome (s, []) =
      (.ok manifests, (s', seen)) := by
  obtain ⟨seen, watched⟩ := a.outcome_observed service deployment resolved s
  rw [ok] at watched
  exact ⟨seen, watched⟩

/-- The store is asked for the groups of the merged profiles, in order and in the namespace that the
settings name, and for nothing else. -/
theorem asked_of_assembly {s s' : σ} {manifests : ServiceManifests}
    (ok : (a.assemble service deployment resolved).outcome s = (.ok manifests, s')) :
    ∃ merged settings, resolved.settingsFor service = .ok settings ∧
      Staging.mergeProfiles service (a.sidecarsOf service resolved) resolved = .ok merged ∧
      (a.observed.assemble service deployment resolved).outcome (s, []) = (.ok manifests, (s',
        (Staging.groups deployment.stagingPath merged).map
          (Staging.request deployment.account service settings.namespaceName))) := by
  obtain ⟨seen, watched⟩ := assemble_observed ok
  obtain ⟨settings, staged, -, found, staging, -, -⟩ :=
    deployment_ok_iff.mp (deployment_of_assembly watched)
  obtain ⟨merged, merging, made⟩ := Activity.outcome_lift_bind_ok.mp staging
  have asked := Staging.stageGroups_observed made
  rw [List.nil_append] at asked
  exact ⟨merged, settings, found, merging, asked ▸ watched⟩

theorem requests_of_assembly {s s' : σ} {manifests : ServiceManifests}
    (ok : (a.assemble service deployment resolved).outcome s = (.ok manifests, s')) :
    ∃ merged, ∃ settings : Settings,
      Staging.mergeProfiles service (a.sidecarsOf service resolved) resolved = .ok merged ∧
      (a.observed.assemble service deployment resolved).outcome (s, []) = (.ok manifests, (s',
        (Staging.groups deployment.stagingPath merged).map
          (Staging.request deployment.account service settings.namespaceName))) := by
  obtain ⟨merged, settings, -, merging, watched⟩ := asked_of_assembly ok
  exact ⟨merged, settings, merging, watched⟩

/-- A plan attaches its monitoring sidecar, or nothing. -/
theorem sidecarsOf_plan {d : Declaration} {root : Path} {plan : Plan}
    (ok : d.resolve root = .ok plan) (rules : a.rules = plan.rules) (host : Service)
    (resolved : Resolved) : a.sidecarsOf host resolved = [] ∨
      ∃ m, d.monitoring = some m ∧ a.sidecarsOf host resolved = [m.subject] := by
  obtain ⟨-, -, -, monitoring⟩ := Declaration.resolve_ok_iff.mp ok
  simp only [sidecarsOf, SidecarRule.attached, rules, Plan.rules, monitoring]
  cases d.monitoring with
  | none => exact .inl rfl
  | some m =>
    cases held : SidecarRule.isMonitoring resolved.settings host m.subject with
    | false => exact .inl (by simp [SidecarRule.holds, held])
    | true => exact .inr ⟨m, rfl, by simp [SidecarRule.holds, held]⟩

/-- Some request names the file of the profile and where the profile goes. -/
def Requested (requests : List BundleRequest) (stagingPath : Path) (p : Profile) : Prop :=
  ∃ r ∈ requests, ⟨stagingPath.join p.name, ⟨p.outputFile⟩⟩ ∈ r.files

/-- Every declared profile is asked for unless its name is taken, be it by a later profile of the
same entry or, for those of the service itself, by a profile that an attached sidecar selects. -/
theorem declared_profiles_requested (a : Assembler σ) (d : Declaration) (root : Path) (plan : Plan)
    (e : Entry Service) (s s' : σ) (manifests : ServiceManifests)
    (accepted : d.violation? = none) (ok : d.resolve root = .ok plan) (rules : a.rules = plan.rules)
    (declared : e ∈ d.services)
    (assembled : (a.assemble e.subject plan.deployment plan.resolved).outcome s =
      (.ok manifests, s')) :
    ∃ requests, (a.observed.assemble e.subject plan.deployment plan.resolved).outcome (s, []) =
        (.ok manifests, (s', requests)) ∧
      (∀ p, p.LastIn e.profiles →
        (∀ sidecar ∈ a.sidecarsOf e.subject plan.resolved,
          p.name ∉ sidecar.profileNamesFor e.subject) →
        Requested requests plan.deployment.stagingPath p) ∧
      (∀ m ∈ d.monitoring, m.subject ∈ a.sidecarsOf e.subject plan.resolved →
        ∀ p, p.LastIn m.profiles → p.name ∈ m.subject.profileNamesFor e.subject →
          Requested requests plan.deployment.stagingPath p) := by
  obtain ⟨merged, settings, merging, watched⟩ := requests_of_assembly assembled
  refine ⟨_, watched, ?_⟩
  have own : plan.resolved.profilesOf e.subject.serviceType = Profile.byName e.profiles :=
    Declaration.profilesOf_resolved accepted ok (List.mem_append_left _ declared)
  have theirs {m : Entry SidecarService} (monitored : d.monitoring = some m) :
      plan.resolved.profilesOf m.subject.service.serviceType = Profile.byName m.profiles := by
    have entry : m.map SidecarService.service ∈ d.entries := by
      simp [Declaration.entries, monitored]
    exact Declaration.profilesOf_resolved accepted ok entry
  have attached := sidecarsOf_plan ok rules e.subject plan.resolved
  have keyed : ∀ sidecar ∈ a.sidecarsOf e.subject plan.resolved,
      Profile.Keyed (plan.resolved.profilesOf sidecar.service.serviceType) := by
    intro sidecar member
    rcases attached with none_ | ⟨m, monitored, one⟩
    · rw [none_] at member
      contradiction
    · rw [one, List.mem_singleton] at member
      rw [member, theirs monitored]
      exact Profile.keyed_foldl_insert Profile.keyed_empty _
  have found (p : Profile) (held : merged.get? p.name = some p) :
      Requested ((Staging.groups plan.deployment.stagingPath merged).map
        (Staging.request plan.deployment.account e.subject settings.namespaceName))
        plan.deployment.stagingPath p := by
    obtain ⟨g, member, pair⟩ := Staging.exists_group plan.deployment.stagingPath
      (Table.mem_values_iff.mpr ⟨p.name, held⟩)
    exact ⟨_, List.mem_map_of_mem member, pair⟩
  constructor
  · intro p last free
    apply found
    rw [Staging.get?_mergeProfiles keyed merging, own, Profile.get?_byName]
    rcases attached with none_ | ⟨m, -, one⟩
    · rw [none_]
      exact last
    · rw [one] at free ⊢
      rw [List.foldl_cons, List.foldl_nil, Staging.selectFrom,
        if_neg (free m.subject (List.mem_singleton.mpr rfl))]
      exact last
  · intro m monitored attachedTo p last selected
    apply found
    rw [Staging.get?_mergeProfiles keyed merging]
    rcases attached with none_ | ⟨m', monitored', one⟩
    · rw [none_] at attachedTo
      contradiction
    · obtain rfl := Option.some.inj (monitored'.symm.trans monitored)
      rw [one, List.foldl_cons, List.foldl_nil, Staging.selectFrom, if_pos selected,
        theirs monitored, Profile.get?_byName]
      exact last

end Assembler

section Shared

def profileAt (name outputFile : String) : Profile := ⟨name, outputFile, .empty, []⟩

def webEntry : Entry Service :=
  { subject := .named "web" "web" "web"
    settings := .listening 8080
    profiles := [profileAt "web.yml" "/web/web.yml", profileAt "shared.yml" "/web/shared.yml"] }

/-- A monitoring sidecar with a profile that has the name of one of its host's. -/
def monitorEntry : Entry SidecarService :=
  { subject := ⟨.named "monitor" "monitor" "monitor", ["shared.yml"]⟩
    settings := .listening 9000
    profiles := [profileAt "shared.yml" "/monitor/shared.yml"] }

def sharingDeclaration : Declaration :=
  { name := "demo", version := "", stagingRoot := none, location := "default", account := .empty,
    artifacts := .empty, monitoring := some monitorEntry, services := [webEntry],
    environment := .empty }

def completed (name : String) (port : UInt16) : Settings :=
  { Settings.listening port with
    location := some "default"
    address := some (name ++ ".default")
    env := Table.ofList [(Settings.javaOptionsName, Settings.javaOptions)] }

def sharingPlan : Plan :=
  { deployment := ⟨.empty, ⟨"demo", "", .empty⟩, ⟨"/staging"⟩⟩
    resolved :=
      { settings := Table.ofList
          [("web", completed "web" 8080), ("monitor", completed "monitor" 9000)]
        profiles := Table.ofList [("web", Profile.byName webEntry.profiles),
          ("monitor", Profile.byName monitorEntry.profiles)] }
    services := [webEntry.subject]
    monitoring := some monitorEntry.subject }

def sharingAssembler : Assembler (List BundleRequest) :=
  { templates := .embedded, store := .recording, rules := sharingPlan.rules }

theorem sharing_accepted : sharingDeclaration.violation? = none := by decide +kernel

theorem sharing_resolved : sharingDeclaration.resolve ⟨"/staging"⟩ = .ok sharingPlan := by rfl

theorem sharing_assembled : ∃ manifests seen,
    (sharingAssembler.assemble webEntry.subject sharingPlan.deployment
      sharingPlan.resolved).outcome [] = (.ok manifests, seen) := by
  have one : sharingAssembler.sidecarsOf webEntry.subject sharingPlan.resolved =
    [monitorEntry.subject] := rfl
  have attached : ∀ s ∈ sharingAssembler.sidecarsOf webEntry.subject sharingPlan.resolved,
      ∃ own, sharingPlan.resolved.settingsFor s.service = .ok own := by
    rw [one]
    exact List.forall_mem_singleton.mpr ⟨completed "monitor" 9000, rfl⟩
  exact Assembler.recorded_assembly rfl rfl rfl attached rfl []

theorem sharing_profiles_requested :
    sharingDeclaration.violation? = none ∧
    sharingDeclaration.resolve ⟨"/staging"⟩ = .ok sharingPlan ∧
    sharingAssembler.rules = sharingPlan.rules ∧ webEntry ∈ sharingDeclaration.services ∧
    ∃ manifests seen, (sharingAssembler.assemble webEntry.subject sharingPlan.deployment
        sharingPlan.resolved).outcome [] = (.ok manifests, seen) ∧
      ∃ requests, (sharingAssembler.observed.assemble webEntry.subject sharingPlan.deployment
          sharingPlan.resolved).outcome ([], []) = (.ok manifests, (seen, requests)) ∧
        Assembler.Requested requests ⟨"/staging/demo"⟩ (profileAt "web.yml" "/web/web.yml") ∧
        Assembler.Requested requests ⟨"/staging/demo"⟩
          (profileAt "shared.yml" "/monitor/shared.yml") := by
  obtain ⟨manifests, seen, assembled⟩ := sharing_assembled
  obtain ⟨requests, watched, own, theirs⟩ := Assembler.declared_profiles_requested sharingAssembler
    sharingDeclaration ⟨"/staging"⟩ sharingPlan webEntry [] seen manifests sharing_accepted
    sharing_resolved rfl List.mem_cons_self assembled
  refine ⟨sharing_accepted, sharing_resolved, rfl, List.mem_cons_self, manifests, seen, assembled,
    requests, watched, ?_, ?_⟩
  · exact own (profileAt "web.yml" "/web/web.yml") (by decide +kernel) (by decide +kernel)
  · exact theirs monitorEntry rfl (by decide +kernel)
      (profileAt "shared.yml" "/monitor/shared.yml") (by decide +kernel) (by decide +kernel)

/-- The service's own profile of the shared name is asked for by no request. -/
theorem shared_profile_not_requested :
    sharingDeclaration.violation? = none ∧
    sharingDeclaration.resolve ⟨"/staging"⟩ = .ok sharingPlan ∧
    webEntry ∈ sharingDeclaration.services ∧
    profileAt "shared.yml" "/web/shared.yml" ∈ webEntry.profiles ∧
    ∃ manifests seen requests, (sharingAssembler.observed.assemble webEntry.subject
        sharingPlan.deployment sharingPlan.resolved).outcome ([], []) =
          (.ok manifests, (seen, requests)) ∧
      ¬ Assembler.Requested requests ⟨"/staging/demo"⟩
        (profileAt "shared.yml" "/web/shared.yml") := by
  obtain ⟨manifests, seen, assembled⟩ := sharing_assembled
  obtain ⟨merged, settings, merging, watched⟩ := Assembler.requests_of_assembly assembled
  refine ⟨sharing_accepted, sharing_resolved, List.mem_cons_self, by simp [webEntry], manifests,
    seen, _, watched, ?_⟩
  have both : merged = Table.ofList [("shared.yml", profileAt "shared.yml" "/monitor/shared.yml"),
      ("web.yml", profileAt "web.yml" "/web/web.yml")] :=
    (Except.ok.inj merging).symm
  rintro ⟨r, member, pair⟩
  obtain ⟨g, inside, rfl⟩ := List.mem_map.mp member
  have absent : ∀ g ∈ Staging.groups ⟨"/staging/demo"⟩ merged,
      (⟨⟨"/staging/demo/shared.yml"⟩, ⟨"/web/shared.yml"⟩⟩ : MountPair) ∉ g.files := by
    rw [both]
    decide +kernel
  exact absent g inside pair

end Shared
end Stevedore
