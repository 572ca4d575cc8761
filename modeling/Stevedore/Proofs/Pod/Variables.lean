import Stevedore.Proofs.Pod.Containers
import Stevedore.Proofs.Pod.Mounts
import Stevedore.Proofs.UniqueSources

/-!
Where the variables of a service's containers come from. The settings go before the extra volumes,
of these the last one goes first, and both go before the profiles, which are in the order of the
directories they land in and, within one directory, in the order of their names.
-/
namespace Stevedore

section Search
variable {α β γ : Type} {f : α → Option β}

def lastSome? (f : α → Option β) (items : List α) : Option β := items.reverse.findSome? f

theorem lastSome?_singleton (item : α) : lastSome? f [item] = f item := List.findSome?_singleton

theorem lastSome?_append (first second : List α) :
    lastSome? f (first ++ second) = (lastSome? f second).or (lastSome? f first) := by
  rw [lastSome?, List.reverse_append, List.findSome?_append]
  rfl

theorem lastSome?_map (g : γ → α) (items : List γ) :
    lastSome? f (items.map g) = lastSome? (fun item => f (g item)) items := by
  rw [lastSome?, ← List.map_reverse, List.findSome?_map]
  rfl

theorem lastSome?_eq_none_iff {items : List α} :
    lastSome? f items = none ↔ ∀ item ∈ items, f item = none := by
  simp [lastSome?]

theorem lastSome?_flatMap {g : γ → List α} {h : γ → Option β} {items : List γ}
    (each : ∀ item ∈ items, lastSome? f (g item) = h item) :
    lastSome? f (items.flatMap g) = lastSome? h items := by
  induction items with
  | nil => rfl
  | cons item rest ih =>
    rw [List.flatMap_cons, lastSome?_append, each item List.mem_cons_self,
      ih fun other member => each other (List.mem_cons_of_mem _ member), ← List.singleton_append,
      lastSome?_append, lastSome?_singleton]

theorem lastSome?_eq_some_iff {items : List α} {b : β} :
    lastSome? f items = some b ↔
      ∃ before x after, items = before ++ x :: after ∧ f x = some b ∧ ∀ y ∈ after, f y = none := by
  rw [lastSome?, List.findSome?_eq_some_iff]
  constructor
  · rintro ⟨after, x, before, split, here, none_⟩
    refine ⟨before.reverse, x, after.reverse, ?_, here, fun y later => ?_⟩
    · rw [← List.reverse_reverse items, split]
      simp
    · exact none_ y (List.mem_reverse.mp later)
  · rintro ⟨before, x, after, rfl, here, none_⟩
    exact ⟨after.reverse, x, before.reverse, by simp, here,
      fun y later => none_ y (List.mem_reverse.mp later)⟩

/-- In an ascending list the last item that answers is the greatest one that does. -/
theorem lastSome?_eq_some_of_pairwise {R : α → α → Prop} (asymm : ∀ x y, R x y → ¬ R y x)
    {items : List α} (ascending : items.Pairwise R) {b : β} :
    lastSome? f items = some b ↔
      ∃ x ∈ items, f x = some b ∧ ∀ y ∈ items, f y ≠ none → y = x ∨ R y x := by
  rw [lastSome?_eq_some_iff]
  constructor
  · rintro ⟨before, x, after, rfl, here, none_⟩
    refine ⟨x, by simp, here, fun y member answers => ?_⟩
    rw [List.pairwise_append] at ascending
    rcases List.mem_append.mp member with earlier | rest
    · exact .inr (ascending.2.2 y earlier x List.mem_cons_self)
    · rcases List.mem_cons.mp rest with same | later
      · exact .inl same
      · exact absurd (none_ y later) answers
  · rintro ⟨x, member, here, greatest⟩
    obtain ⟨before, after, rfl⟩ := List.append_of_mem member
    rw [List.pairwise_append, List.pairwise_cons] at ascending
    refine ⟨before, x, after, rfl, here, fun y later => ?_⟩
    have above : R x y := ascending.2.1.1 y later
    by_contra answers
    rcases greatest y (by simp [later]) answers with rfl | below
    · exact asymm y y above above
    · exact asymm x y above below

end Search

theorem Table.get?_overlays {α : Type} (tables : List (Table α)) (k : String) :
    (tables.foldl overlay .empty).get? k = lastSome? (fun t => t.get? k) tables := by
  rw [get?_foldl_overlay, get?_empty, Option.or_none]
  rfl

namespace Profile

/-- The order in which the profiles of a table supply variables: by directory, then by name. -/
def Precedes (e f : String × Profile) : Prop :=
  e.2.outputDirectory < f.2.outputDirectory ∨
    e.2.outputDirectory = f.2.outputDirectory ∧ e.1 < f.1

instance (e f : String × Profile) : Decidable (Precedes e f) :=
  inferInstanceAs (Decidable (_ ∨ _))

theorem precedes_asymm (e f : String × Profile) (below : Precedes e f) : ¬ Precedes f e := by
  intro above
  rcases below with lower | ⟨same, lower⟩
  · rcases above with upper | ⟨same, -⟩
    · exact String.lt_asymm lower upper
    · exact String.lt_irrefl _ (same ▸ lower)
  · rcases above with upper | ⟨-, upper⟩
    · exact String.lt_irrefl _ (same ▸ upper)
    · exact String.lt_asymm lower upper

end Profile

namespace Staging

/-- The entries of a table of profiles in the order in which they supply variables. -/
def suppliers (profiles : Table Profile) : List (String × Profile) :=
  (byDirectory profiles).entries.flatMap fun e =>
    profiles.entries.filter fun f => f.2.outputDirectory = e.1

theorem members_eq {profiles : Table Profile} {e : String × List Profile}
    (member : e ∈ (byDirectory profiles).entries) :
    e.2 = (profiles.entries.filter fun f => f.2.outputDirectory = e.1).map (·.2) := by
  have found := getD_byDirectory profiles e.1
  rw [Table.mem_entries_iff.mp member, Option.getD_some, Table.values, List.filter_map] at found
  exact found

theorem suppliers_ascending (profiles : Table Profile) :
    (suppliers profiles).Pairwise Profile.Precedes := by
  refine List.pairwise_flatMap.mpr ⟨fun e _ => ?_, ?_⟩
  · have sorted := profiles.sorted.filter fun f => f.2.outputDirectory = e.1
    refine sorted.imp_of_mem fun {f g} first second below => .inr ⟨?_, below⟩
    exact (of_decide_eq_true (List.mem_filter.mp first).2).trans
      (of_decide_eq_true (List.mem_filter.mp second).2).symm
  · refine (byDirectory profiles).sorted.imp fun {d e} below f first g second => .inl ?_
    rw [of_decide_eq_true (List.mem_filter.mp first).2,
      of_decide_eq_true (List.mem_filter.mp second).2]
    exact below

theorem mem_suppliers {profiles : Table Profile} {f : String × Profile} :
    f ∈ suppliers profiles ↔ f ∈ profiles.entries := by
  constructor
  · intro member
    obtain ⟨e, -, inside⟩ := List.mem_flatMap.mp member
    exact (List.mem_filter.mp inside).1
  · intro member
    obtain ⟨members, found, -⟩ := found_byDirectory (List.mem_map_of_mem member)
    exact List.mem_flatMap.mpr ⟨_, Table.mem_entries_iff.mpr found,
      List.mem_filter.mpr ⟨member, by simp⟩⟩

theorem perm_suppliers (profiles : Table Profile) :
    (suppliers profiles).Perm profiles.entries := by
  have distinct : (suppliers profiles).Nodup := by
    refine (suppliers_ascending profiles).imp fun {f g} below same => ?_
    rw [same] at below
    exact Profile.precedes_asymm g g below below
  exact (List.perm_ext_iff_of_nodup distinct profiles.entries_nodup).mpr fun f => mem_suppliers

theorem env_requiredGroup {files : List String} {g : StagingGroup}
    (member : g ∈ requiredGroup files) : g.env = .empty := by
  cases files with
  | nil => contradiction
  | cons first rest => rw [List.mem_singleton.mp member]

theorem lastSome?_groups (stagingPath : Path) (profiles : Table Profile) (k : String) :
    lastSome? (fun g => g.env.get? k) (groups stagingPath profiles) =
      lastSome? (fun f => f.2.env.get? k) (suppliers profiles) := by
  -- required files bring no variables
  have required : lastSome? (fun g => g.env.get? k) (requiredGroup (requiredFiles profiles)) =
      none := by
    refine lastSome?_eq_none_iff.mpr fun g member => ?_
    rw [env_requiredGroup member, Table.get?_empty]
  rw [groups, lastSome?_append, required, Option.none_or, lastSome?_map, suppliers]
  refine (lastSome?_flatMap fun e member => ?_).symm
  rw [directoryGroup, Table.get?_overlays, lastSome?_map, members_eq member, lastSome?_map]

end Staging

/-- Where a variable of a service's containers has its value from, and when it has none. -/
inductive Supplied (settings : Settings) (merged : Table Profile) (k : String) :
    Option String → Prop where
  | settings {value : String} (own : settings.env.get? k = some value) :
      Supplied settings merged k (some value)
  | volume {before after : List ConfigSource} {v : ConfigSource} {value : String}
      (free : settings.env.get? k = none) (split : settings.extras.volumes = before ++ v :: after)
      (here : v.env.get? k = some value) (last : ∀ w ∈ after, w.env.get? k = none) :
      Supplied settings merged k (some value)
  | profile {name : String} {p : Profile} {value : String}
      (free : settings.env.get? k = none)
      (volumes : ∀ v ∈ settings.extras.volumes, v.env.get? k = none)
      (member : (name, p) ∈ merged.entries) (here : p.env.get? k = some value)
      (greatest : ∀ f ∈ merged.entries, f.2.env.get? k ≠ none →
        f = (name, p) ∨ Profile.Precedes f (name, p)) :
      Supplied settings merged k (some value)
  | absent (free : settings.env.get? k = none)
      (volumes : ∀ v ∈ settings.extras.volumes, v.env.get? k = none)
      (profiles : ∀ f ∈ merged.entries, f.2.env.get? k = none) :
      Supplied settings merged k none

theorem supplied_iff (settings : Settings) (merged : Table Profile) (k : String)
    (value : Option String) : Supplied settings merged k value ↔
      (settings.env.get? k).or
        ((lastSome? (fun v => v.env.get? k) settings.extras.volumes).or
          (lastSome? (fun f => f.2.env.get? k) (Staging.suppliers merged))) = value := by
  have greatest {b : String} := lastSome?_eq_some_of_pairwise (b := b) Profile.precedes_asymm
    (Staging.suppliers_ascending merged) (f := fun f => f.2.env.get? k)
  constructor
  · intro supplied
    cases supplied with
    | settings own => rw [own, Option.some_or]
    | volume free split here last =>
      rw [free, Option.none_or, lastSome?_eq_some_iff.mpr ⟨_, _, _, split, here, last⟩,
        Option.some_or]
    | profile free volumes member here top =>
      rw [free, lastSome?_eq_none_iff.mpr volumes, Option.none_or, Option.none_or]
      exact greatest.mpr ⟨_, Staging.mem_suppliers.mpr member, here,
        fun f inside => top f (Staging.mem_suppliers.mp inside)⟩
    | absent free volumes profiles =>
      rw [free, lastSome?_eq_none_iff.mpr volumes, Option.none_or, Option.none_or]
      exact lastSome?_eq_none_iff.mpr fun f inside => profiles f (Staging.mem_suppliers.mp inside)
  · rintro rfl
    cases own : settings.env.get? k with
    | some value => exact .settings own
    | none =>
      rw [Option.none_or]
      cases extra : lastSome? (fun v => v.env.get? k) settings.extras.volumes with
      | some value =>
        obtain ⟨before, v, after, split, here, last⟩ := lastSome?_eq_some_iff.mp extra
        exact .volume own split here last
      | none =>
        rw [Option.none_or]
        have volumes := lastSome?_eq_none_iff.mp extra
        cases found : lastSome? (fun f => f.2.env.get? k) (Staging.suppliers merged) with
        | some value =>
          obtain ⟨f, inside, here, top⟩ := greatest.mp found
          exact .profile own volumes (Staging.mem_suppliers.mp inside) here
            fun g member => top g (Staging.mem_suppliers.mpr member)
        | none =>
          exact .absent own volumes fun f member =>
            lastSome?_eq_none_iff.mp found f (Staging.mem_suppliers.mpr member)

namespace Assembler
variable {σ : Type} {a : Assembler σ} {service : Service} {deployment : Deployment}
  {resolved : Resolved}

theorem env_scratch {custom : List CustomSidecar} {v : ConfigSource}
    (member : v ∈ scratchVolumes custom) : v.env = .empty := by
  obtain ⟨s, -, made⟩ := List.mem_filterMap.mp member
  obtain ⟨path, -, rfl⟩ := Option.map_eq_some_iff.mp made
  rfl

theorem podSources_of_distinct {staged : List ConfigSource}
    (distinct : (staged.map (·.id)).Nodup) (custom : List CustomSidecar) :
    ∃ kept, kept.Sublist (scratchVolumes custom) ∧ podSources staged custom = staged ++ kept := by
  have all : (UniqueSources.ofList staged).sources = staged :=
    UniqueSources.sources_extend_of_distinct UniqueSources.empty_coherent distinct
  obtain ⟨kept, sub, held⟩ :=
    UniqueSources.sources_extend (UniqueSources.ofList staged) (scratchVolumes custom)
  refine ⟨kept, sub, ?_⟩
  rw [all] at held
  rw [← held, podSources, UniqueSources.ofList, UniqueSources.extend_append]
  rfl

theorem get?_mergedEnv (sources : List ConfigSource) (settings : Settings) (k : String) :
    (mergedEnv sources settings).get? k = (settings.env.get? k).or
      ((lastSome? (fun v => v.env.get? k) settings.extras.volumes).or
        (lastSome? (fun v => v.env.get? k) sources)) := by
  rw [mergedEnv, Table.get?_overlays, lastSome?_append, lastSome?_singleton, lastSome?_map,
    lastSome?_append]

/-- Where bundles have names of their own, the pod's sources say about a variable what the merged
profiles say. -/
theorem lastSome?_podSources {staged : List ConfigSource} {merged : Table Profile}
    {stagingPath : Path}
    (related : List.Forall₂ Staging.Gives (Staging.groups stagingPath merged) staged)
    (distinct : (staged.map (·.id)).Nodup) (custom : List CustomSidecar) (k : String) :
    lastSome? (fun v => v.env.get? k) (podSources staged custom) =
      lastSome? (fun f => f.2.env.get? k) (Staging.suppliers merged) := by
  obtain ⟨kept, sub, sources⟩ := podSources_of_distinct distinct custom
  have scratch : lastSome? (fun v => v.env.get? k) kept = none := by
    refine lastSome?_eq_none_iff.mpr fun v member => ?_
    rw [env_scratch (sub.subset member), Table.get?_empty]
  rw [sources, lastSome?_append, scratch, Option.none_or, ← Staging.lastSome?_groups stagingPath,
    ← lastSome?_map (f := fun env => env.get? k) (·.env) staged,
    ← Staging.env_sources related, lastSome?_map]

theorem supplied_mergedEnv {settings : Settings} {staged : List ConfigSource}
    {merged : Table Profile} {s s' : σ} {pod : Pod} {text : String}
    (made : a.Deployed service deployment resolved s settings staged pod text s')
    (merging : Staging.mergeProfiles service (a.sidecarsOf service resolved) resolved = .ok merged)
    (distinct : (staged.map (·.id)).Nodup) (custom : List CustomSidecar) (k : String)
    (value : Option String) :
    (mergedEnv (podSources staged custom) settings).get? k = value ↔
      Supplied settings merged k value := by
  obtain ⟨merged', merging', staging⟩ := Activity.outcome_lift_bind_ok.mp made.staging
  obtain rfl := Except.ok.inj (merging'.symm.trans merging)
  rw [supplied_iff, get?_mergedEnv,
    lastSome?_podSources (Staging.stageGroups_sources staging) distinct]

/-- Every service container of a pod whose bundles have names of their own has just the variables
that the settings, the extra volumes and the merged profiles supply; the custom sidecars have just
those they declare. -/
theorem variables_supplied (a : Assembler σ) (service : Service) (deployment : Deployment)
    (resolved : Resolved) (s s' : σ) (text : String)
    (ok : (a.deploymentManifest service deployment resolved).outcome s = (.ok text, s')) :
    ∃ settings staged pod merged primary attached own,
      a.Deployed service deployment resolved s settings staged pod text s' ∧
      Staging.mergeProfiles service (a.sidecarsOf service resolved) resolved = .ok merged ∧
      (Profile.Keyed (resolved.profilesOf service.serviceType) → Profile.Keyed merged) ∧
      pod.containers = primary :: attached ++ own ∧
      primary.name = service.canonicalName ∧
      attached.map (·.name) = (a.sidecarsOf service resolved).map (·.service.canonicalName) ∧
      own.map (fun c => (c.name, c.env)) =
        (deployment.environment.sidecarsFor service.serviceType).map (fun c => (c.name, c.env)) ∧
      ((staged.map (·.id)).Nodup → ∀ c ∈ primary :: attached, ∀ k value,
        c.env.get? k = value ↔ Supplied settings merged k value) := by
  obtain ⟨settings, staged, pod, made⟩ := deployed_of_ok ok
  obtain ⟨merged, merging, -⟩ := Activity.outcome_lift_bind_ok.mp made.staging
  obtain ⟨attached, related, containers⟩ := containers_podOf made.made
  refine ⟨settings, staged, pod, merged, _, attached, _, made, merging,
    fun keyed => Staging.keyed_mergeProfiles keyed merging, containers, rfl,
    (names_attached related).symm, ?_, ?_⟩
  · rw [List.map_map]
    rfl
  · intro distinct c member k value
    have env : c.env = mergedEnv (podSources staged
        (deployment.environment.sidecarsFor service.serviceType)) settings := by
      rcases List.mem_cons.mp member with rfl | inside
      · rfl
      · exact env_attached related c inside
    rw [env]
    exact supplied_mergedEnv made merging distinct _ k value

end Assembler

section Supply

def supplyVolume (id : String) (pairs : List (String × String)) : ConfigSource :=
  { id, mountPath := "/" ++ id, env := Table.ofList pairs, kind := .configMap }

/-- Every variable but the first is set on several levels, and the second volume has one of them. -/
def supplySettings : Settings :=
  { Settings.listening 8080 with
    env := Table.ofList [("A", "settings")]
    extras := ⟨[], [supplyVolume "low" [("A", "low"), ("B", "low")],
      supplyVolume "high" [("B", "high")]], .empty⟩ }

def supplyProfile (name outputFile : String) (pairs : List (String × String)) : Profile :=
  ⟨name, outputFile, Table.ofList pairs, []⟩

def webProfile : Profile :=
  supplyProfile "web.yml" "/web/web.yml" [("B", "web"), ("C", "web"), ("D", "web")]

def lateProfile : Profile := supplyProfile "zone.yml" "/web/zone.yml" [("C", "zone")]

/-- The name is the last one of all, the directory the first one. -/
def monitorProfile : Profile :=
  supplyProfile "zz.yml" "/monitor/zz.yml" [("C", "monitor"), ("D", "monitor"), ("E", "monitor")]

def supplyResolved : Resolved :=
  { settings := Table.ofList [("web", supplySettings), ("monitor", .listening 9000)]
    profiles := Table.ofList [("web", Profile.byName [lateProfile, webProfile]),
      ("monitor", Profile.byName [monitorProfile])] }

def supplyEnvironment : Environment :=
  { Environment.empty with
    sidecars := Table.ofList
      [("web", [{ crewSidecar "proxy" "proxy:1" with env := Table.ofList [("A", "proxy")] }])] }

def supplyDeployment : Deployment := ⟨.empty, ⟨"demo", "", supplyEnvironment⟩, ⟨"/staging"⟩⟩

def supplyAssembler : Assembler (List BundleRequest) :=
  { templates := .embedded, store := .recording
    rules := [⟨⟨.named "monitor" "monitor" "monitor", ["zz.yml"]⟩, .monitoring⟩] }

theorem supply_deployed : ∃ text seen,
    (supplyAssembler.deploymentManifest webService supplyDeployment supplyResolved).outcome [] =
      (.ok text, seen) := by
  have one : supplyAssembler.sidecarsOf webService supplyResolved =
    [⟨.named "monitor" "monitor" "monitor", ["zz.yml"]⟩] := rfl
  have attached : ∀ s ∈ supplyAssembler.sidecarsOf webService supplyResolved,
      ∃ own, supplyResolved.settingsFor s.service = .ok own := by
    rw [one]
    exact List.forall_mem_singleton.mpr ⟨.listening 9000, rfl⟩
  exact Assembler.recorded_deployment rfl rfl rfl attached rfl []

theorem supply_variables_supplied : ∃ text seen,
    (supplyAssembler.deploymentManifest webService supplyDeployment supplyResolved).outcome [] =
      (.ok text, seen) ∧
    ∃ settings staged pod primary attached own,
      supplyAssembler.Deployed webService supplyDeployment supplyResolved [] settings staged pod
        text seen ∧
      (staged.map (·.id)).Nodup ∧
      pod.containers = primary :: attached ++ own ∧ attached.map (·.name) = ["monitor"] ∧
      own.map (fun c => (c.name, c.env)) = [("proxy", Table.ofList [("A", "proxy")])] ∧
      ∀ c ∈ primary :: attached, c.env.get? "A" = some "settings" ∧
        c.env.get? "B" = some "high" ∧ c.env.get? "C" = some "zone" ∧
        c.env.get? "D" = some "web" ∧ c.env.get? "E" = some "monitor" ∧ c.env.get? "F" = none := by
  obtain ⟨text, seen, deployed⟩ := supply_deployed
  obtain ⟨settings, staged, pod, merged, primary, attached, own, made, merging, -, containers, -,
    names, customs, supplied⟩ := Assembler.variables_supplied supplyAssembler webService
      supplyDeployment supplyResolved [] seen text deployed
  obtain rfl : supplySettings = settings := Except.ok.inj made.found
  have profiles : merged = Profile.byName [lateProfile, webProfile, monitorProfile] :=
    (Except.ok.inj merging).symm
  have ids : (staged.map (·.id)).Nodup := by
    have same : staged = _ := (Except.ok.inj (congrArg Prod.fst made.staging)).symm
    rw [same]
    decide +kernel
  have each := supplied ids
  rw [profiles] at each
  refine ⟨text, seen, deployed, supplySettings, staged, pod, primary, attached, own, made, ids,
    containers, names, customs, fun c member => ⟨?_, ?_, ?_, ?_, ?_, ?_⟩⟩
  · exact (each c member _ _).mpr (.settings rfl)
  · exact (each c member _ _).mpr (@Supplied.volume _ _ _ [_] [] _ _ rfl rfl rfl (by simp))
  · exact (each c member _ _).mpr (@Supplied.profile _ _ _ "zone.yml" lateProfile _ rfl
      (by decide +kernel) (by decide +kernel) rfl (by decide +kernel))
  · exact (each c member _ _).mpr (@Supplied.profile _ _ _ "web.yml" webProfile _ rfl
      (by decide +kernel) (by decide +kernel) rfl (by decide +kernel))
  · exact (each c member _ _).mpr (@Supplied.profile _ _ _ "zz.yml" monitorProfile _ rfl
      (by decide +kernel) (by decide +kernel) rfl (by decide +kernel))
  · exact (each c member _ _).mpr (.absent rfl (by decide +kernel) (by decide +kernel))

end Supply
end Stevedore
